/-
# Replacing the matches of a pattern

A library model of a global replacement in a text: from left to right, a match of a pattern keeps
some of its characters, a marker stands for the others, and the next match begins after it.  The
letters of a text are of any type that has a character, so that they may carry a mark of where they
come from.
-/
import Mathlib

namespace Replacement

/-- A match: how many characters at its start are kept, and how many after them are replaced. -/
structure Match where
  kept : ℕ
  replaced : ℕ

def Match.length (m : Match) : ℕ := m.kept + m.replaced

/-- The match of a pattern at the start of a text, if there is one, given the character before. -/
abbrev Pattern := Option Char → List Char → Option Match

section Replace

variable {α : Type} (char : α → Char) (pattern : Pattern) (marker : List α)

/-- The replacement in the rest of a text of which some letters belong to a match already. -/
def replaceFrom : ℕ → Option Char → List α → List α
  | _, _, [] => []
  | skip + 1, _, a :: as => replaceFrom skip (some (char a)) as
  | 0, before, a :: as =>
    match pattern before ((a :: as).map char) with
    | none => a :: replaceFrom 0 (some (char a)) as
    | some m =>
      (a :: as).take m.kept ++ (marker ++ replaceFrom (m.length - 1) (some (char a)) as)

def replaceAll (as : List α) : List α := replaceFrom char pattern marker 0 none as

end Replace

/-- How many letters of `after` belong to a match when the text before it has been read. -/
def skipAfter (pattern : Pattern) : ℕ → Option Char → List Char → List Char → ℕ
  | skip, _, [], _ => skip
  | skip + 1, _, c :: cs, after => skipAfter pattern skip (some c) cs after
  | 0, before, c :: cs, after =>
    match pattern before (c :: cs ++ after) with
    | none => skipAfter pattern 0 (some c) cs after
    | some m => skipAfter pattern (m.length - 1) (some c) cs after

/-- No match that begins in a text runs over its end. -/
def Untouched (pattern : Pattern) (before : Option Char) (text after : List Char) : Prop :=
  skipAfter pattern 0 before text after = 0

instance (pattern : Pattern) (before : Option Char) (text after : List Char) :
    Decidable (Untouched pattern before text after) :=
  inferInstanceAs (Decidable (_ = _))

/-! ## Letters -/

section Letters

variable {α β : Type} {char : α → Char} {pattern : Pattern} {marker : List α}

theorem replaceFrom_none {before : Option Char} {a : α} {as : List α}
    (h : pattern before ((a :: as).map char) = none) :
    replaceFrom char pattern marker 0 before (a :: as) =
      a :: replaceFrom char pattern marker 0 (some (char a)) as := by
  rw [replaceFrom, h]

theorem replaceFrom_some {before : Option Char} {a : α} {as : List α} {m : Match}
    (h : pattern before ((a :: as).map char) = some m) :
    replaceFrom char pattern marker 0 before (a :: as) = (a :: as).take m.kept ++
      (marker ++ replaceFrom char pattern marker (m.length - 1) (some (char a)) as) := by
  rw [replaceFrom, h]

/-- Only the characters of the letters matter. -/
theorem map_replaceFrom {char' : β → Char} {f : α → β} (hf : ∀ a, char' (f a) = char a)
    (as : List α) : ∀ skip before,
    (replaceFrom char pattern marker skip before as).map f =
      replaceFrom char' pattern (marker.map f) skip before (as.map f) := by
  induction as with
  | nil => simp [replaceFrom]
  | cons a as ih =>
    intro skip before
    cases skip with
    | succ skip =>
      rw [replaceFrom, ih, ← hf a]
      rfl
    | zero =>
      have hchars : (f a :: as.map f).map char' = (a :: as).map char := by
        rw [← List.map_cons, List.map_map]
        exact List.map_congr_left fun b _ => hf b
      rw [List.map_cons]
      cases h : pattern before ((a :: as).map char) with
      | none => rw [replaceFrom_none h, replaceFrom_none (hchars ▸ h), List.map_cons, ih, hf]
      | some m =>
        rw [replaceFrom_some h, replaceFrom_some (hchars ▸ h), List.map_append,
          List.map_append, List.map_take, ih, hf, List.map_cons]

theorem map_replaceAll {char' : β → Char} {f : α → β} (hf : ∀ a, char' (f a) = char a)
    (as : List α) :
    (replaceAll char pattern marker as).map f =
      replaceAll char' pattern (marker.map f) (as.map f) :=
  map_replaceFrom hf as 0 none

/-- A letter of the result is one of the text or of the marker. -/
theorem mem_replaceFrom {b : α} (as : List α) : ∀ skip before,
    b ∈ replaceFrom char pattern marker skip before as → b ∈ as ∨ b ∈ marker := by
  induction as with
  | nil => simp [replaceFrom]
  | cons a as ih =>
    intro skip before hb
    have hlater : ∀ skip before, b ∈ replaceFrom char pattern marker skip before as →
        b ∈ a :: as ∨ b ∈ marker := fun skip before h =>
      (ih skip before h).imp_left (List.mem_cons_of_mem a)
    cases skip with
    | succ skip => exact hlater skip _ hb
    | zero =>
      cases h : pattern before ((a :: as).map char) with
      | none =>
        rw [replaceFrom_none h] at hb
        rcases List.mem_cons.mp hb with rfl | hb
        · exact .inl List.mem_cons_self
        · exact hlater _ _ hb
      | some m =>
        rw [replaceFrom_some h, List.mem_append, List.mem_append] at hb
        rcases hb with hb | hb | hb
        · exact .inl (List.mem_of_mem_take hb)
        · exact .inr hb
        · exact hlater _ _ hb

theorem mem_replaceAll {b : α} {as : List α} (h : b ∈ replaceAll char pattern marker as) :
    b ∈ as ∨ b ∈ marker :=
  mem_replaceFrom as 0 none h

/-- Letters that belong to a match are dropped. -/
theorem replaceFrom_eq_drop (char : α → Char) (pattern : Pattern) (marker as : List α) :
    ∀ skip before,
    ∃ before', replaceFrom char pattern marker skip before as =
      replaceFrom char pattern marker 0 before' (as.drop skip) := by
  induction as with
  | nil => exact fun skip before => ⟨before, by simp [replaceFrom]⟩
  | cons a as ih =>
    intro skip before
    cases skip with
    | zero => exact ⟨before, rfl⟩
    | succ skip => exact ih skip (some (char a))

/-- A match at the start of the text, and the text after it. -/
theorem replaceFrom_match {before : Option Char} {as : List α} (has : as ≠ []) {m : Match}
    (hm : m.length ≠ 0) (h : pattern before (as.map char) = some m) :
    ∃ before', replaceFrom char pattern marker 0 before as = as.take m.kept ++
      (marker ++ replaceFrom char pattern marker 0 before' (as.drop m.length)) := by
  obtain ⟨a, as, rfl⟩ := List.exists_cons_of_ne_nil has
  obtain ⟨before', hrest⟩ :=
    replaceFrom_eq_drop char pattern marker as (m.length - 1) (some (char a))
  obtain ⟨n, hn⟩ := Nat.exists_eq_succ_of_ne_zero hm
  refine ⟨before', ?_⟩
  rw [replaceFrom_some h, hrest, hn, List.drop_succ_cons, Nat.succ_sub_one]

/-! ## Between two markers -/

/-- Unmarked letters end before a marked one. -/
theorem prefix_of_prefix_append {marked : α → Prop} {r x y : List α} {b : α} (hb : marked b)
    (hr : ∀ c ∈ r, ¬ marked c) (h : r <+: x ++ b :: y) : r <+: x := by
  rcases List.prefix_or_prefix_of_prefix h (List.prefix_append x (b :: y)) with hrx | ⟨t, rfl⟩
  · exact hrx
  · cases t with
    | nil => rw [List.append_nil]
    | cons c t =>
      obtain ⟨rfl, -⟩ := List.cons_prefix_cons.mp ((List.prefix_append_right_inj x).mp h)
      exact absurd hb (hr c (by simp))

/-- Letters at the start of the result that are not of a marker are those of the text. -/
theorem prefix_of_unmarked {marked : α → Prop} (hne : marker ≠ []) (hall : ∀ b ∈ marker, marked b)
    {r : List α} (hr : ∀ b ∈ r, ¬ marked b) (as : List α) : ∀ skip before,
    r <+: replaceFrom char pattern marker skip before as → r <+: as.drop skip := by
  induction as generalizing r with
  | nil => simp [replaceFrom]
  | cons a as ih =>
    intro skip before hprefix
    cases skip with
    | succ skip => exact ih hr skip _ hprefix
    | zero =>
      rw [List.drop_zero]
      cases h : pattern before ((a :: as).map char) with
      | none =>
        rw [replaceFrom_none h] at hprefix
        cases r with
        | nil => exact List.nil_prefix
        | cons b r =>
          obtain ⟨rfl, htail⟩ := List.cons_prefix_cons.mp hprefix
          refine List.cons_prefix_cons.mpr ⟨rfl, ?_⟩
          exact ih (fun b hb => hr b (List.mem_cons_of_mem _ hb)) 0 _ htail
      | some m =>
        obtain ⟨b, rest, rfl⟩ := List.exists_cons_of_ne_nil hne
        rw [replaceFrom_some h, List.cons_append] at hprefix
        have hkept := prefix_of_prefix_append (hall b List.mem_cons_self) hr hprefix
        exact hkept.trans (List.take_prefix _ _)

/-- Unmarked letters next to each other are on one side of a marked one. -/
theorem infix_of_infix_append (marked : α → Prop) {r y : List α} {b : α} (hb : marked b)
    (hr : ∀ c ∈ r, ¬ marked c) (x : List α) (h : r <:+: x ++ b :: y) : r <:+: x ∨ r <:+: y := by
  induction x with
  | nil =>
    rcases List.infix_cons_iff.mp h with hprefix | hy
    · exact .inl (prefix_of_prefix_append (x := []) hb hr hprefix).isInfix
    · exact .inr hy
  | cons c x ih =>
    rcases List.infix_cons_iff.mp h with hprefix | hinfix
    · exact .inl (prefix_of_prefix_append (x := c :: x) hb hr hprefix).isInfix
    · exact (ih hinfix).imp_left fun hx => hx.trans (List.suffix_cons c x).isInfix

/-- An unmarked text lies on one side of a marker. -/
theorem infix_of_marked_append {marked : α → Prop} (hne : marker ≠ [])
    (hall : ∀ b ∈ marker, marked b) {r y : List α} (hr : ∀ c ∈ r, ¬ marked c) (x : List α)
    (h : r <:+: x ++ (marker ++ y)) : r <:+: x ∨ r <:+: y := by
  obtain ⟨b, rest, rfl⟩ := List.exists_cons_of_ne_nil hne
  refine (infix_of_infix_append marked (hall b List.mem_cons_self) hr x h).imp_right fun hrest => ?_
  have hmarked : ∀ c ∈ rest, marked c := fun c hc => hall c (List.mem_cons_of_mem b hc)
  clear h hall hne
  induction rest with
  | nil => exact hrest
  | cons c rest ih =>
    have hsides := infix_of_infix_append marked (hmarked c List.mem_cons_self) hr [] hrest
    rcases hsides with hnil | hlater
    · rw [List.infix_nil.mp hnil]
      exact List.nil_infix
    · exact ih hlater fun d hd => hmarked d (List.mem_cons_of_mem c hd)

/-- Letters of the result that are next to each other and not of a marker are so in the text. -/
theorem infix_of_unmarked (marked : α → Prop) (hne : marker ≠ []) (hall : ∀ b ∈ marker, marked b)
    {r : List α} (hr : ∀ b ∈ r, ¬ marked b) (as : List α) : ∀ skip before,
    r <:+: replaceFrom char pattern marker skip before as → r <:+: as := by
  induction as with
  | nil => simp [replaceFrom]
  | cons a as ih =>
    intro skip before hinfix
    have hlater : ∀ skip before, r <:+: replaceFrom char pattern marker skip before as →
        r <:+: a :: as := fun skip before h =>
      (ih skip before h).trans (List.suffix_cons a as).isInfix
    cases skip with
    | succ skip => exact hlater skip _ hinfix
    | zero =>
      cases h : pattern before ((a :: as).map char) with
      | none =>
        rw [replaceFrom_none h] at hinfix
        rcases List.infix_cons_iff.mp hinfix with hprefix | hrest
        · rw [← replaceFrom_none h] at hprefix
          exact (prefix_of_unmarked hne hall hr _ 0 _ hprefix).isInfix
        · exact hlater _ _ hrest
      | some m =>
        rw [replaceFrom_some h] at hinfix
        obtain hkept | hrest := infix_of_marked_append hne hall hr _ hinfix
        · exact hkept.trans (List.take_prefix _ _).isInfix
        · exact hlater _ _ hrest

/-! ## Places that no match runs over -/

/-- The last character of a text, or the one before it. -/
def lastChar (before : Option Char) (text : List Char) : Option Char := text.getLast?.or before

theorem lastChar_cons (before : Option Char) (c : Char) (text : List Char) :
    lastChar before (c :: text) = lastChar (some c) text := by
  rw [lastChar, lastChar, List.getLast?_cons]
  cases text.getLast? <;> rfl

/-- A match that has begun before a text and does not run over its end is shorter than it. -/
theorem le_length_of_skipAfter {text after : List Char} : ∀ {skip : ℕ} {before : Option Char},
    skipAfter pattern skip before text after = 0 → skip ≤ text.length := by
  induction text with
  | nil => exact fun h => h.le
  | cons c text ih =>
    intro skip before h
    cases skip with
    | zero => exact Nat.zero_le _
    | succ skip => exact Nat.succ_le_succ (ih h)

/-- At such a place the text is replaced in two parts; the first has the letters of its part. -/
theorem replaceFrom_append (char : α → Char) (marker bs as : List α) : ∀ skip before,
    skipAfter pattern skip before (as.map char) (bs.map char) = 0 →
    ∃ written, replaceFrom char pattern marker skip before (as ++ bs) =
        written ++ replaceFrom char pattern marker 0 (lastChar before (as.map char)) bs ∧
      ∀ b ∈ written, b ∈ as ∨ b ∈ marker := by
  induction as with
  | nil =>
    intro skip before h
    rw [List.map_nil, skipAfter] at h
    exact ⟨[], by rw [h]; rfl, by simp⟩
  | cons a as ih =>
    intro skip before h
    rw [List.map_cons, lastChar_cons]
    -- the letters that were written for the rest are letters of the whole
    have hlater : ∀ skip, skipAfter pattern skip (some (char a)) (as.map char) (bs.map char) = 0 →
        ∃ written, replaceFrom char pattern marker skip (some (char a)) (as ++ bs) = written ++
            replaceFrom char pattern marker 0 (lastChar (some (char a)) (as.map char)) bs ∧
          ∀ b ∈ written, b ∈ a :: as ∨ b ∈ marker := fun skip hskip => by
      obtain ⟨written, heq, hmem⟩ := ih skip _ hskip
      exact ⟨written, heq, fun b hb => (hmem b hb).imp_left (List.mem_cons_of_mem a)⟩
    cases skip with
    | succ skip => exact hlater skip h
    | zero =>
      rw [List.map_cons, skipAfter, ← List.map_cons, ← List.map_append, List.cons_append] at h
      cases hm : pattern before ((a :: (as ++ bs)).map char) with
      | none =>
        rw [hm] at h
        obtain ⟨written, heq, hmem⟩ := hlater 0 h
        refine ⟨a :: written, ?_, List.forall_mem_cons.mpr ⟨.inl List.mem_cons_self, hmem⟩⟩
        rw [List.cons_append, replaceFrom_none hm, heq, List.cons_append]
      | some m =>
        rw [hm] at h
        obtain ⟨written, heq, hmem⟩ := hlater (m.length - 1) h
        refine ⟨(a :: (as ++ bs)).take m.kept ++ (marker ++ written), ?_, fun b hb => ?_⟩
        · rw [List.cons_append, replaceFrom_some hm, heq]
          simp only [List.append_assoc]
        · -- the match ends in the first part
          have hkept : m.kept ≤ (a :: as).length := by
            have hlength := le_length_of_skipAfter h
            rw [List.length_map, Match.length] at hlength
            rw [List.length_cons]
            omega
          rw [← List.cons_append, List.take_append_of_le_length hkept, List.mem_append,
            List.mem_append] at hb
          rcases hb with hb | hb | hb
          · exact .inl (List.mem_of_mem_take hb)
          · exact .inr hb
          · exact hmem b hb

/-- A text at none of whose places the pattern matches is left alone. -/
theorem replaceFrom_unmatched (bs : List α) (as : List α)
    (h : ∀ y, y ≠ [] → y <:+ as.map char → ∀ before, pattern before (y ++ bs.map char) = none) :
    ∀ before, replaceFrom char pattern marker 0 before (as ++ bs) =
      as ++ replaceFrom char pattern marker 0 (lastChar before (as.map char)) bs := by
  induction as with
  | nil => exact fun _ => rfl
  | cons a as ih =>
    intro before
    have hfirst := h ((a :: as).map char) (List.cons_ne_nil _ _) (List.suffix_refl _) before
    rw [← List.map_append, List.cons_append] at hfirst
    rw [List.cons_append, replaceFrom_none hfirst, List.map_cons, lastChar_cons, List.cons_append,
      ih fun y hy hsuffix => h y hy (hsuffix.trans (List.suffix_cons _ _))]

/-- No match runs over a character that matches do not have. -/
theorem untouched_of_confined {allowed : Char → Prop}
    (hpattern : ∀ before text m, pattern before text = some m →
      ∀ c ∈ text.take m.length, allowed c)
    {c : Char} (hc : ¬ allowed c) (after text : List Char) (before : Option Char) :
    Untouched pattern before text (c :: after) := by
  suffices hrun : ∀ skip before, (∀ d ∈ (text ++ c :: after).take skip, allowed d) →
      skipAfter pattern skip before text (c :: after) = 0 from
    hrun 0 before (by simp)
  induction text with
  | nil =>
    intro skip before hskip
    cases skip with
    | zero => rfl
    | succ skip => exact absurd (hskip c (by simp)) hc
  | cons d text ih =>
    intro skip before hskip
    cases skip with
    | succ skip =>
      refine ih skip _ fun e he => hskip e ?_
      rw [List.cons_append, List.take_succ_cons]
      exact List.mem_cons_of_mem d he
    | zero =>
      rw [skipAfter]
      split
      · exact ih 0 _ (by simp)
      · rename_i m hm
        refine ih _ _ fun e he => hpattern _ _ _ hm e ?_
        rw [List.cons_append]
        cases hlength : m.length with
        | zero => simp [hlength] at he
        | succ n =>
          rw [hlength, Nat.add_sub_cancel] at he
          rw [List.take_succ_cons]
          exact List.mem_cons_of_mem d he

end Letters

end Replacement

/-
# Searching in a text

A library model of `indexOf` and `lastIndexOf` on sequences over any alphabet, with what they
find in a sequence put together from two parts around a separator, and of `trim` for any notion of
a blank.
-/
import Mathlib

namespace TextSearch

variable {α : Type*} [DecidableEq α]

/-- `text.indexOf(pattern)`; `none` is `-1`. -/
def indexOf (pattern : List α) : List α → Option ℕ
  | [] => if pattern = [] then some 0 else none
  | c :: text =>
    if pattern.isPrefixOf (c :: text) then some 0 else (indexOf pattern text).map (· + 1)

/-- `text.lastIndexOf(pattern)`; `none` is `-1`. -/
def lastIndexOf (pattern : List α) : List α → Option ℕ
  | [] => if pattern = [] then some 0 else none
  | c :: text =>
    match lastIndexOf pattern text with
    | some n => some (n + 1)
    | none => if pattern.isPrefixOf (c :: text) then some 0 else none

/-! ## The first occurrence -/

/-- A separator is found where it stands if its first character does not occur before. -/
theorem indexOf_append {d : α} {ds xs : List α} (hd : d ∉ xs) (ys : List α) :
    indexOf (d :: ds) (xs ++ (d :: ds ++ ys)) = some xs.length := by
  induction xs with
  | nil =>
    have hpre : (d :: ds).isPrefixOf (d :: (ds ++ ys)) := by
      rw [List.isPrefixOf_iff_prefix]
      exact List.prefix_append (d :: ds) ys
    rw [List.nil_append, List.cons_append, indexOf, if_pos hpre]
    rfl
  | cons x xs ih =>
    obtain ⟨hx, hxs⟩ := not_or.mp (mt List.mem_cons.mpr hd)
    have hpre : ¬ (d :: ds).isPrefixOf (x :: (xs ++ (d :: ds ++ ys))) := by
      simp [List.isPrefixOf, hx]
    rw [List.cons_append, indexOf, if_neg hpre, ih hxs]
    rfl

/-! ## The last occurrence -/

/-- A character that does not occur is not found. -/
theorem lastIndexOf_eq_none {d : α} {text : List α} (hd : d ∉ text) :
    lastIndexOf [d] text = none := by
  induction text with
  | nil => rfl
  | cons c text ih =>
    obtain ⟨hc, htext⟩ := not_or.mp (mt List.mem_cons.mpr hd)
    rw [lastIndexOf, ih htext]
    simp [List.isPrefixOf, hc]

/-- A character is found where it stands if it does not occur behind. -/
theorem lastIndexOf_append {d : α} {ys : List α} (hd : d ∉ ys) (xs : List α) :
    lastIndexOf [d] (xs ++ d :: ys) = some xs.length := by
  induction xs with
  | nil =>
    rw [List.nil_append, lastIndexOf, lastIndexOf_eq_none hd]
    simp [List.isPrefixOf]
  | cons x xs ih => rw [List.cons_append, lastIndexOf, ih, List.length_cons]

omit [DecidableEq α] in
/-- A text in which a character occurs is split at its last occurrence. -/
theorem exists_last_of_mem {d : α} {text : List α} (hd : d ∈ text) :
    ∃ xs ys, text = xs ++ d :: ys ∧ d ∉ ys := by
  obtain ⟨as, bs, h, has⟩ := List.eq_append_cons_of_mem (List.mem_reverse.mpr hd)
  refine ⟨bs.reverse, as.reverse, ?_, ?_⟩
  · rw [← List.reverse_reverse text, h]
    simp
  · rwa [List.mem_reverse]

/-! ## Blanks at both ends -/

section Strip

omit [DecidableEq α]

variable (blank : α → Bool)

/-- The sequence without the blanks at its two ends. -/
def strip (text : List α) : List α := (text.dropWhile blank).rdropWhile blank

/-- What is left has no blank in front. -/
theorem dropWhile_strip (text : List α) :
    (strip blank text).dropWhile blank = strip blank text := by
  obtain ⟨rest, hrest⟩ := List.rdropWhile_prefix blank (text.dropWhile blank)
  rw [← strip] at hrest
  cases hs : strip blank text with
  | nil => rfl
  | cons c s =>
    -- the first element left is the first one after the blanks
    have hdrop : text.dropWhile blank = c :: (s ++ rest) := by rw [← hrest, hs, List.cons_append]
    have hhead : blank c = false := by
      have h := List.head_dropWhile_not blank (l := text) (by simp [hdrop])
      simpa only [hdrop, List.head_cons] using h
    rw [List.dropWhile_cons_of_neg (by simp [hhead])]

theorem strip_strip (text : List α) : strip blank (strip blank text) = strip blank text := by
  have h : strip blank (strip blank text) = (strip blank text).rdropWhile blank :=
    congrArg (List.rdropWhile blank) (dropWhile_strip blank text)
  rw [h]
  exact List.rdropWhile_idempotent blank _

end Strip

end TextSearch

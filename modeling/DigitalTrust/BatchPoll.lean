/-
# Waiting for a change of a batch

`waitForBatchChange` of `operation.service.ts`: a long poll reads the parent of a batch, takes a
fingerprint of its children, and compares both about once a second.  The states of the batch are a
history over instants of the database; when the poll reads what, and what its clock says, is a
schedule.  Any schedule may go with any history.
-/
import DigitalTrust.Json
import DigitalTrust.StateMapping

namespace DigitalTrust.BatchPoll

open Json

/-! ## Histories -/

/-- A state stays or moves forward. -/
def Forward (a b : OperationState) : Prop := a = b ∨ a.rank < b.rank

/-- Forward moves compose. -/
theorem Forward.trans {a b c : OperationState} (hab : Forward a b) (hbc : Forward b c) :
    Forward a c := by
  rcases hab with rfl | hab
  · exact hbc
  · rcases hbc with rfl | hbc
    · exact .inr hab
    · exact .inr (hab.trans hbc)

/-- No state comes back. -/
theorem Forward.antisymm {a b : OperationState} (hab : Forward a b) (hba : Forward b a) :
    a = b := by
  rcases hab with h | hab
  · exact h
  · rcases hba with h | hba
    · exact h.symm
    · omega

/-- The states of a batch with `n` children, at each instant.  No row is purged. -/
structure History (n : ℕ) where
  /-- `!operation.batchId && isBatchOperationType(operation.type)` of the parent. -/
  isBatchParent : Bool
  /-- The ids of the children, in their order. -/
  ids : Fin n → Text
  parent : ℕ → OperationState
  child : ℕ → Fin n → OperationState
  parent_forward : ∀ t, Forward (parent t) (parent (t + 1))
  child_forward : ∀ t i, Forward (child t i) (child (t + 1) i)

/-- A change of the parent or of a child is committed at an instant. -/
def History.Commits {n : ℕ} (h : History n) (c : ℕ) : Prop :=
  h.parent (c + 1) ≠ h.parent c ∨ h.child (c + 1) ≠ h.child c

theorem forward_of_le {f : ℕ → OperationState} (hf : ∀ t, Forward (f t) (f (t + 1))) {s t : ℕ}
    (hst : s ≤ t) : Forward (f s) (f t) := by
  induction t, hst using Nat.le_induction with
  | base => exact .inl rfl
  | succ t _ ih => exact ih.trans (hf t)

/-- A state that is the same at two instants was the same in between. -/
theorem eq_between {f : ℕ → OperationState} (hf : ∀ t, Forward (f t) (f (t + 1))) {r s t : ℕ}
    (hrs : r ≤ s) (hst : s ≤ t) (heq : f t = f r) : f s = f r :=
  (heq ▸ forward_of_le hf hst : Forward (f s) (f r)).antisymm (forward_of_le hf hrs)

namespace History

variable {n : ℕ} (h : History n) {r s t : ℕ}

theorem parent_between (hrs : r ≤ s) (hst : s ≤ t) (heq : h.parent t = h.parent r) :
    h.parent s = h.parent r := eq_between h.parent_forward hrs hst heq

theorem child_between (hrs : r ≤ s) (hst : s ≤ t) (heq : h.child t = h.child r) :
    h.child s = h.child r := by
  funext i
  exact eq_between (fun t => h.child_forward t i) hrs hst (congrFun heq i)

/-- A change is committed between two instants if and only if a state differs. -/
theorem exists_commits_iff (hrs : r ≤ s) :
    (∃ c, r ≤ c ∧ c < s ∧ h.Commits c) ↔
      h.parent s ≠ h.parent r ∨ h.child s ≠ h.child r := by
  constructor
  · rintro ⟨c, hrc, hcs, hcommit⟩
    by_contra hsame
    push Not at hsame
    obtain ⟨hparent, hchild⟩ := hsame
    -- states that are the same at both ends were the same around the commit
    rcases hcommit with hne | hne
    · exact hne ((h.parent_between (by omega) (by omega) hparent).trans
        (h.parent_between hrc (by omega) hparent).symm)
    · exact hne ((h.child_between (by omega) (by omega) hchild).trans
        (h.child_between hrc (by omega) hchild).symm)
  · intro hdiffer
    by_contra hnone
    push Not at hnone
    have hsame : ∀ u, r ≤ u → u ≤ s → h.parent u = h.parent r ∧ h.child u = h.child r := by
      intro u hru hus
      induction u, hru using Nat.le_induction with
      | base => exact ⟨rfl, rfl⟩
      | succ u hru ih =>
        have hquiet := hnone u hru (by omega)
        simp only [Commits, not_or, not_not] at hquiet
        obtain ⟨hparent, hchild⟩ := ih (by omega)
        exact ⟨hquiet.1.trans hparent, hquiet.2.trans hchild⟩
    obtain ⟨hparent, hchild⟩ := hsame s hrs le_rfl
    exact hdiffer.elim (· hparent) (· hchild)

end History

/-! ## The fingerprint -/

def stateText : OperationState → Text
  | .pending => "pending".toList
  | .processing => "processing".toList
  | .completed => "completed".toList
  | .failed => "failed".toList

/-- `string_agg(op.id::text || ':' || op.state::text, ',' ORDER BY op.id)`, or the empty text. -/
def aggregate : List (Text × OperationState) → Text
  | [] => []
  | [c] => c.1 ++ ':' :: stateText c.2
  | c :: d :: cs => c.1 ++ ':' :: stateText c.2 ++ ',' :: aggregate (d :: cs)

theorem stateText_injective : Function.Injective stateText := by
  intro a b h
  cases a <;> cases b <;> first | rfl | exact absurd h (by decide)

theorem comma_not_mem_stateText (a : OperationState) : ',' ∉ stateText a := by
  cases a <;> decide

/-- Two texts without a comma are equal if they are so with what follows behind a comma. -/
theorem append_comma_inj {a b xs ys : Text} (ha : ',' ∉ a) (hb : ',' ∉ b)
    (h : a ++ ',' :: xs = b ++ ',' :: ys) : a = b ∧ xs = ys := by
  induction a generalizing b with
  | nil =>
    cases b with
    | nil => exact ⟨rfl, (List.cons.inj h).2⟩
    | cons c b => exact absurd (List.cons.inj h).1 (fun e => hb (e ▸ List.mem_cons_self))
  | cons c a ih =>
    cases b with
    | nil => exact absurd (List.cons.inj h).1 (fun e => ha (e ▸ List.mem_cons_self))
    | cons d b =>
      obtain ⟨hcd, htail⟩ := List.cons.inj h
      obtain ⟨hab, hxy⟩ := ih (fun hm => ha (List.mem_cons_of_mem c hm))
        (fun hm => hb (List.mem_cons_of_mem d hm)) htail
      exact ⟨by rw [hcd, hab], hxy⟩

/-- Under fixed ids the text tells the states. -/
theorem aggregate_injective (ids : List Text) {a b : List OperationState}
    (ha : a.length = ids.length) (hb : b.length = ids.length)
    (h : aggregate (ids.zip a) = aggregate (ids.zip b)) : a = b := by
  induction ids generalizing a b with
  | nil => rw [List.eq_nil_of_length_eq_zero ha, List.eq_nil_of_length_eq_zero hb]
  | cons id ids ih =>
    obtain ⟨x, a, rfl⟩ := List.exists_cons_of_length_eq_add_one ha
    obtain ⟨y, b, rfl⟩ := List.exists_cons_of_length_eq_add_one hb
    simp only [List.length_cons, Nat.add_right_cancel_iff] at ha hb
    cases ids with
    | nil =>
      rw [List.eq_nil_of_length_eq_zero ha, List.eq_nil_of_length_eq_zero hb] at h ⊢
      simp only [List.zip_cons_cons, List.zip_nil_right, aggregate,
        List.append_cancel_left_eq, List.cons.injEq, true_and] at h
      rw [stateText_injective h]
    | cons id' ids =>
      obtain ⟨x', a, rfl⟩ := List.exists_cons_of_length_eq_add_one ha
      obtain ⟨y', b, rfl⟩ := List.exists_cons_of_length_eq_add_one hb
      simp only [List.zip_cons_cons, aggregate, List.append_assoc, List.cons_append,
        List.append_cancel_left_eq, List.cons.injEq, true_and] at h
      obtain ⟨hxy, hrest⟩ := append_comma_inj (comma_not_mem_stateText x)
        (comma_not_mem_stateText y) h
      have htail := ih ha hb (by simpa only [List.zip_cons_cons] using hrest)
      rw [stateText_injective hxy, htail]

section Fingerprint

variable {Digest : Type} {n : ℕ} (h : History n)

/-- `findBatchStateFingerprintForTenant`. -/
def findBatchStateFingerprint (md5 : Text → Digest) (t : ℕ) : Digest :=
  md5 (aggregate ((List.ofFn h.ids).zip (List.ofFn (h.child t))))

/-- The fingerprint tells the states of the children. -/
theorem findBatchStateFingerprint_eq_iff {md5 : Text → Digest} (hmd5 : Function.Injective md5)
    {s t : ℕ} :
    findBatchStateFingerprint h md5 s = findBatchStateFingerprint h md5 t ↔
      h.child s = h.child t := by
  constructor
  · intro heq
    exact List.ofFn_injective (aggregate_injective _ (by simp) (by simp) (hmd5 heq))
  · intro heq
    rw [findBatchStateFingerprint, findBatchStateFingerprint, heq]

end Fingerprint

/-! ## The poll -/

/-- `Date.now() + Math.min(Math.max(waitSeconds, 0), 30) * 1000`. -/
def deadlineOf (called waitSeconds : ℤ) : ℤ := called + min (max waitSeconds 0) 30 * 1000

/-- `Math.min(1000, deadline - Date.now())`; a timer does not run backwards. -/
def pollDelay (deadline now : ℤ) : ℤ := max 0 (min 1000 (deadline - now))

/-- When a poll reads what, and what its clock says.  The reads with number `0` are those before
the loop, the others those of the checks. -/
structure Schedule where
  waitSeconds : ℤ
  /-- The instant of each read of the parent. -/
  parentRead : ℕ → ℕ
  /-- The instant of each fingerprint. -/
  fingerprintRead : ℕ → ℕ
  parent_le : ∀ i, parentRead i ≤ fingerprintRead i
  fingerprint_le : ∀ i, fingerprintRead i ≤ parentRead (i + 1)
  /-- `Date.now()` when the deadline is set. -/
  called : ℤ
  /-- `Date.now()` after the first read. -/
  entry : ℤ
  /-- `Date.now()` in the condition of the loop, after that many checks. -/
  test : ℕ → ℤ
  /-- `Date.now()` when the timer is set. -/
  timer : ℕ → ℤ
  called_le : called ≤ entry
  entry_le : entry ≤ test 0
  test_le : ∀ i, test i ≤ timer i
  notEarly : ∀ i, timer i + pollDelay (deadlineOf called waitSeconds) (timer i) ≤ test (i + 1)

def Schedule.deadline (s : Schedule) : ℤ := deadlineOf s.called s.waitSeconds

inductive Outcome where
  /-- `NotFoundException`. -/
  | notFound
  /-- The parent had ended already. -/
  | ended
  /-- The check with this number has found a change. -/
  | changed (check : ℕ)
  /-- The deadline has passed after this many checks. -/
  | expired (checks : ℕ)
  deriving DecidableEq

def Outcome.checks : Outcome → ℕ
  | .changed i => i
  | .expired i => i
  | _ => 0

section Poll

variable {Digest : Type} [DecidableEq Digest] {n : ℕ} (h : History n) (md5 : Text → Digest)
  (s : Schedule)

/-- `findByIdForTenant` with the test that the row is the parent of a batch. -/
def findBatchParent (t : ℕ) : Option OperationState :=
  if h.isBatchParent then some (h.parent t) else none

/-- The loop, from the given number of checks on. -/
def waitLoop (parent : OperationState) (initial : Digest) : (fuel checks : ℕ) → Option Outcome
  | 0, _ => none
  | fuel + 1, i =>
    if s.test i < s.deadline then
      match findBatchParent h (s.parentRead (i + 1)) with
      | none => some .notFound
      | some current =>
        if current ≠ parent then some (.changed (i + 1))
        else if findBatchStateFingerprint h md5 (s.fingerprintRead (i + 1)) ≠ initial then
          some (.changed (i + 1))
        else waitLoop parent initial fuel (i + 1)
    else some (.expired i)

def waitForBatchChange (fuel : ℕ) : Option Outcome :=
  match findBatchParent h (s.parentRead 0) with
  | none => some .notFound
  | some parent =>
    if parent.isTerminal then some .ended
    else if s.deadline ≤ s.entry then some (.expired 0)
    else
      waitLoop h md5 s parent (findBatchStateFingerprint h md5 (s.fingerprintRead 0)) fuel 0

/-! ## What the loop does -/

/-- A check finds what was there before the loop. -/
def Quiet (i : ℕ) : Prop :=
  h.parent (s.parentRead i) = h.parent (s.parentRead 0) ∧
    h.child (s.fingerprintRead i) = h.child (s.fingerprintRead 0)

/-- The loop goes on while checks are quiet and made before the deadline, and says which of the two
has ended it. -/
theorem waitLoop_eq_some (hparent : h.isBatchParent = true) {md5 : Text → Digest}
    (hmd5 : Function.Injective md5) {fuel i : ℕ} {o : Outcome}
    (hrun : waitLoop h md5 s (h.parent (s.parentRead 0))
      (findBatchStateFingerprint h md5 (s.fingerprintRead 0)) fuel i = some o) :
    ∃ k, i ≤ k ∧ (∀ j, i ≤ j → j < k → s.test j < s.deadline ∧ Quiet h s (j + 1)) ∧
      ((o = .expired k ∧ s.deadline ≤ s.test k) ∨
        (o = .changed (k + 1) ∧ s.test k < s.deadline ∧ ¬ Quiet h s (k + 1))) := by
  induction fuel generalizing i with
  | zero => simp [waitLoop] at hrun
  | succ fuel ih =>
    simp only [waitLoop, findBatchParent, hparent, if_true, ne_eq,
      findBatchStateFingerprint_eq_iff h hmd5] at hrun
    split_ifs at hrun with htest hstate hchild
    · -- neither state differs: the loop goes on
      obtain ⟨k, hik, hquiet, hend⟩ := ih hrun
      refine ⟨k, by omega, fun j hij hjk => ?_, hend⟩
      rcases Nat.eq_or_lt_of_le hij with rfl | hlt
      · exact ⟨htest, hstate, hchild⟩
      · exact hquiet j hlt hjk
    · exact ⟨i, le_rfl, by omega,
        .inr ⟨(Option.some.inj hrun).symm, htest, fun hq => hchild hq.2⟩⟩
    · exact ⟨i, le_rfl, by omega,
        .inr ⟨(Option.some.inj hrun).symm, htest, fun hq => hstate hq.1⟩⟩
    · exact ⟨i, le_rfl, by omega, .inl ⟨(Option.some.inj hrun).symm, not_lt.mp htest⟩⟩

/-- A loop that has not ended has met the deadline in no test. -/
theorem test_lt_of_waitLoop_eq_none {parent : OperationState} {initial : Digest} {fuel i : ℕ}
    (hrun : waitLoop h md5 s parent initial fuel i = none) :
    ∀ j < fuel, s.test (i + j) < s.deadline := by
  induction fuel generalizing i with
  | zero => exact fun j hj => absurd hj (Nat.not_lt_zero j)
  | succ fuel ih =>
    intro j hj
    rw [waitLoop] at hrun
    by_cases htest : s.test i < s.deadline
    · rw [if_pos htest] at hrun
      cases hfind : findBatchParent h (s.parentRead (i + 1)) with
      | none => simp [hfind] at hrun
      | some current =>
        simp only [hfind] at hrun
        split_ifs at hrun
        cases j with
        | zero => exact htest
        | succ j =>
          have hlater := ih hrun j (by omega)
          rwa [Nat.add_right_comm] at hlater
    · simp [htest] at hrun

/-- Every check takes a second, or reaches the deadline. -/
theorem le_test (i : ℕ) : s.called + 1000 * i ≤ s.test i ∨ s.deadline ≤ s.test i := by
  induction i with
  | zero =>
    have hcalled := s.called_le
    have hentry := s.entry_le
    exact .inl (by push_cast; omega)
  | succ i ih =>
    have htest := s.test_le i
    have hearly := s.notEarly i
    change s.timer i + pollDelay s.deadline (s.timer i) ≤ s.test (i + 1) at hearly
    simp only [pollDelay] at hearly
    push_cast
    omega

/-- After thirty checks the deadline has passed. -/
theorem deadline_le_test : s.deadline ≤ s.test 30 := by
  have htest := le_test s 30
  simp only [Schedule.deadline, deadlineOf] at htest ⊢
  omega

/-- Thirty-one rounds are always enough. -/
theorem waitLoop_ends (parent : OperationState) (initial : Digest) {fuel : ℕ}
    (hfuel : 31 ≤ fuel) : ∃ o, waitLoop h md5 s parent initial fuel 0 = some o := by
  cases hrun : waitLoop h md5 s parent initial fuel 0 with
  | some o => exact ⟨o, rfl⟩
  | none =>
    have htest := test_lt_of_waitLoop_eq_none h md5 s hrun 30 (by omega)
    have hdeadline := deadline_le_test s
    rw [Nat.zero_add] at htest
    omega

/-- How a poll that finds a parent which has not ended goes: quiet checks before the deadline, and
then the deadline or a check that is not quiet. -/
theorem waitForBatchChange_cases (hparent : h.isBatchParent = true)
    (hopen : (h.parent (s.parentRead 0)).isTerminal = false) {md5 : Text → Digest}
    (hmd5 : Function.Injective md5) {fuel : ℕ} (hfuel : 31 ≤ fuel) :
    ∃ k o, waitForBatchChange h md5 s fuel = some o ∧
      (∀ j < k, s.test j < s.deadline ∧ Quiet h s (j + 1)) ∧
      ((o = .expired k ∧ s.deadline ≤ s.test k) ∨
        (o = .changed (k + 1) ∧ s.test k < s.deadline ∧ ¬ Quiet h s (k + 1))) := by
  simp only [waitForBatchChange, findBatchParent, hparent, if_true, hopen, Bool.false_eq_true,
    if_false]
  by_cases hentry : s.deadline ≤ s.entry
  · rw [if_pos hentry]
    exact ⟨0, .expired 0, rfl, by omega, .inl ⟨rfl, hentry.trans s.entry_le⟩⟩
  · rw [if_neg hentry]
    obtain ⟨o, hrun⟩ := waitLoop_ends h md5 s (h.parent (s.parentRead 0))
      (findBatchStateFingerprint h md5 (s.fingerprintRead 0)) hfuel
    obtain ⟨k, -, hquiet, hend⟩ := waitLoop_eq_some h s hparent hmd5 hrun
    exact ⟨k, o, hrun, fun j hj => hquiet j (Nat.zero_le j) hj, hend⟩

/-! ## Changes that a poll misses -/

/-- A change is committed after the first read of the parent and before an instant. -/
def ChangedBefore (t : ℕ) : Prop := ∃ c, s.parentRead 0 ≤ c ∧ c < t ∧ h.Commits c

structure MissesNothing (o : Outcome) : Prop where
  /-- A check that starts after a change ends the wait. -/
  prompt : ∀ i, 1 ≤ i → i ≤ o.checks → ChangedBefore h s (s.parentRead i) → o = .changed i
  /-- The wait ends early only after a change. -/
  early : ∀ i, o = .changed i → ChangedBefore h s (s.fingerprintRead i)
  /-- Otherwise it ends with the first check that reaches the deadline. -/
  expires : (∀ i, o ≠ .changed i) →
    ∃ i, o = .expired i ∧ s.deadline ≤ s.test i ∧ ∀ j < i, s.test j < s.deadline

/-- A child changes between the first read of the parent and the first fingerprint, and the first
check, made before the deadline, finds no other change. -/
def MissesChild : Prop :=
  s.test 0 < s.deadline ∧ h.child (s.fingerprintRead 0) ≠ h.child (s.parentRead 0) ∧ Quiet h s 1

theorem parentRead_le (i : ℕ) : s.parentRead 0 ≤ s.parentRead i := by
  induction i with
  | zero => exact le_rfl
  | succ i ih => exact ih.trans ((s.parent_le i).trans (s.fingerprint_le i))

theorem fingerprintRead_le (i : ℕ) : s.fingerprintRead 0 ≤ s.fingerprintRead i := by
  induction i with
  | zero => exact le_rfl
  | succ i ih => exact ih.trans ((s.fingerprint_le i).trans (s.parent_le (i + 1)))

/-- A quiet check that starts after a change: the change was in the gap before the first
fingerprint. -/
theorem Quiet.child_ne {i : ℕ} (hquiet : Quiet h s (i + 1))
    (hchanged : ChangedBefore h s (s.parentRead (i + 1))) :
    h.child (s.fingerprintRead 0) ≠ h.child (s.parentRead 0) := by
  intro hgap
  obtain ⟨hparent, hchild⟩ := hquiet
  rcases (h.exists_commits_iff (parentRead_le s (i + 1))).mp hchanged with hne | hne
  · exact hne hparent
  · -- the child states are the same at the check's fingerprint, and so at its start
    exact hne (h.child_between (parentRead_le s (i + 1)) (s.parent_le (i + 1))
      (hchild.trans hgap))

/-- A check that is not quiet comes after a change. -/
theorem changedBefore_of_not_quiet {i : ℕ} (hquiet : ¬ Quiet h s i) :
    ChangedBefore h s (s.fingerprintRead i) := by
  by_contra hnone
  have hle : s.parentRead 0 ≤ s.fingerprintRead i := (parentRead_le s i).trans (s.parent_le i)
  have hsame := mt (h.exists_commits_iff hle).mpr hnone
  push Not at hsame
  obtain ⟨hparent, hchild⟩ := hsame
  refine hquiet ⟨h.parent_between (parentRead_le s i) (s.parent_le i) hparent, ?_⟩
  rw [hchild, h.child_between (s.parent_le 0) (fingerprintRead_le s i) hchild]

/-- **When a poll misses no change.** A poll that finds a parent which has not ended returns, and
keeps its promise if and only if no child change falls between the two first reads without another
one for the first check to find. -/
theorem poll_misses_nothing_iff (hparent : h.isBatchParent = true)
    (hopen : (h.parent (s.parentRead 0)).isTerminal = false) {md5 : Text → Digest}
    (hmd5 : Function.Injective md5) {fuel : ℕ} (hfuel : 31 ≤ fuel) :
    (∃ o, waitForBatchChange h md5 s fuel = some o ∧ MissesNothing h s o) ↔ ¬ MissesChild h s := by
  obtain ⟨k, o, hrun, hquiet, hend⟩ := waitForBatchChange_cases h s hparent hopen hmd5 hfuel
  constructor
  · rintro ⟨o', hrun', hmisses⟩ ⟨htest, hgap, hfirst⟩
    obtain rfl : o' = o := Option.mem_unique hrun' hrun
    -- the change in the gap comes before the first check
    have hchanged : ChangedBefore h s (s.parentRead 1) := by
      obtain ⟨c, hc, hlt, hcommit⟩ := (h.exists_commits_iff (s.parent_le 0)).mpr (.inr hgap)
      exact ⟨c, hc, hlt.trans_le (s.fingerprint_le 0), hcommit⟩
    rcases hend with ⟨rfl, hdeadline⟩ | ⟨rfl, -, hdiffers⟩
    · have hk : 1 ≤ k := by
        rcases Nat.eq_zero_or_pos k with rfl | hpos
        · omega
        · exact hpos
      exact absurd (hmisses.prompt 1 le_rfl hk hchanged) (by simp)
    · have hzero := hmisses.prompt 1 le_rfl (Nat.succ_pos k) hchanged
      rw [Outcome.changed.injEq] at hzero
      rw [hzero] at hdiffers
      exact hdiffers hfirst
  · intro hnot
    -- a quiet check after a change would make the first check one that misses a child
    have hunchanged : ∀ j < k, ¬ ChangedBefore h s (s.parentRead (j + 1)) := by
      intro j hj hchanged
      obtain ⟨htest, hfirst⟩ := hquiet 0 (Nat.zero_lt_of_lt hj)
      exact hnot ⟨htest, (hquiet j hj).2.child_ne h s hchanged, hfirst⟩
    refine ⟨o, hrun, fun i hi hmade hchanged => ?_, fun i ho => ?_, fun hnever => ?_⟩
    · obtain ⟨j, rfl⟩ := Nat.exists_eq_succ_of_ne_zero (Nat.one_le_iff_ne_zero.mp hi)
      rcases hend with ⟨rfl, -⟩ | ⟨rfl, -, -⟩
      · exact absurd hchanged (hunchanged j hmade)
      · rcases Nat.eq_or_lt_of_le (Nat.le_of_succ_le_succ hmade) with rfl | hlt
        · rfl
        · exact absurd hchanged (hunchanged j hlt)
    · rcases hend with ⟨rfl, -⟩ | ⟨rfl, -, hdiffers⟩
      · exact absurd ho (by simp)
      · rw [Outcome.changed.injEq] at ho
        exact ho ▸ changedBefore_of_not_quiet h s hdiffers
    · rcases hend with ⟨rfl, hdeadline⟩ | ⟨rfl, -, -⟩
      · exact ⟨k, rfl, hdeadline, fun j hj => (hquiet j hj).1⟩
      · exact absurd rfl (hnever (k + 1))

end Poll

/-- A batch with one child, which completes at an instant. -/
def completesAt (t : ℕ) : History 1 where
  isBatchParent := true
  ids _ := "a".toList
  parent _ := .processing
  child u _ := if u < t then .processing else .completed
  parent_forward _ := .inl rfl
  child_forward u _ := by
    by_cases hlt : u + 1 < t
    · exact .inl (by rw [if_pos (by omega), if_pos hlt])
    · rw [if_neg hlt]
      split
      · exact .inr (by decide)
      · exact .inl rfl

/-- A wait of two seconds, with an instant between any two reads and timers that fire on time. -/
def twoSeconds : Schedule where
  waitSeconds := 2
  parentRead i := 2 * i
  fingerprintRead i := 2 * i + 1
  parent_le _ := by omega
  fingerprint_le _ := by omega
  called := 0
  entry := 0
  test i := 1000 * i
  timer i := 1000 * i
  called_le := le_rfl
  entry_le := le_rfl
  test_le _ := le_rfl
  notEarly i := by
    simp only [pollDelay]
    push_cast
    omega

theorem poll_finds_child :
    ¬ MissesChild (completesAt 2) twoSeconds ∧
    ∃ o, waitForBatchChange (completesAt 2) id twoSeconds 31 = some o ∧
      MissesNothing (completesAt 2) twoSeconds o :=
  have hnot : ¬ MissesChild (completesAt 2) twoSeconds := fun hmissed => hmissed.2.1 rfl
  ⟨hnot, (poll_misses_nothing_iff (completesAt 2) twoSeconds rfl rfl Function.injective_id
    le_rfl).mpr hnot⟩

/-- The child completes after the first read of the parent and before the first fingerprint; the
poll waits until its deadline. -/
theorem poll_misses_child :
    waitForBatchChange (completesAt 1) id twoSeconds 31 = some (.expired 2) ∧
    ChangedBefore (completesAt 1) twoSeconds (twoSeconds.parentRead 1) ∧
    ¬ MissesNothing (completesAt 1) twoSeconds (.expired 2) := by
  have hchanged : ChangedBefore (completesAt 1) twoSeconds (twoSeconds.parentRead 1) :=
    ⟨0, le_rfl, by decide, .inr fun heq => absurd (congrFun heq 0) (by decide)⟩
  refine ⟨by decide +kernel, hchanged, fun hmisses => ?_⟩
  exact absurd (hmisses.prompt 1 le_rfl (by decide) hchanged) (by decide)

end DigitalTrust.BatchPoll

/-
# Interleaved programs over a shared state

A library for systems in which many sequential programs run against one shared state.

* `Proc S L α` is a sequential program.  Each of its statements is one atomic action on the shared
  state; between two statements any other program may run.  A fallible statement may also fail, and
  the program then continues along its failure branch.
* A `System` says which programs may be started and what a crash leaves in the shared state.
* `Contract` and `Contract.Ok` are the rely-guarantee rules; `Contract.sound` says that programs
  checked alone keep the invariant when they run together.
-/
import Mathlib

namespace Interleaving

/-- A sequential program over the shared state `S`.  A statement carries a label, whether it can
fail, its effect (`none` while it has to wait) and what follows: `k (some s)` when it ran in state
`s`, `k none` when it failed. -/
inductive Proc (S L α : Type) where
  | ret (a : α)
  | act (l : L) (fallible : Bool) (f : S → Option S) (k : Option S → Proc S L α)

namespace Proc

variable {S L α β : Type}

/-- Sequencing: run the first program, then the one chosen by its value. -/
def bind : Proc S L α → (α → Proc S L β) → Proc S L β
  | .ret a, g => g a
  | .act l e f k, g => .act l e f fun r => (k r).bind g

instance : Monad (Proc S L) where
  pure := .ret
  bind := Proc.bind

@[simp] theorem pure_eq (a : α) : (pure a : Proc S L α) = .ret a := rfl

@[simp] theorem ret_bind (a : α) (g : α → Proc S L β) : (Proc.ret a >>= g) = g a := rfl

@[simp] theorem act_bind (l : L) (e : Bool) (f : S → Option S)
    (k : Option S → Proc S L α) (g : α → Proc S L β) :
    (Proc.act l e f k >>= g) = .act l e f fun r => k r >>= g := rfl

/-- A statement that never has to wait, what it yields when it fails, and what follows it. -/
def statement (l : L) (fallible : Bool) (f : S → S) (failed : α) (k : S → Proc S L α) :
    Proc S L α :=
  .act l fallible (fun s => some (f s)) fun r => match r with
    | some s => k s
    | none => .ret failed

/-- A statement that neither fails nor waits: it changes the state by `f` and returns `g` of the
state before. -/
def perform [Inhabited α] (l : L) (f : S → S) (g : S → α) : Proc S L α :=
  statement l false f default fun s => .ret (g s)

/-- Run a program alone, every statement succeeding at once.  `none` when a
statement has to wait. -/
def runAlone : Proc S L α → S → Option (S × α)
  | .ret a, s => some (s, a)
  | .act _ _ f k, s => match f s with
    | none => none
    | some s' => (k (some s)).runAlone s'

/-- Running a sequence alone is running its parts one after the other. -/
theorem runAlone_bind (p : Proc S L α) (g : α → Proc S L β) (s : S) :
    (p >>= g).runAlone s = (p.runAlone s).bind fun r => (g r.2).runAlone r.1 := by
  induction p generalizing s with
  | ret a => rfl
  | act l e f k ih =>
    rw [act_bind, runAlone, runAlone]
    cases hf : f s with
    | none => rfl
    | some s' => exact ih (some s) s'

def hasReturned : Proc S L α → Bool
  | .ret _ => true
  | .act _ _ _ _ => false

@[simp] theorem runAlone_perform [Inhabited α] (l : L) (f : S → S) (g : S → α) (s : S) :
    (perform l f g).runAlone s = some (f s, g s) := rfl

end Proc

/-! ## Systems and their runs -/

/-- The programs that may be started (`prog r i` is that of request `r` as process `i`) and the
effect of a crash on the shared state, if processes crash. -/
structure System (S L Req : Type) where
  prog : Req → ℕ → Proc S L Unit
  crash : Option (ℕ → S → S)

/-- A configuration: the shared state and what each started process still has to do. -/
structure Config (S L : Type) where
  state : S
  procs : List (Proc S L Unit)

/-- Every process has returned. -/
def Config.Returned {S L : Type} (c : Config S L) : Prop := ∀ p ∈ c.procs, p = .ret ()

theorem Config.returned_of_all {S L : Type} {c : Config S L}
    (h : c.procs.all Proc.hasReturned = true) : c.Returned := by
  intro p hp
  have hret := List.all_eq_true.mp h p hp
  cases p with
  | ret a => rfl
  | act l e f k => simp [Proc.hasReturned] at hret

theorem Config.Returned.getElem? {S L : Type} {c : Config S L} (h : c.Returned) {i : ℕ}
    (hi : i < c.procs.length) : c.procs[i]? = some (.ret ()) := by
  rw [List.getElem?_eq_getElem hi, h _ (List.getElem_mem hi)]

/-- One move of a system: a process runs its next statement, that statement fails,
a request starts a new process, or a process crashes. -/
inductive Move (Req : Type) where
  | run (i : ℕ)
  | fault (i : ℕ)
  | spawn (r : Req)
  | crash (i : ℕ)

section Runs

variable {S L Req : Type}

/-- The configuration after a move; `none` when the move is not possible. -/
def System.apply (sys : System S L Req) (c : Config S L) : Move Req → Option (Config S L)
  | .run i => match c.procs[i]? with
    | some (.act _ _ f k) =>
      (f c.state).map fun s' => ⟨s', c.procs.set i (k (some c.state))⟩
    | _ => none
  | .fault i => match c.procs[i]? with
    | some (.act _ true _ k) => some ⟨c.state, c.procs.set i (k none)⟩
    | _ => none
  | .spawn r => some ⟨c.state, c.procs ++ [sys.prog r c.procs.length]⟩
  | .crash i => match sys.crash with
    | some g => if i < c.procs.length then some ⟨g i c.state, c.procs.set i (.ret ())⟩ else none
    | none => none

/-- Whether the statement that a move runs meets `C`, a condition on its label and on
the state before it.  Moves that run no statement always do. -/
def Meets (C : L → S → Prop) (c : Config S L) : Move Req → Prop
  | .run i => match c.procs[i]? with
    | some (.act l _ _ _) => C l c.state
    | _ => True
  | _ => True

/-- The configurations reached from `s₀`, with no process started, by moves that all
meet `C`. -/
inductive Reach (sys : System S L Req) (C : L → S → Prop) (s₀ : S) : Config S L → Prop
  | init : Reach sys C s₀ ⟨s₀, []⟩
  | step {c c' : Config S L} (m : Move Req) :
      Reach sys C s₀ c → Meets C c m → sys.apply c m = some c' → Reach sys C s₀ c'

/-- Every run: no condition on the statements. -/
def Always : L → S → Prop := fun _ _ => True

/-- Every move meets the trivial condition. -/
theorem meets_always (c : Config S L) (m : Move Req) : Meets Always c m := by
  cases m with
  | run i =>
    simp only [Meets, Always]
    split <;> trivial
  | _ => trivial

/-- Execute a list of moves. -/
def System.exec (sys : System S L Req) (c : Config S L) : List (Move Req) → Option (Config S L)
  | [] => some c
  | m :: ms => (sys.apply c m).bind fun c' => sys.exec c' ms

variable {sys : System S L Req} {s₀ : S} {c c' : Config S L} {ms : List (Move Req)}

/-- What a schedule leads to is reachable. -/
theorem Reach.exec (hc : Reach sys Always s₀ c) (h : sys.exec c ms = some c') :
    Reach sys Always s₀ c' := by
  induction ms generalizing c with
  | nil =>
    rw [System.exec] at h
    injection h with h
    exact h ▸ hc
  | cons m ms ih =>
    rw [System.exec, Option.bind_eq_some_iff] at h
    obtain ⟨d, hd, hds⟩ := h
    exact ih (hc.step m (meets_always c m) hd) hds

/-- What an executed list of moves leads to is reached. -/
theorem reach_exec (h : sys.exec ⟨s₀, []⟩ ms = some c) : Reach sys Always s₀ c :=
  Reach.init.exec h

/-- Whether the statement that a move runs passes a check. -/
def passes (C : L → S → Bool) (c : Config S L) : Move Req → Bool
  | .run i => match c.procs[i]? with
    | some (.act l _ _ _) => C l c.state
    | _ => true
  | _ => true

/-- What passes the check meets it. -/
theorem meets_of_passes {C : L → S → Bool} {m : Move Req}
    (h : passes C c m = true) : Meets (fun l s => C l s = true) c m := by
  cases m with
  | run i =>
    simp only [passes] at h
    simp only [Meets]
    split <;> simp_all
  | _ => trivial

/-- Execute a list of moves as long as their statements pass a check. -/
def System.execIf (sys : System S L Req) (C : L → S → Bool) (c : Config S L) :
    List (Move Req) → Option (Config S L)
  | [] => some c
  | m :: ms => if passes C c m then (sys.apply c m).bind fun c' => sys.execIf C c' ms else none

/-- So is what a checked schedule leads to. -/
theorem Reach.execIf {C : L → S → Bool} (hc : Reach sys (fun l s => C l s = true) s₀ c)
    (h : sys.execIf C c ms = some c') : Reach sys (fun l s => C l s = true) s₀ c' := by
  induction ms generalizing c with
  | nil =>
    rw [System.execIf] at h
    injection h with h
    exact h ▸ hc
  | cons m ms ih =>
    rw [System.execIf] at h
    split_ifs at h with hm
    obtain ⟨d, hd, hds⟩ := Option.bind_eq_some_iff.mp h
    exact ih (hc.step m (meets_of_passes hm) hd) hds

/-- What such an execution leads to is reached under the condition that is checked. -/
theorem reach_execIf {C : L → S → Bool} (h : sys.execIf C ⟨s₀, []⟩ ms = some c) :
    Reach sys (fun l s => C l s = true) s₀ c :=
  Reach.init.execIf h

/-- A run under a condition is a run under every weaker one. -/
theorem Reach.mono {C C' : L → S → Prop} (hC : ∀ l s, C l s → C' l s)
    (hc : Reach sys C s₀ c) : Reach sys C' s₀ c := by
  induction hc with
  | init => exact .init
  | step m _ hm ha ih =>
    refine .step m ih ?_ ha
    cases m with
    | run i =>
      simp only [Meets] at hm ⊢
      split
      · rename_i hp
        rw [hp] at hm
        exact hC _ _ hm
      · trivial
    | _ => trivial

/-- A schedule passes any weaker check. -/
theorem execIf_mono {C C' : L → S → Bool} (hC : ∀ l s, C l s = true → C' l s = true)
    (h : sys.execIf C c ms = some c') : sys.execIf C' c ms = some c' := by
  induction ms generalizing c with
  | nil => exact h
  | cons m ms ih =>
    rw [System.execIf] at h ⊢
    split_ifs at h with hm
    obtain ⟨d, hd, hds⟩ := Option.bind_eq_some_iff.mp h
    have hm' : passes C' c m = true := by
      cases m with
      | run i =>
        simp only [passes] at hm ⊢
        split
        · rename_i hp
          rw [hp] at hm
          exact hC _ _ hm
        · rfl
      | _ => rfl
    rw [if_pos hm', hd]
    exact ih hds

end Runs

/-! ## Rely-guarantee contracts -/

/-- What the programs of a system agree on: an invariant, what a step of one process may do to the
others (`rely (some i)` is what process `i` tolerates, `rely none` what an observer may count on),
and what holds of a process identifier before its process is started. -/
structure Contract (S : Type) where
  inv : S → Prop
  rely : Option ℕ → S → S → Prop
  start : ℕ → S → Prop

namespace Contract

variable {S L α β Req : Type} (κ : Contract S)

/-- An assertion of process `i` that no step of another process can break. -/
def Stable (i : ℕ) (P : S → Prop) : Prop :=
  ∀ s s', κ.inv s → κ.inv s' → P s → κ.rely (some i) s s' → P s'

/-- Process `i` may run the program from `P`: every statement keeps the invariant and does to the
others only what they tolerate, and the program ends in `post`.  Between two statements the process
only knows a stable assertion. -/
def Ok (C : L → S → Prop) (i : ℕ) (post : α → S → Prop) : Proc S L α → (S → Prop) → Prop
  | .ret a, P => ∀ s, κ.inv s → P s → post a s
  | .act l e f k, P =>
    (∀ s s', κ.inv s → P s → C l s → f s = some s' →
      κ.inv s' ∧ (∀ j, j ≠ some i → κ.rely j s s') ∧
        ∃ P', P' s' ∧ κ.Stable i P' ∧ Ok C i post (k (some s)) P') ∧
    (e = true → Ok C i post (k none) P)

variable {κ} {C : L → S → Prop} {i : ℕ}

/-- The conjunction of stable assertions is stable. -/
theorem Stable.and {P Q : S → Prop} (hP : κ.Stable i P) (hQ : κ.Stable i Q) :
    κ.Stable i fun s => P s ∧ Q s :=
  fun s s' hi hi' h hr => ⟨hP s s' hi hi' h.1 hr, hQ s s' hi hi' h.2 hr⟩

/-- An assertion that does not depend on the state is stable. -/
theorem Stable.const (p : Prop) : κ.Stable i fun _ => p :=
  fun _ _ _ _ h _ => h

/-- Strengthening the precondition. -/
theorem Ok.pre {post : α → S → Prop} {p : Proc S L α} {P P' : S → Prop}
    (h : κ.Ok C i post p P) (hP : ∀ s, κ.inv s → P' s → P s) : κ.Ok C i post p P' := by
  induction p with
  | ret a => exact fun s hi hs => h s hi (hP s hi hs)
  | act l e f k ih =>
    exact ⟨fun s s' hi hs hc hf => h.1 s s' hi (hP s hi hs) hc hf, fun he => ih none (h.2 he)⟩

/-- Weakening the postcondition. -/
theorem Ok.post {post post' : α → S → Prop} {p : Proc S L α} {P : S → Prop}
    (h : κ.Ok C i post p P) (hQ : ∀ a s, κ.inv s → post a s → post' a s) :
    κ.Ok C i post' p P := by
  induction p generalizing P with
  | ret a => exact fun s hi hs => hQ a s hi (h s hi hs)
  | act l e f k ih =>
    refine ⟨fun s s' hi hs hc hf => ?_, fun he => ih none (h.2 he)⟩
    obtain ⟨hi', hr, P', hP', hst, hk⟩ := h.1 s s' hi hs hc hf
    exact ⟨hi', hr, P', hP', hst, ih (some s) hk⟩

/-- A value that the precondition only claims to exist. -/
theorem Ok.exists {ι : Type} {post : α → S → Prop} {p : Proc S L α} {P : ι → S → Prop}
    (h : ∀ x, κ.Ok C i post p (P x)) : κ.Ok C i post p fun s => ∃ x, P x s := by
  induction p with
  | ret a =>
    rintro s hi ⟨x, hx⟩
    exact h x s hi hx
  | act l e f k ih =>
    refine ⟨?_, fun he => ih none fun x => (h x).2 he⟩
    rintro s s' hi ⟨x, hx⟩ hc hf
    exact (h x).1 s s' hi hx hc hf

/-- A part of the precondition that does not depend on the state. -/
theorem Ok.assume {q : Prop} {post : α → S → Prop} {p : Proc S L α} {P : S → Prop}
    (h : q → κ.Ok C i post p P) : κ.Ok C i post p fun s => q ∧ P s := by
  induction p with
  | ret a => exact fun s hi hs => h hs.1 s hi hs.2
  | act l e f k ih =>
    exact ⟨fun s s' hi hs hc hf => (h hs.1).1 s s' hi hs.2 hc hf,
      fun he => ih none fun hq => (h hq).2 he⟩

/-- The rule of sequencing. -/
theorem Ok.bind {mid : α → S → Prop} {post : β → S → Prop} {p : Proc S L α}
    {g : α → Proc S L β} {P : S → Prop} (h : κ.Ok C i mid p P)
    (hg : ∀ a, κ.Ok C i post (g a) (mid a)) : κ.Ok C i post (p >>= g) P := by
  induction p generalizing P with
  | ret a => exact (hg a).pre h
  | act l e f k ih =>
    rw [Proc.act_bind]
    refine ⟨fun s s' hi hs hc hf => ?_, fun he => ih none (h.2 he)⟩
    obtain ⟨hi', hr, P', hP', hst, hk⟩ := h.1 s s' hi hs hc hf
    exact ⟨hi', hr, P', hP', hst, ih (some s) hk⟩

/-- A program that has returned need not know anything. -/
theorem done {a : α} {s : S} :
    ∃ P, P s ∧ κ.Stable i P ∧ κ.Ok C i (fun _ _ => True) (.ret a) P :=
  ⟨fun _ => True, trivial, .const True, fun _ _ _ => trivial⟩

/-- The rule for a statement that never has to wait. -/
theorem Ok.statement {post : α → S → Prop} {l : L} {fallible : Bool} {f : S → S} {failed : α}
    {k : S → Proc S L α} {P : S → Prop}
    (hfailed : fallible = true → ∀ s, κ.inv s → P s → post failed s)
    (h : ∀ s, κ.inv s → P s → C l s → κ.inv (f s) ∧ (∀ j, j ≠ some i → κ.rely j s (f s)) ∧
      ∃ P', P' (f s) ∧ κ.Stable i P' ∧ κ.Ok C i post (k s) P') :
    κ.Ok C i post (Proc.statement l fallible f failed k) P := by
  refine ⟨fun s s' hi hs hc hf => ?_, fun he => hfailed he⟩
  obtain rfl := Option.some.inj hf
  exact h s hi hs hc

/-- The rule for a statement that neither fails nor waits. -/
theorem Ok.perform [Inhabited α] {post : α → S → Prop} {l : L} {f : S → S} {g : S → α}
    {P : S → Prop} (hpost : ∀ a, κ.Stable i (post a))
    (h : ∀ s, κ.inv s → P s → C l s →
      κ.inv (f s) ∧ (∀ j, j ≠ some i → κ.rely j s (f s)) ∧ post (g s) (f s)) :
    κ.Ok C i post (Proc.perform l f g) P := by
  refine Ok.statement (by simp) fun s hi hP hC => ?_
  obtain ⟨hinv, hrely, hq⟩ := h s hi hP hC
  exact ⟨hinv, hrely, post (g s), hq, hpost (g s), fun _ _ hs => hs⟩

/-! ## Soundness -/

/-- A system follows a contract when each of its programs does, from the starting
assertion on, and a crash does to the other processes only what they tolerate. -/
structure Follows (sys : System S L Req) (κ : Contract S) (C : L → S → Prop) : Prop where
  start : ∀ i, κ.Stable i (κ.start i)
  prog : ∀ r i, κ.Ok C i (fun _ _ => True) (sys.prog r i) (κ.start i)
  crash : ∀ g, sys.crash = some g → ∀ i s, κ.inv s →
    κ.inv (g i s) ∧ ∀ j, j ≠ some i → κ.rely j s (g i s)

/-- What a configuration keeps: the invariant, an assertion for each started process under which the
rest of its program is fine and ends in `post`, and the starting assertion of every unused
identifier. -/
structure Good (κ : Contract S) (C : L → S → Prop) (post : ℕ → S → Prop) (c : Config S L) :
    Prop where
  inv : κ.inv c.state
  procs : ∀ i p, c.procs[i]? = some p →
    ∃ P, P c.state ∧ κ.Stable i P ∧ κ.Ok C i (fun _ => post i) p P
  start : ∀ i, c.procs.length ≤ i → κ.start i c.state

/-- As `Follows`, with what each program brings about.  A process that crashes brings about
nothing. -/
structure FollowsTo (sys : System S L Req) (κ : Contract S) (C : L → S → Prop)
    (post : ℕ → S → Prop) : Prop where
  start : ∀ i, κ.Stable i (κ.start i)
  prog : ∀ r i, κ.Ok C i (fun _ => post i) (sys.prog r i) (κ.start i)
  crash : ∀ g, sys.crash = some g → ∀ i s, κ.inv s →
    κ.inv (g i s) ∧ ∀ j, j ≠ some i → κ.rely j s (g i s)
  crashed : ∀ g, sys.crash = some g → ∀ i s, post i s

variable {post : ℕ → S → Prop} {sys : System S L Req} {s₀ : S} {c c' : Config S L}

/-- Replacing the program of process `i` after one of its steps. -/
theorem Good.update (hc : Good κ C post c) {s' : S} {p' : Proc S L Unit}
    (hstart : ∀ i, κ.Stable i (κ.start i)) (hi : i < c.procs.length) (hinv : κ.inv s')
    (hrely : ∀ j, j ≠ some i → κ.rely j c.state s')
    (hp : ∃ P, P s' ∧ κ.Stable i P ∧ κ.Ok C i (fun _ => post i) p' P) :
    Good κ C post ⟨s', c.procs.set i p'⟩ := by
  refine ⟨hinv, fun j p hj => ?_, fun j hj => ?_⟩
  · by_cases hij : i = j
    · subst hij
      rw [List.getElem?_set_self hi] at hj
      injection hj with hj
      exact hj ▸ hp
    · rw [List.getElem?_set_ne hij] at hj
      obtain ⟨P, hP, hst, hok⟩ := hc.procs j p hj
      exact ⟨P, hst _ _ hc.inv hinv hP (hrely _ (by simpa using Ne.symm hij)), hst, hok⟩
  · rw [List.length_set] at hj
    refine hstart j _ _ hc.inv hinv (hc.start j hj) (hrely _ ?_)
    simp only [ne_eq, Option.some.injEq]
    omega

/-- One move keeps a configuration good, and a move that changes the state does so as
`rely none` says. -/
theorem Good.step (hsys : FollowsTo sys κ C post) {m : Move Req} (hc : Good κ C post c)
    (hm : Meets C c m) (ha : sys.apply c m = some c') :
    Good κ C post c' ∧ (c'.state = c.state ∨ κ.rely none c.state c'.state) := by
  cases m with
  | run i =>
    simp only [System.apply] at ha
    simp only [Meets] at hm
    split at ha
    · rename_i l e f k hp
      rw [hp] at hm
      rw [Option.map_eq_some_iff] at ha
      obtain ⟨s', hf, rfl⟩ := ha
      have hlt : i < c.procs.length := (List.getElem?_eq_some_iff.mp hp).1
      obtain ⟨P, hP, -, hok⟩ := hc.procs i _ hp
      obtain ⟨hi', hr, hnext⟩ := hok.1 _ _ hc.inv hP hm hf
      exact ⟨hc.update hsys.start hlt hi' hr hnext, Or.inr (hr none (by simp))⟩
    · simp at ha
  | fault i =>
    simp only [System.apply] at ha
    split at ha
    · rename_i l f k hp
      injection ha with ha
      subst ha
      obtain ⟨P, hP, hst, hok⟩ := hc.procs i _ hp
      refine ⟨⟨hc.inv, fun j p hj => ?_, fun j hj => hc.start j (by simpa using hj)⟩, Or.inl rfl⟩
      by_cases hij : i = j
      · subst hij
        rw [List.getElem?_set_self (List.getElem?_eq_some_iff.mp hp).1] at hj
        injection hj with hj
        exact ⟨P, hP, hst, hj ▸ hok.2 rfl⟩
      · rw [List.getElem?_set_ne hij] at hj
        exact hc.procs j p hj
    · simp at ha
  | spawn r =>
    simp only [System.apply, Option.some.injEq] at ha
    subst ha
    refine ⟨⟨hc.inv, fun j p hj => ?_, fun j hj => ?_⟩, Or.inl rfl⟩
    · by_cases hlt : j < c.procs.length
      · rw [List.getElem?_append_left hlt] at hj
        exact hc.procs j p hj
      · -- the new process runs under the first unused identifier
        rw [List.getElem?_append_right (by omega)] at hj
        have hj0 : j - c.procs.length = 0 := by
          by_contra hne
          rw [List.getElem?_eq_none (by simp; omega)] at hj
          simp at hj
        rw [hj0] at hj
        have hjl : j = c.procs.length := by omega
        simp only [List.getElem?_cons_zero, Option.some.injEq] at hj
        subst hj
        subst hjl
        exact ⟨_, hc.start _ le_rfl, hsys.start _, hsys.prog r _⟩
    · rw [List.length_append] at hj
      exact hc.start j (by omega)
  | crash i =>
    simp only [System.apply] at ha
    split at ha
    · rename_i g hg
      split_ifs at ha with hlt
      injection ha with ha
      subst ha
      obtain ⟨hi', hr⟩ := hsys.crash g hg i c.state hc.inv
      exact ⟨hc.update hsys.start hlt hi' hr
        ⟨fun _ => True, trivial, Stable.const True, fun s _ _ => hsys.crashed g hg i s⟩,
        Or.inr (hr none (by simp))⟩
    · simp at ha

/-- A configuration with no process is good when its state is. -/
theorem Good.init (h₀ : κ.inv s₀) (hs : ∀ i, κ.start i s₀) :
    Good (L := L) κ C post ⟨s₀, []⟩ :=
  ⟨h₀, fun i p hp => by simp at hp, fun i _ => hs i⟩

/-- Programs that each follow the contract alone keep it together. -/
theorem soundTo (hsys : FollowsTo sys κ C post) (h₀ : κ.inv s₀) (hs : ∀ i, κ.start i s₀)
    (hc : Reach sys C s₀ c) : Good κ C post c := by
  induction hc with
  | init => exact Good.init h₀ hs
  | step m _ hm ha ih => exact (ih.step hsys hm ha).1

/-- What the program of a process brings about holds once the process has returned, whatever
the others have done since. -/
theorem sound_post (hsys : FollowsTo sys κ C post) (h₀ : κ.inv s₀) (hs : ∀ i, κ.start i s₀)
    (hc : Reach sys C s₀ c) {i : ℕ} (hreturned : c.procs[i]? = some (.ret ())) :
    post i c.state := by
  have hgood := soundTo hsys h₀ hs hc
  obtain ⟨P, hP, -, hok⟩ := hgood.procs i _ hreturned
  exact hok c.state hgood.inv hP

/-- A system that follows a contract need not say what its programs bring about. -/
theorem Follows.to (hsys : Follows sys κ C) :
    FollowsTo sys κ C fun _ _ => True :=
  ⟨hsys.start, hsys.prog, hsys.crash, fun _ _ _ _ => trivial⟩

/-- **Soundness.**  Programs that each follow the contract alone keep it together, in
every interleaving, with every failure and crash. -/
theorem sound (hsys : Follows sys κ C) (h₀ : κ.inv s₀) (hs : ∀ i, κ.start i s₀)
    (hc : Reach sys C s₀ c) : Good κ C (fun _ _ => True) c :=
  soundTo hsys.to h₀ hs hc

/-- Soundness for one step of a run: the observer's `rely none` holds of it. -/
theorem sound_step (hsys : Follows sys κ C) (h₀ : κ.inv s₀) (hs : ∀ i, κ.start i s₀)
    {m : Move Req} (hc : Reach sys C s₀ c) (hm : Meets C c m) (ha : sys.apply c m = some c') :
    c'.state = c.state ∨ κ.rely none c.state c'.state :=
  ((soundTo hsys.to h₀ hs hc).step hsys.to hm ha).2

end Contract

/-! ## Plain invariants -/

section Invariants

variable {S L α Req : Type} {C : L → S → Prop} {I : S → Prop}

/-- Every statement of the program keeps `I` on its own, whatever happens in between. -/
def Proc.Maintains (C : L → S → Prop) (I : S → Prop) : Proc S L α → Prop
  | .ret _ => True
  | .act l e f k =>
    (∀ s s', I s → C l s → f s = some s' → I s' ∧ Maintains C I (k (some s))) ∧
    (e = true → Maintains C I (k none))

/-- The rule for a statement that never has to wait. -/
theorem Proc.Maintains.statement {l : L} {fallible : Bool} {f : S → S} {failed : α}
    {k : S → Proc S L α} (h : ∀ s, I s → C l s → I (f s) ∧ (k s).Maintains C I) :
    (Proc.statement l fallible f failed k).Maintains C I :=
  ⟨fun s _ hs hc hf => Option.some.inj hf ▸ h s hs hc, fun _ => trivial⟩

/-- The contract that says nothing but the invariant. -/
def Contract.plain (I : S → Prop) : Contract S := ⟨I, fun _ _ _ => True, fun _ _ => True⟩

/-- A program that maintains the invariant follows the plain contract. -/
theorem Proc.Maintains.ok {i : ℕ} {p : Proc S L α} (h : p.Maintains C I) :
    (Contract.plain I).Ok C i (fun _ _ => True) p fun _ => True := by
  induction p with
  | ret a => exact fun _ _ _ => trivial
  | act l e f k ih =>
    refine ⟨fun s s' hs _ hC hf => ?_, fun he => ih none (h.2 he)⟩
    obtain ⟨hs', hk⟩ := h.1 s s' hs hC hf
    exact ⟨hs', fun _ _ => trivial, fun _ => True, trivial, .const True, ih (some s) hk⟩

/-- An invariant that each program maintains holds in every state that is reached. -/
theorem Reach.invariant {sys : System S L Req} (hprog : ∀ r i, (sys.prog r i).Maintains C I)
    (hcrash : ∀ g, sys.crash = some g → ∀ i s, I s → I (g i s)) {s₀ : S} (h₀ : I s₀)
    {c : Config S L} (hc : Reach sys C s₀ c) : I c.state := by
  have hfollows : Contract.Follows sys (Contract.plain I) C :=
    ⟨fun _ => .const True, fun r i => (hprog r i).ok,
      fun g hg i s hs => ⟨hcrash g hg i s hs, fun _ _ => trivial⟩⟩
  exact (Contract.sound hfollows h₀ (fun _ => trivial) hc).inv

end Invariants

end Interleaving

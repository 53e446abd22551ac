/-
# The event of an established connection

Webhook deliveries, among them those that clone the template of a multi-use invitation, and
`reconcile` move connections and dispatch `connection.established`.
-/
import DigitalTrust.ConnectionStates

namespace DigitalTrust.ConnectionEvents

open Interleaving ReadCommitted
open ConnectionStates (goesTo goesTo_refl goesTo_trans goesTo_iff goesTo_of_rank_lt isFinal)

/-! ## Requests -/

inductive Request where
  | deliver (d : Delivery)
  | reconcile (agent : ConnectionAgent) (tenantId id : Uuid) (selectedConnectorId : Option Uuid)

def handler : Request → ℕ → Service Unit
  | .deliver d, i => d.process i
  | .reconcile agent tenantId id selected, i => do
    let _ ← reconcile i agent tenantId id selected
    pure ()

/-! ## Entering and announcing -/

def isEstablished : ConnectionState → Bool
  | .active | .completed => true
  | _ => false

def establishedRow (c : Option Connection) : Bool := c.any fun c => isEstablished c.state

def established (p : Committed) (id : Uuid) : Bool := establishedRow (p.row (.connection id))

/-- The connection becomes established. -/
def Enters (p p' : Committed) (id : Uuid) : Prop :=
  established p id = false ∧ established p' id = true

def isAnnouncement : Event → Bool
  | .dispatch _ (.domain .connectionEstablished) _ => true
  | _ => false

/-- The announcement that is sent to a tenant. -/
def announcement (tenantId : Uuid) (resource : Resource) : Event :=
  .dispatch tenantId (.domain .connectionEstablished) resource

def announcements (t : Tx Key Row Event) : List Event := t.events.filter isAnnouncement

/-- A commit announces once the one connection that it lets enter, or nothing if it lets none
enter. -/
def Announced (p : Committed) (c : Commit Key Row Event) : Prop :=
  (announcements c.tx = [] ∧ ∀ id, ¬ Enters p (p.commit c.process c.tx) id) ∨
    ∃ (id : Uuid) (connection : Connection) (resource : Resource),
      (p.commit c.process c.tx).row (.connection id) = some connection ∧
      announcements c.tx = [announcement connection.tenantId resource] ∧
      ∀ id', Enters p (p.commit c.process c.tx) id' ↔ id' = id

/-- A connection keeps its tenant and goes forward. -/
def OnwardRow (c c' : Connection) : Prop :=
  c'.tenantId = c.tenantId ∧ goesTo c.state c'.state = true

theorem OnwardRow.refl (c : Connection) : OnwardRow c c := ⟨rfl, goesTo_refl _⟩

theorem OnwardRow.trans {a b c : Connection} (h : OnwardRow a b) (h' : OnwardRow b c) :
    OnwardRow a c :=
  ⟨h'.1.trans h.1, goesTo_trans h.2 h'.2⟩

/-- Every connection is still there and has gone forward. -/
def Onward (p p' : Committed) : Prop :=
  ∀ id (c : Connection), p.row (.connection id) = some c →
    ∃ c' : Connection, p'.row (.connection id) = some c' ∧ OnwardRow c c'

theorem Onward.refl (p : Committed) : Onward p p := fun _ c hc => ⟨c, hc, .refl c⟩

variable {p : Committed}

theorem Onward.trans {q r : Committed} (h : Onward p q) (h' : Onward q r) : Onward p r := by
  intro id c hc
  obtain ⟨c', hc', hon⟩ := h id c hc
  obtain ⟨c'', hc'', hon'⟩ := h' id c' hc'
  exact ⟨c'', hc'', hon.trans hon'⟩

def eventContract : StoreContract Key Row Event where
  inv _ := True
  rely
    | none => fun p p' => p' = p ∨
        ∃ c : Commit Key Row Event, p' = p.commit c.process c.tx ∧ Announced p c ∧ Onward p p'
    | some _ => Onward
  start _ _ := True
  refl j p := by
    cases j with
    | none => exact Or.inl rfl
    | some j => exact Onward.refl p
  start_stable _ _ _ _ _ _ _ := trivial

/-! ## Transactions -/

/-- A change that lets no connection enter. -/
structure QuietRow (c c' : Option Connection) : Prop where
  onward : ∀ a, c = some a → ∃ b, c' = some b ∧ OnwardRow a b
  established : establishedRow c' = true → establishedRow c = true

/-- Changes that let no connection enter; the other tables are of no concern. -/
def quietChanges : Changes Key Row where
  rel k c c' := match k with
    | .connection _ => QuietRow c c'
    | _ => True
  refl k v := by
    cases k with
    | connection id => exact ⟨fun a ha => ⟨a, ha, .refl a⟩, fun h => h⟩
    | _ => trivial
  trans k u v w h h' := by
    cases k with
    | connection id =>
      refine ⟨fun a ha => ?_, fun hw => h.established (h'.established hw)⟩
      obtain ⟨b, hb, hab⟩ := h.onward a ha
      obtain ⟨c, hc, hbc⟩ := h'.onward b hb
      exact ⟨c, hc, hab.trans hbc⟩
    | _ => trivial

/-- A transaction that so far lets no connection enter and announces nothing. -/
def Quiet (m : Mine Key Row Event) : Prop :=
  m.Within quietChanges fun e => isAnnouncement e = false

/-- A row that becomes established. -/
structure EntersRow (c : Option Connection) (c' : Connection) : Prop where
  onward : ∀ a, c = some a → OnwardRow a c'
  before : establishedRow c = false
  after : isEstablished c'.state = true

/-- A transaction that lets one connection enter, and has not yet announced it. -/
structure Entered (id tenantId : Uuid) (m : Mine Key Row Event) : Prop where
  row : ∃ (c : Option Connection) (c' : Connection), m.held (.connection id) = some c ∧
    m.tx.writes (.connection id) = some (some c') ∧ EntersRow c c' ∧ c'.tenantId = tenantId
  others : ∀ k w, k ≠ .connection id → m.tx.writes k = some w →
    ∃ c, m.held k = some c ∧ quietChanges.rel k c w
  events : ∀ e ∈ m.tx.events, isAnnouncement e = false

/-- A transaction that may be committed. -/
def Reported (m : Mine Key Row Event) : Prop :=
  Quiet m ∨ ∃ id tenantId resource m₀, Entered id tenantId m₀ ∧
    m = m₀.push (announcement tenantId resource)

section Programs

variable {C : Label → Db → Prop} {i : ℕ} {χ : eventContract.TxAssert i} {m : Mine Key Row Event}
  {l : Label} {s : Db} {id tenantId : Uuid}

theorem announcements_eq_nil {t : Tx Key Row Event}
    (h : ∀ e ∈ t.events, isAnnouncement e = false) : announcements t = [] :=
  List.filter_eq_nil_iff.mpr fun e he => by simp [h e he]

theorem rely_of_commit {t : Tx Key Row Event} (h : Announced p ⟨i, t⟩)
    (hon : Onward p (p.commit i t)) (j : Option ℕ) : eventContract.rely j p (p.commit i t) := by
  cases j with
  | none => exact Or.inr ⟨⟨i, t⟩, rfl, h, hon⟩
  | some j => exact hon

/-- Committing without an entry. -/
theorem Quiet.step (hm : Quiet m) (hs : At eventContract index C i χ m l s) :
    eventContract.Step i m.tx s.pub (eventContract.atStart i).holds := by
  have hrow : ∀ id, QuietRow (s.pub.row (.connection id))
      ((s.pub.commit i m.tx).row (.connection id)) := fun id => hm.commit hs (.connection id)
  refine ⟨trivial, fun j _ => rely_of_commit (Or.inl ⟨announcements_eq_nil hm.events, ?_⟩) ?_ j,
    trivial⟩
  · rintro id ⟨hbefore, hafter⟩
    have := (hrow id).established hafter
    rw [established] at hbefore
    exact absurd this (by simp [hbefore])
  · intro id c hc
    exact (hrow id).onward c hc

variable {resource : Resource} {v : Connection} {state : ConnectionState}

/-- Committing an entry that has been announced. -/
theorem Entered.step {m₀ : Mine Key Row Event} (hm : Entered id tenantId m₀)
    (hs : At eventContract index C i χ (m₀.push (announcement tenantId resource)) l s) :
    eventContract.Step i (m₀.push (announcement tenantId resource)).tx s.pub
      (eventContract.atStart i).holds := by
  obtain ⟨c, c', hheld, hwrite, henters, rfl⟩ := hm.row
  have hbefore : s.pub.row (.connection id) = c := hs.held hheld
  have hafter : (s.pub.commit i (m₀.push (announcement c'.tenantId resource)).tx).row
      (.connection id) = some c' := by simp [Pub.commit, hwrite]
  have hother : ∀ id', id' ≠ id → QuietRow (s.pub.row (.connection id'))
      ((s.pub.commit i (m₀.push (announcement c'.tenantId resource)).tx).row
        (.connection id')) := by
    intro id' hne
    cases hw : m₀.tx.writes (.connection id') with
    | none =>
      have hsame : QuietRow (s.pub.row (.connection id')) (s.pub.row (.connection id')) :=
        quietChanges.refl (.connection id') _
      simpa [Pub.commit, hw] using hsame
    | some w =>
      obtain ⟨c₁, hc₁, hrel⟩ := hm.others (.connection id') w (by simpa using hne) hw
      have hpub : s.pub.row (.connection id') = c₁ := hs.held hc₁
      have hquiet : QuietRow c₁ w := hrel
      rw [hpub]
      simpa [Pub.commit, hw] using hquiet
  refine ⟨trivial, fun j _ => rely_of_commit (Or.inr ⟨id, c', resource, hafter, ?_, ?_⟩) ?_ j,
    trivial⟩
  · simp only [announcements, Mine.push_events, List.filter_append]
    have hnone := announcements_eq_nil hm.events
    rw [announcements] at hnone
    simp [hnone, announcement, isAnnouncement]
  · intro id'
    constructor
    · rintro ⟨hb, ha⟩
      by_contra hne
      have := (hother id' hne).established ha
      rw [established] at hb
      exact absurd this (by simp [hb])
    · rintro rfl
      rw [Enters, established, established, hbefore, hafter]
      exact ⟨henters.before, henters.after⟩
  · intro id' a ha
    by_cases hne : id' = id
    · subst hne
      exact ⟨c', hafter, henters.onward a (hbefore ▸ ha)⟩
    · exact (hother id' hne).onward a ha

theorem Reported.step (hm : Reported m) (hs : At eventContract index C i χ m l s) :
    eventContract.Step i m.tx s.pub (eventContract.atStart i).holds := by
  rcases hm with hm | ⟨id, tenantId, resource, m₀, hm, rfl⟩
  · exact hm.step hs
  · exact hm.step hs

/-! ## Moves of a connection -/

/-- The state of a connection, and the tenant it belongs to. -/
def standing (c : Connection) : ConnectionState × Uuid := (c.state, c.tenantId)

/-- The transaction has not changed the standing of the connection. -/
def Unmoved (id : Uuid) (m : Mine Key Row Event) : Prop :=
  ∀ w, m.tx.writes (.connection id) = some w →
    ∃ c, m.held (.connection id) = some c ∧ Option.map standing w = Option.map standing c

/-- What is visible of an unmoved connection is as committed. -/
theorem Unmoved.view (h : Unmoved id m) (hs : At eventContract index C i χ m l s) :
    Option.map standing ((s.view i).row (.connection id)) =
      Option.map standing (s.pub.row (.connection id)) := by
  rw [hs.view]
  cases hw : m.tx.writes (.connection id) with
  | none => rfl
  | some w =>
    obtain ⟨c, hheld, hsame⟩ := h w hw
    rw [hs.held hheld]
    exact hsame

/-- What is seen of an unmoved connection is committed. -/
theorem Unmoved.committed (h : Unmoved id m) (hs : At eventContract index C i χ m l s)
    (hv : (s.view i).row (.connection id) = some v) :
    ∃ c : Connection, s.pub.row (.connection id) = some c ∧ c.state = v.state ∧
      c.tenantId = v.tenantId := by
  have hsame := h.view hs
  rw [hv] at hsame
  obtain ⟨c, hc, heq⟩ := Option.map_eq_some_iff.mp hsame.symm
  exact ⟨c, hc, congrArg Prod.fst heq, congrArg Prod.snd heq⟩

/-- What is committed of it is seen. -/
theorem Unmoved.visible (h : Unmoved id m) (hs : At eventContract index C i χ m l s)
    {c : Connection} (hc : s.pub.row (.connection id) = some c) :
    ∃ v : Connection, (s.view i).row (.connection id) = some v ∧ v.state = c.state ∧
      v.tenantId = c.tenantId := by
  have hsame := h.view hs
  rw [hc] at hsame
  obtain ⟨v, hv, heq⟩ := Option.map_eq_some_iff.mp hsame
  exact ⟨v, hv, congrArg Prod.fst heq, congrArg Prod.snd heq⟩

/-- A forward move that is no entry. -/
theorem Quiet.move (hm : Quiet m) (hs : At eventContract index C i χ m l s)
    (hv : (s.view i).row (.connection id) = some v) (hrank : v.state.rank < state.rank)
    (hno : isEstablished state = true → isEstablished v.state = true) :
    Quiet ((m.hold (.connection id) (s.pub.row (.connection id))).write (.connection id)
      (some { v with state })) := by
  refine Mine.Within.write hm hs ?_
  rw [hv]
  refine ⟨fun a ha => ?_, hno⟩
  obtain rfl : v = a := Option.some.inj ha
  exact ⟨_, rfl, rfl, goesTo_of_rank_lt hrank⟩

/-- A forward move that is an entry. -/
theorem Quiet.enter (hm : Quiet m) (hrow : Unmoved id m) (hs : At eventContract index C i χ m l s)
    (hv : (s.view i).row (.connection id) = some v) (hrank : v.state.rank < state.rank)
    (hbefore : isEstablished v.state = false) (hafter : isEstablished state = true) :
    Entered id v.tenantId ((m.hold (.connection id) (s.pub.row (.connection id))).write
      (.connection id) (some { v with state })) := by
  obtain ⟨c, hc, hstate, htenant⟩ := hrow.committed hs hv
  refine ⟨⟨some c, { v with state }, by simp [hc], by simp, ⟨fun a ha => ?_, ?_, hafter⟩, rfl⟩,
    ?_, ?_⟩
  · obtain rfl : c = a := Option.some.inj ha
    exact ⟨htenant.symm, goesTo_of_rank_lt (hstate ▸ hrank)⟩
  · simpa [establishedRow, hstate] using hbefore
  · intro k w hk hw
    rw [Mine.write_of_ne _ _ hk] at hw
    obtain ⟨c₁, hc₁, hrel⟩ := hm.rows k w hw
    exact ⟨c₁, by rw [Mine.write_held, Mine.hold_of_ne _ _ hk, hc₁], hrel⟩
  · exact hm.events

/-- A connection that has entered may be moved on. -/
theorem Entered.move (hm : Entered id tenantId m) (hs : At eventContract index C i χ m l s)
    (hv : (s.view i).row (.connection id) = some v) (hrank : v.state.rank < state.rank)
    (hafter : isEstablished state = true) :
    Entered id tenantId ((m.hold (.connection id) (s.pub.row (.connection id))).write
      (.connection id) (some { v with state })) := by
  obtain ⟨c, c', hheld, hwrite, henters, htenant⟩ := hm.row
  obtain rfl : c' = v := by
    rw [hs.view, hwrite] at hv
    exact Option.some.inj hv
  have hpub : s.pub.row (.connection id) = c := hs.held hheld
  rw [hpub, hold_held hheld]
  refine ⟨⟨c, { c' with state }, hheld, by simp, ⟨fun a ha => ?_, henters.before, hafter⟩,
    htenant⟩, ?_, hm.events⟩
  · exact (henters.onward a ha).trans ⟨rfl, goesTo_of_rank_lt hrank⟩
  · intro k w hk hw
    rw [Mine.write_of_ne _ _ hk] at hw
    exact hm.others k w hk hw

/-- The connection is there, belongs to the tenant and is at least of the rank. -/
def present (i : ℕ) (id tenantId : Uuid) (rank : ℕ) : eventContract.Assert i where
  holds p := ∃ c : Connection, p.row (.connection id) = some c ∧ c.tenantId = tenantId ∧
    rank ≤ c.state.rank
  stable p p' _ _ := by
    rintro ⟨c, hc, htenant, hrank⟩ hon
    obtain ⟨c', hc', htenant', hgoes⟩ := hon id c hc
    exact ⟨c', hc', htenant'.trans htenant, hrank.trans (goesTo_iff.mp hgoes).1⟩

theorem present_refines {rank rank' : ℕ} (h : rank ≤ rank') :
    (present i id tenantId rank').tx.Refines (present i id tenantId rank).tx :=
  ⟨fun _ ⟨c, hc, ht, hr⟩ => ⟨c, hc, ht, h.trans hr⟩, fun _ hk => hk⟩

theorem present_refines_start {rank : ℕ} :
    (present i id tenantId rank).tx.Refines (eventContract.atStart i).tx :=
  ⟨fun _ _ => trivial, fun _ hk => hk⟩

/-- The guard of `updateStateIfForward`. -/
theorem guard_iff :
    (decide (v.tenantId = tenantId) && decide (v.state ∈ connectionStatesBelow state)) = true ↔
      v.tenantId = tenantId ∧ v.state.rank < state.rank := by
  rw [Bool.and_eq_true, decide_eq_true_eq, decide_eq_true_eq, mem_connectionStatesBelow]

/-- States below `active` are not established. -/
theorem isEstablished_of_rank_lt (h : state.rank < ConnectionState.active.rank) :
    isEstablished state = false := by
  cases state <;> revert h <;> decide

theorem isEstablished_of_rank (h : ConnectionState.active.rank ≤ state.rank)
    (h' : state.rank < ConnectionState.completed.rank) : isEstablished state = true := by
  cases state <;> revert h h' <;> decide

/-- What `transitionConnectionState` reports: whether the connection has entered. -/
structure Moved (target : ConnectionTarget) (id tenantId : Uuid) (r : Bool × Bool)
    (m : Mine Key Row Event) : Prop where
  entered : r.2 = true → r.1 = true ∧ Entered id tenantId m
  quiet : r.2 = false → Quiet m ∧ (r.1 = true → target ≠ .state .active)

/-- The single write of a target other than `completed`. -/
theorem moved_single (hstate : state ≠ .completed) (hm : Quiet m) (hrow : Unmoved id m) :
    Body eventContract index C i χ m
      (transitionConnectionState (.state state) (updateConnectionStateIfForward i id tenantId))
      fun r m' => Moved (.state state) id tenantId r m' := by
  unfold transitionConnectionState
  dsimp only
  rw [if_neg hstate]
  refine Body.seq (Body.update (fun s hs _ => Body.pure ⟨by simp, by simpa using hm⟩)
    fun s v hs hv hguard => Body.pure ?_)
  obtain ⟨rfl, hrank⟩ := guard_iff.mp hguard
  by_cases hactive : state = .active
  · subst hactive
    have hbefore := isEstablished_of_rank_lt hrank
    exact ⟨fun _ => ⟨rfl, hm.enter hrow hs hv hrank hbefore rfl⟩, by simp⟩
  · have hno : isEstablished state = false := by cases state <;> simp_all [isEstablished]
    refine ⟨by simp [hactive], fun _ => ⟨hm.move hs hv hrank (by simp [hno]), ?_⟩⟩
    simpa using hactive

/-- The two writes of the target `completed`: if the first does not match, the connection was
active already. -/
theorem moved_completed (hm : Quiet m) (hrow : Unmoved id m) :
    BodyTo eventContract index C i (present i id tenantId 0).tx m
      (transitionConnectionState (.state .completed)
        (updateConnectionStateIfForward i id tenantId))
      fun r m' _ => Moved (.state .completed) id tenantId r m' := by
  refine BodyTo.seq (BodyTo.update (fun s hs hno => ?_) fun s v hs hv hguard => ?_)
  · refine ⟨(present i id tenantId ConnectionState.active.rank).tx, present_refines (Nat.zero_le _),
      ?_, fun _ hk => hk.elim, ?_⟩
    · obtain ⟨c, hc, htenant, -⟩ := hs.holds
      obtain ⟨v, hv, hstate, htenant'⟩ := hrow.visible hs hc
      refine ⟨c, hc, htenant, ?_⟩
      by_contra hrank
      have hguard := guard_iff.mpr ⟨htenant'.trans htenant, hstate ▸ Nat.lt_of_not_le hrank⟩
      exact absurd hguard (by rw [hno v hv]; decide)
    · refine BodyTo.seq (BodyTo.update (fun s' hs' _ => ?_) fun s' v hs' hv hguard => ?_)
      · exact hs'.learns (fun _ hk => hk) (BodyTo.pure ⟨by simp, by simpa using hm⟩)
      · obtain ⟨rfl, hrank⟩ := guard_iff.mp hguard
        obtain ⟨c, hc, hstate, -⟩ := hrow.committed hs' hv
        obtain ⟨c', hc', -, hactive⟩ := hs'.holds
        obtain rfl : c = c' := Option.mem_unique hc hc'
        have hbefore := isEstablished_of_rank (hstate ▸ hactive) hrank
        refine hs'.learns (fun _ hk => Mine.held_hold _ _ hk) (BodyTo.pure ⟨by simp, fun _ => ?_⟩)
        exact ⟨hm.move hs' hv hrank fun _ => hbefore, by simp⟩
  · obtain ⟨rfl, hrank⟩ := guard_iff.mp hguard
    have hentered := hm.enter hrow hs hv hrank (isEstablished_of_rank_lt hrank) rfl
    refine hs.learns (fun _ hk => Mine.held_hold _ _ hk) (BodyTo.seq (BodyTo.update
      (fun s' hs' _ => ?_) fun s' v' hs' hv' hguard' => ?_))
    · exact hs'.learns (fun _ hk => hk) (BodyTo.pure ⟨fun _ => ⟨rfl, hentered⟩, by simp⟩)
    · obtain ⟨-, hrank'⟩ := guard_iff.mp hguard'
      refine hs'.learns (fun _ hk => Mine.held_hold _ _ hk)
        (BodyTo.pure ⟨fun _ => ⟨rfl, hentered.move hs' hv' hrank' rfl⟩, by simp⟩)

/-- `transitionConnectionState` of a connection that is there. -/
theorem moved {target : ConnectionTarget} (hm : Quiet m) (hrow : Unmoved id m) :
    BodyTo eventContract index C i (present i id tenantId 0).tx m
      (transitionConnectionState target (updateConnectionStateIfForward i id tenantId))
      fun r m' _ => Moved target id tenantId r m' := by
  cases target with
  | inherited => exact BodyTo.pure ⟨by simp, by simpa using hm⟩
  | state state =>
    by_cases hstate : state = .completed
    · subst hstate
      exact moved_completed hm hrow
    · exact BodyTo.post (Body.plain (moved_single hstate hm hrow)) fun _ _ _ h => h.2

/-! ## Deliveries -/

/-- Changes of other tables than that of the connections. -/
def otherTables : Changes Key Row where
  rel k c c' := match k with
    | .connection _ => c' = c
    | _ => True
  refl k v := by
    cases k with
    | connection id => rfl
    | _ => trivial
  trans k u v w h h' := by
    cases k with
    | connection id => exact h'.trans h
    | _ => trivial

/-- A transaction that has touched no connection and announced nothing. -/
def Elsewhere (m : Mine Key Row Event) : Prop :=
  m.Within otherTables fun e => isAnnouncement e = false

/-- Writes elsewhere announce nothing. -/
theorem Elsewhere.quiet (hm : Elsewhere m) : Quiet m where
  events := hm.events
  rows k w hw := by
    obtain ⟨c, hc, hrel⟩ := hm.rows k w hw
    refine ⟨c, hc, ?_⟩
    cases k with
    | connection id =>
      obtain rfl : w = c := hrel
      exact quietChanges.refl (.connection id) w
    | _ => trivial

theorem Elsewhere.unmoved (hm : Elsewhere m) (id : Uuid) : Unmoved id m := by
  intro w hw
  obtain ⟨c, hc, hrel⟩ := hm.rows (.connection id) w hw
  obtain rfl : w = c := hrel
  exact ⟨w, hc, rfl⟩

theorem reports : Delivery.Reports fun e => isAnnouncement e = false :=
  ⟨fun _ _ => rfl, fun _ _ _ => rfl, fun _ _ _ => rfl⟩

theorem progresses : Delivery.Progresses otherTables :=
  ⟨fun _ _ _ _ => trivial, fun _ _ _ _ => trivial, fun _ _ _ _ => trivial,
    fun _ _ _ _ _ _ _ _ => trivial⟩

/-- Where an outcome asks for the event. -/
theorem event_established {topic : ProtocolTopic} {state : String} {outcome : ProtocolOutcome}
    (h : resolveProtocolOutcome topic state = some outcome)
    (he : outcome.event = some .connectionEstablished) :
    topic = .connections ∧ outcome.connectionState = some (.state .active) := by
  cases topic with
  | issueCredential =>
    rcases resolveProtocolOutcome_issueCredential h with rfl | rfl | rfl | rfl <;>
      exact absurd he (by decide)
  | presentProof =>
    simp only [resolveProtocolOutcome, resolveFromTable] at h
    split at h
    · rename_i entry hentry
      have hmem := List.mem_of_find?_eq_some hentry
      obtain rfl := Option.some.inj h
      simp only [presentProofOutcomes, List.mem_cons, List.not_mem_nil, or_false] at hmem
      rcases hmem with rfl | rfl | rfl <;> simp at he
    · split_ifs at h <;> (obtain rfl := Option.some.inj h; exact absurd he (by decide))
  | connections =>
    obtain ⟨target, -, rfl⟩ := Option.map_eq_some_iff.mp h
    refine ⟨rfl, ?_⟩
    split at he <;> simp at he
    rfl
  | revocationRegistry =>
    simp only [resolveProtocolOutcome] at h
    split_ifs at h
    obtain rfl := Option.some.inj h
    simp at he

/-! ### Outcomes -/

/-- What `applyConnectionOutcome` reports. -/
structure Applied (outcome : ProtocolOutcome) (tenantId : Uuid) (r : ApplyOutcomeResult)
    (m : Mine Key Row Event) : Prop where
  entered : r.established = true → r.transitioned = true ∧ ∃ id, Entered id tenantId m
  quiet : r.established = false →
    Quiet m ∧ (r.transitioned = true → outcome.connectionState ≠ some (.state .active))

theorem applied_of_quiet {outcome : ProtocolOutcome} {matched : Bool} (hm : Quiet m) :
    Applied outcome tenantId ⟨matched, false, false⟩ m :=
  ⟨by simp, by simpa using hm⟩

/-- Moving a connection that was found. -/
theorem moveConnection_applied {outcome : ProtocolOutcome} {target : ConnectionTarget}
    {connection : Connection} (hm : Quiet m) (hrow : Unmoved id m)
    (htarget : outcome.connectionState = some target) (htenant : connection.tenantId = tenantId) :
    BodyTo eventContract index C i (present i id tenantId 0).tx m
      (Delivery.moveConnection i (id, connection) target)
      fun r m' _ => Applied outcome tenantId r m' := by
  subst htenant
  refine BodyTo.seq (BodyTo.post (moved hm hrow) fun r m' χ h => BodyTo.pure ?_)
  refine ⟨fun he => ⟨(h.entered he).1, id, (h.entered he).2⟩, fun he => ⟨(h.quiet he).1, ?_⟩⟩
  rw [htarget]
  simpa using (h.quiet he).2

/-- A lookup that has found a connection of the tenant knows that it is there. -/
theorem learns_found (tenantId : Uuid) {p : Connection → Bool} {connection : Uuid × Connection}
    {Q : eventContract.TxAssert i → Prop} (hs : At eventContract index C i χ m l s)
    (hχ : χ = (eventContract.atStart i).tx)
    (hfound : (connections p s.now).head? = some connection)
    (hp : p connection.2 = true → connection.2.tenantId = tenantId)
    (hQ : Q (present i connection.1 tenantId 0).tx) : Learns χ m s.pub Q := by
  subst hχ
  obtain ⟨hrow, hcond⟩ := mem_connections (List.mem_of_head? hfound)
  exact ⟨_, present_refines_start, ⟨connection.2, hrow, hp hcond, Nat.zero_le _⟩,
    fun _ hk => hk.elim, hQ⟩

/-- The clone of a template is a new connection. -/
theorem clone_applied {outcome : ProtocolOutcome} {template : Connection} {externalId : String}
    {theirDid : Option String} (hm : Quiet m)
    (hstate : outcome.connectionState = some (.state state)) :
    Body eventContract index C i χ m
      (do
        createFromInvitationTemplate i id template externalId state theirDid
        pure (⟨true, true, state = .active || state = .completed⟩ : ApplyOutcomeResult))
      fun r m' => Applied outcome template.tenantId r m' := by
  refine Body.seq (Body.insert fun s hs hk _ => Body.pure ?_)
  have hrow : s.pub.row (.connection id) = none := by
    by_contra hr
    exact hk (hs.wf.keys _ hr)
  have hview : (s.view i).row (.connection id) = none := by
    by_contra hv
    obtain ⟨v, hv⟩ := Option.ne_none_iff_exists'.mp hv
    exact hk (hs.wf.mem_keys hv)
  by_cases hest : isEstablished state = true
  · refine ⟨fun _ => ⟨rfl, id, ⟨none, template.fromTemplate externalId state theirDid, by simp,
      by simp, ⟨by simp, rfl, hest⟩, rfl⟩, ?_, ?_⟩, fun hno => ?_⟩
    · intro k w hne hw
      rw [Mine.write_of_ne _ _ hne] at hw
      obtain ⟨c, hc, hrel⟩ := hm.rows k w hw
      exact ⟨c, by rw [Mine.write_held, Mine.hold_of_ne _ _ hne, hc], hrel⟩
    · exact hm.events
    · cases state <;> simp_all [isEstablished]
  · refine ⟨fun hyes => ?_, fun _ => ⟨?_, fun _ => ?_⟩⟩
    · cases state <;> simp_all [isEstablished]
    · rw [← hrow]
      refine Mine.Within.write hm hs ?_
      rw [hview]
      exact ⟨by simp, fun h => absurd h hest⟩
    · rw [hstate]
      rintro ⟨⟩
      exact hest rfl

/-- `applyConnectionOutcome` in a transaction that has touched no connection. -/
theorem applyConnectionOutcome_applied (d : Delivery) (outcome : ProtocolOutcome)
    (hm : Elsewhere m) :
    BodyTo eventContract index C i (eventContract.atStart i).tx m
      (d.applyConnectionOutcome i outcome) fun r m' _ => Applied outcome d.tenantId r m' := by
  unfold Delivery.applyConnectionOutcome
  split
  · exact BodyTo.pure (applied_of_quiet hm.quiet)
  · rename_i target htarget
    refine BodyTo.seq (BodyTo.select fun s hs => ?_)
    cases hfound : (connections _ s.now).head? with
    | some connection =>
      refine learns_found d.tenantId hs rfl hfound (fun hp => ?_) ?_
      · simp_all
      · refine moveConnection_applied hm.quiet (hm.unmoved _) htarget ?_
        have := (mem_connections (List.mem_of_head? hfound)).2
        simp_all
    | none =>
      refine hs.learns (fun _ hk => hk) (BodyTo.seq (BodyTo.select fun s' hs' => ?_))
      cases htemplate : (connections _ s'.now).head? with
      | none =>
        exact hs'.learns (fun _ hk => hk) (BodyTo.pure (applied_of_quiet hm.quiet))
      | some template =>
        have htenant : template.2.tenantId = d.tenantId := by
          have := (mem_connections (List.mem_of_head? htemplate)).2
          simp_all
        dsimp only
        split_ifs
        · refine hs'.learns (fun _ hk => hk) ?_
          split
          · exact BodyTo.throw
          · split_ifs
            · exact BodyTo.pure (applied_of_quiet hm.quiet)
            · exact BodyTo.post (Body.plain (clone_applied hm.quiet htarget))
                fun _ _ _ h => htenant ▸ h.2
        · refine learns_found d.tenantId hs' rfl htemplate (fun _ => htenant) ?_
          exact moveConnection_applied hm.quiet (hm.unmoved _) htarget htenant

/-- The event of a delivery that has moved something and established nothing. -/
theorem eventName_ne {topic : ProtocolTopic} {state : String} {outcome : ProtocolOutcome}
    {type : Option OperationType} (h : resolveProtocolOutcome topic state = some outcome)
    (hno : topic = .connections → outcome.connectionState ≠ some (.state .active)) :
    Delivery.eventName outcome type false ≠ some .connectionEstablished := by
  unfold Delivery.eventName
  intro he
  simp only [Bool.false_eq_true, if_false] at he
  split_ifs at he
  · simp at he
  · obtain ⟨htopic, hstate⟩ := event_established h he
    exact hno htopic hstate

/-- What is sent when nothing was established is no announcement. -/
theorem not_announcement {d : Delivery} {event : Option DomainEventName}
    (hne : event ≠ some .connectionEstablished) (name : EventName)
    (hname : ∀ e, name = .domain e → event = some e) :
    isAnnouncement (.dispatch d.tenantId name (.external d.externalId)) = false := by
  cases name with
  | domain e =>
    cases e with
    | connectionEstablished => exact absurd (hname _ rfl) hne
    | _ => rfl
  | _ => rfl

/-- A delivery of any topic reports each connection that it lets enter. -/
theorem apply_reported (d : Delivery) {outcome : ProtocolOutcome}
    (h : resolveProtocolOutcome d.topic d.protocolState = some outcome) :
    BodyTo eventContract index C i (eventContract.atStart i).tx Mine.idle (d.apply i outcome)
      fun _ m' _ => Reported m' := by
  have hidle : Elsewhere Mine.idle := within_idle
  refine d.apply_bodyTo outcome hidle progresses reports
    (fun _ op m₁ hm₁ => ?_) fun htopic transition op m₁ hm₁ => ?_
  · refine BodyTo.seq (BodyTo.post (applyConnectionOutcome_applied d outcome hm₁)
      fun r m₂ χ happlied => ?_)
    cases hest : r.established with
    | true =>
      obtain ⟨htransitioned, id, hentered⟩ := happlied.entered hest
      rw [if_pos htransitioned]
      refine BodyTo.post (Body.plain (Body.seq (Body.emit (Body.pure ?_)))) fun _ _ _ hm => hm.2
      exact Or.inr ⟨id, d.tenantId, .external d.externalId, m₂, hentered, rfl⟩
    | false =>
      obtain ⟨hquiet, hactive⟩ := happlied.quiet hest
      split_ifs with htransitioned
      · refine BodyTo.post (Body.plain (d.notify_within _ _ hquiet fun name hname => ?_))
          fun _ _ _ hm => Or.inl hm.2
        exact not_announcement (eventName_ne h fun _ => hactive htransitioned) name hname
      · exact BodyTo.pure (Or.inl hquiet)
  · refine BodyTo.post (Body.plain (d.finishCredential_within outcome transition op hm₁
      progresses ?_)) fun _ m' _ hm' => Or.inl (Elsewhere.quiet hm'.2)
    exact fun name hname => not_announcement (eventName_ne h fun ht => absurd ht htopic) name hname

/-- A transaction that reports. -/
theorem reported_run {α : Type} {p : Service α}
    (h : BodyTo eventContract index C i (eventContract.atStart i).tx Mine.idle p
      fun _ m' _ => Reported m') :
    Keeps eventContract index C i (eventContract.atStart i) (transaction l i p) :=
  Run.transactionTo (BodyTo.post h fun _ _ _ hm _ hs =>
    ⟨fun _ _ => trivial, eventContract.atStart i, hm.step hs, rfl, rfl⟩) fun _ => rfl

/-- A delivery keeps the contract. -/
theorem process_keeps (d : Delivery) :
    Keeps eventContract index C i (eventContract.atStart i) (d.process i) := by
  unfold Delivery.process
  split
  · exact Keeps.pure
  · rename_i outcome houtcome
    exact Keeps.bind (reported_run (apply_reported d houtcome)) fun _ => Keeps.pure

/-! ## Reconciling -/

/-- The state changes of `reconcile`, and the announcement. -/
theorem reconcileState_reported {current : ConnectionState} {result : Option Connection}
    {forwardStates : List ConnectionState} (hm : Quiet m) (hrow : Unmoved id m) :
    BodyTo eventContract index C i (present i id tenantId 0).tx m
      (do
        let established ← reconcileState i tenantId id state current forwardStates
        announceEstablished i established (some (announcement tenantId resource))
        pure result) fun _ m' _ => Reported m' := by
  unfold reconcileState
  split_ifs
  · refine BodyTo.seq (BodyTo.seq (BodyTo.post (moved hm hrow) fun r m' χ hmoved => ?_))
    refine BodyTo.pure ?_
    cases hest : r.2 with
    | true =>
      refine BodyTo.post (Body.plain (Body.seq (Body.emit (Body.pure ?_)))) fun _ _ _ hm => hm.2
      exact Or.inr ⟨id, tenantId, resource, m', (hmoved.entered hest).2, rfl⟩
    | false => exact BodyTo.seq (BodyTo.pure (BodyTo.pure (Or.inl (hmoved.quiet hest).1)))
  · exact BodyTo.seq (BodyTo.pure (BodyTo.seq (BodyTo.pure (BodyTo.pure (Or.inl hm)))))

/-- The transaction of `reconcile`, with the announcement for its tenant. -/
theorem reconcileRow_reported {connectorId : Uuid} {remote : RemoteConnection}
    {forwardStates : List ConnectionState} :
    BodyTo eventContract index C i (eventContract.atStart i).tx Mine.idle
      (reconcileRow i tenantId id connectorId remote state forwardStates
        (some (announcement tenantId resource))) fun _ m' _ => Reported m' := by
  have hidle : Quiet Mine.idle := within_idle
  refine Body.seqTo (Body.selectForUpdate (fun s hs _ => BodyTo.pure (Or.inl hidle))
    fun s x v hs hx hv => ?_)
  have hfound : id = x ∧ v.tenantId = tenantId := by
    split at hx
    · rename_i c hc
      obtain rfl : id = x := Option.some.inj hx
      obtain ⟨hrow, htenant⟩ := Option.filter_eq_some_iff.mp hc
      obtain rfl : c = v := Option.mem_unique hrow hv
      exact ⟨rfl, of_decide_eq_true htenant⟩
    · simp at hx
  obtain ⟨rfl, htenant⟩ := hfound
  have hpub : s.pub.row (.connection id) = some v := (hs.view _).symm.trans hv
  have hheld := Mine.hold_self (Mine.idle (V := Row) (E := Event)) (.connection id)
    (s.pub.row (.connection id))
  dsimp only
  split_ifs
  · exact BodyTo.pure (Or.inl (hidle.hold hs))
  · refine BodyTo.seq (BodyTo.selectIn fun s' hs' => ?_)
    have hpub' : s'.pub.row (.connection id) = some v := (hs'.held hheld).trans hpub
    rw [show (s'.view i).row (.connection id) = some v from (hs'.view _).trans hpub']
    refine ⟨(present i id tenantId 0).tx, present_refines_start,
      ⟨v, hpub', htenant, Nat.zero_le _⟩, fun _ hk => hk.elim, Body.seqTo ?_⟩
    refine Body.storeRow (Connection.save_self _ _) hheld hpub (fun _ => ?_) fun _ => ?_
    · exact reconcileState_reported (hidle.hold hs) fun w hw => by simp at hw
    · refine reconcileState_reported (hidle.write hs ?_) fun w hw => ?_
      · rw [hv]
        refine ⟨fun a ha => ?_, fun h => h⟩
        obtain rfl : v = a := Option.some.inj ha
        exact ⟨_, rfl, rfl, goesTo_refl _⟩
      · rw [Mine.write_self] at hw
        obtain rfl := Option.some.inj hw
        exact ⟨some v, by simp [hpub], rfl⟩

/-- So does a reconciliation. -/
theorem reconcile_keeps {agent : ConnectionAgent} {selected : Option Uuid} :
    Keeps eventContract index C i (eventContract.atStart i)
      (reconcile i agent tenantId id selected) := by
  refine Keeps.bind resolveRemoteIdentity_keeps fun resolved => ?_
  dsimp only
  split_ifs
  · exact Keeps.throw
  · refine Keeps.bind (reported_run reconcileRow_reported) fun updated => ?_
    split
    · exact Keeps.throw
    · exact Keeps.pure

end Programs

/-! ## Every run -/

/-- Every request is served within the contract. -/
theorem handler_serves : eventContract.Serves index Always handler := by
  intro r i
  refine Run.post (R := fun _ ψ => ψ = eventContract.atStart i) ?_ fun _ _ _ => trivial
  cases r with
  | deliver d => exact process_keeps d
  | reconcile agent tenantId id selected =>
    exact Keeps.bind reconcile_keeps fun _ => Keeps.pure

theorem established_iff {id : Uuid} : established p id = true ↔
    ∃ c : Connection, p.row (.connection id) = some c ∧ isEstablished c.state = true := by
  rw [established]
  cases p.row (.connection id) with
  | none => simp [establishedRow]
  | some c => simp [establishedRow]

/-- A state that was established stays so or is left for good. -/
theorem isEstablished_of_goesTo {a b c : ConnectionState} (ha : isEstablished a = true)
    (hab : goesTo a b = true) (hbc : goesTo b c = true) (hc : isEstablished c = true) :
    isEstablished b = true := by
  cases a <;> cases b <;> cases c <;> revert ha hab hbc hc <;> decide

/-- A connection that has been established does not become so again. -/
theorem not_enters_of_onward {q r : Committed} {id : Uuid} (h : established p id = true)
    (hpq : Onward p q) (hqr : Onward q r) : ¬ Enters q r id := by
  rintro ⟨hq, hr⟩
  obtain ⟨a, ha, hest⟩ := established_iff.mp h
  obtain ⟨b, hb, -, hab⟩ := hpq id a ha
  obtain ⟨c, hc, -, hbc⟩ := hqr id b hb
  obtain ⟨c', hc', hest'⟩ := established_iff.mp hr
  obtain rfl : c = c' := Option.mem_unique hc hc'
  have : established q id = true :=
    established_iff.mpr ⟨b, hb, isEstablished_of_goesTo hest hab hbc hest'⟩
  rw [hq] at this
  exact absurd this (by decide)

/-- What was committed when the first `n` commits of a history were made. -/
def stateAt (p₀ : Committed) (history : List (Commit Key Row Event)) (n : ℕ) : Committed :=
  p₀.after (history.take n)

theorem stateAt_succ (p₀ : Committed) {history : List (Commit Key Row Event)} {n : ℕ}
    {commit : Commit Key Row Event} (h : history[n]? = some commit) :
    stateAt p₀ history (n + 1) = (stateAt p₀ history n).commit commit.process commit.tx := by
  rw [stateAt, List.take_add_one, h]
  exact Pub.after_append _ _ _

/-- Along a history whose commits take connections onward they go onward. -/
theorem onward_stateAt {p₀ : Committed} {history : List (Commit Key Row Event)}
    (h : ∀ n commit, history[n]? = some commit → Onward (stateAt p₀ history n)
      ((stateAt p₀ history n).commit commit.process commit.tx)) {k n : ℕ} (hkn : k ≤ n) :
    Onward (stateAt p₀ history k) (stateAt p₀ history n) := by
  induction n, hkn using Nat.le_induction with
  | base => exact Onward.refl _
  | succ n _ ih =>
    cases hn : history[n]? with
    | none =>
      have hsame : stateAt p₀ history (n + 1) = stateAt p₀ history n := by
        simp [stateAt, List.take_add_one, hn]
      rw [hsame]
      exact ih
    | some commit =>
      rw [stateAt_succ p₀ hn]
      exact ih.trans (h n commit hn)

/-- Along every run each commit announces, once and to its tenant, the one connection that it brings
into `active` or `completed`, if any; and none is brought there twice. -/
theorem established_once {keys : List Key} {p₀ : Committed}
    (hkeys : ∀ k, p₀.row k ≠ none → k ∈ keys) (hindex : index.Respected p₀.row)
    (hhistory : p₀.history = []) {c : Config Db Label}
    (hc : Reach (service true handler) Always (Store.initial keys p₀) c) :
    stateAt p₀ c.state.pub.history c.state.pub.history.length = c.state.pub ∧
    (∀ n commit, c.state.pub.history[n]? = some commit →
      stateAt p₀ c.state.pub.history (n + 1) =
          (stateAt p₀ c.state.pub.history n).commit commit.process commit.tx ∧
        Announced (stateAt p₀ c.state.pub.history n) commit) ∧
    (∀ n id, Enters (stateAt p₀ c.state.pub.history n) (stateAt p₀ c.state.pub.history (n + 1)) id →
      ∀ k ≤ n, established (stateAt p₀ c.state.pub.history k) id = false) ∧
    ∀ n n' id,
      Enters (stateAt p₀ c.state.pub.history n) (stateAt p₀ c.state.pub.history (n + 1)) id →
      Enters (stateAt p₀ c.state.pub.history n') (stateAt p₀ c.state.pub.history (n' + 1)) id →
      n = n' := by
  obtain ⟨hafter, hall⟩ := StoreContract.sound_history
    (P := fun p c => Announced p c ∧ Onward p (p.commit c.process c.tx)) handler_serves
    (fun p p' hrely => by
      rcases hrely with heq | ⟨commit, rfl, hannounced, hon⟩
      · exact Or.inl heq
      · exact Or.inr ⟨commit, rfl, hannounced, hon⟩)
    hkeys hindex trivial (fun _ => trivial) hhistory hc
  generalize c.state.pub.history = history at hafter hall ⊢
  have honward : ∀ {k n : ℕ}, k ≤ n → Onward (stateAt p₀ history k) (stateAt p₀ history n) :=
    fun hkn => onward_stateAt (fun n commit hn => (hall n commit hn).2) hkn
  have hfirst : ∀ n id, Enters (stateAt p₀ history n) (stateAt p₀ history (n + 1)) id →
      ∀ k ≤ n, established (stateAt p₀ history k) id = false := by
    intro n id henters k hk
    by_contra hest
    exact not_enters_of_onward (by simpa using hest) (honward hk) (honward (Nat.le_succ n)) henters
  refine ⟨by rw [stateAt, List.take_length, ← hafter],
    fun n commit hn => ⟨stateAt_succ p₀ hn, (hall n commit hn).1⟩, hfirst, ?_⟩
  -- a later entry would find the connection established
  have hlt : ∀ n n' id, Enters (stateAt p₀ history n) (stateAt p₀ history (n + 1)) id →
      Enters (stateAt p₀ history n') (stateAt p₀ history (n' + 1)) id → ¬ n < n' := by
    intro n n' id h h' hlt
    have hno := hfirst n' id h' (n + 1) hlt
    rw [h.2] at hno
    exact absurd hno (by decide)
  intro n n' id h h'
  have := hlt n n' id h h'
  have := hlt n' n id h' h
  omega

/-! ## A delivery and its duplicate -/

/-- A connection that the agent knows. -/
def requested : Connection where
  tenantId := 1
  externalConnectionId := some "agent-connection"
  theirLabel := none
  theirDid := none
  state := .requested
  connectorId := some 4
  protocol := .didcommV1
  metadata := ⟨none, none, none⟩

def oneConnection : Committed := Pub.ofRows [⟨.connection 2, requested⟩]

def completed : Delivery where
  tenantId := 1
  topic := .connections
  externalId := "agent-connection"
  protocolState := "completed"
  payload := ⟨none, none, ""⟩
  correlation := none
  connectionId := 3

/-- Two deliveries of it: both find the connection before either has moved it. -/
def deliveredTwice : List (Move Request) :=
  [.spawn (.deliver completed), .spawn (.deliver completed)] ++ List.replicate 3 (.run 0) ++
    List.replicate 3 (.run 1) ++ List.replicate 5 (.run 0) ++ List.replicate 4 (.run 1)

def announced (c : Config Db Label) : List (List Event) :=
  c.state.pub.history.map fun commit => announcements commit.tx

/-- One of the two deliveries announces the connection, which it brings into `completed`. -/
theorem established_once_deliveredTwice :
    ∃ c, (service true handler).exec ⟨Store.initial [.connection 2] oneConnection, []⟩
        deliveredTwice = some c ∧
      announced c = [[announcement 1 (.external "agent-connection")], []] ∧
      ∀ n commit, c.state.pub.history[n]? = some commit →
        Announced (stateAt oneConnection c.state.pub.history n) commit := by
  have hresult : ((service true handler).exec
      ⟨Store.initial [.connection 2] oneConnection, []⟩ deliveredTwice).map announced =
        some [[announcement 1 (.external "agent-connection")], []] := by decide +kernel
  obtain ⟨c, hexec, hannounced⟩ := Option.map_eq_some_iff.mp hresult
  have hreach : Reach (service true handler) Always
      (Store.initial [.connection 2] oneConnection) c := reach_exec hexec
  have hkeys : ∀ k, oneConnection.row k ≠ none → k ∈ [Key.connection 2] := fun k hk => by
    have hmem := Pub.keys_ofRows hk
    simpa using hmem
  have hindex : index.Respected oneConnection.row := by
    refine Index.respected_ofRows fun a ha b hb hne => ?_
    rw [List.mem_singleton.mp ha, List.mem_singleton.mp hb] at hne
    exact absurd rfl hne
  have honce := established_once hkeys hindex rfl hreach
  exact ⟨c, hexec, hannounced, fun n commit hn => (honce.2.1 n commit hn).2⟩

end DigitalTrust.ConnectionEvents

import Coordinator.Proofs.Registry.Steps

/-! # The calls of a registry under way

Any number of calls work on one registry at a time, in any order of their steps (`Traffic.run`).
What the backend answers is not fixed: in each step it lends a connection or not, and carries the
statement out or not, as the step says (`Answer`).  A connection is numbered when it is lent, and
each loan serves one session, so **a session is known by the number of its loan**.  The log of what
calls do to sessions is there to speak of the past; no call reads it.

A call goes on from a phase that fits (`Phase.Fit`), with a session that can be driven in hand or
none.  From there, all a step can do is one of seven things (`Effect`, `effect_advance`): a call
that gets nothing ends, a branch that cannot be started gives its connection back, a new session is
in hand, or registered, a session is taken out, the call goes on with the session it has, or its
connection goes back. -/
namespace Coordinator

/-- A session that can be driven: open, and in a state that a branch can be left in. -/
def Session.Live {κ : Type} (s : Session κ) : Prop :=
  s.isOpen = true ∧ (s.state = .started ∨ s.state = .ended ∨ s.state = .prepared)

theorem Session.Live.connected {κ : Type} {s : Session κ} (hs : s.Live) :
    ∃ c, s.connection = some c := Option.isSome_iff_exists.mp hs.1

namespace Registry

/-- The sessions of a registry can be driven, and each is filed under its own xid. -/
def InOrder {κ : Type} (reg : Registry κ) : Prop :=
  ∀ x s, reg.get? x = some s → s.xid = x ∧ s.Live

/-- A session that can be driven is registered under its xid. -/
theorem InOrder.insert {κ : Type} {reg : Registry κ} {s : Session κ} (h : reg.InOrder)
    (hs : s.Live) : InOrder (reg.insert s.xid s) := by
  intro x s' hx
  rw [Table.get?_insert] at hx
  split at hx
  · next heq => cases hx; exact ⟨heq.symm, hs⟩
  · exact h x s' hx

theorem InOrder.erase {κ : Type} {reg : Registry κ} (h : reg.InOrder) (x : Bytes) :
    InOrder (reg.erase x) := by
  intro y s hy
  rw [Table.get?_erase] at hy
  split at hy
  · cases hy
  · exact h y s hy

/-! ## The shared part -/

/-- What a call does to a session, as far as it matters to others. -/
inductive Event
  | took (call session : Nat) (m : Task)
  | sent (call session : Nat) (sql : Bytes)
deriving DecidableEq, Repr

/-- What the calls of a registry share. -/
structure Yard where
  registry : Registry Nat := ∅
  /-- How many connections were lent so far. -/
  lent : Nat := 0
  /-- The loans that are over. -/
  closed : List Nat := []
  /-- What happened, latest first. -/
  log : List Event := []

/-- What the backend answers in a step. -/
structure Answer where
  lend : Except Fault Unit
  statement : Except Fault Unit

namespace Yard

def registryCell : Cell Yard (Registry Nat) := ⟨registry, fun registry y => { y with registry }⟩

/-- The connections, as a call meets them when the backend answers so. -/
def gateway (i : Nat) (a : Answer) : Gateway Yard Nat where
  acquire y := match a.lend with
    | .ok () => (.ok y.lent, { y with lent := y.lent + 1 })
    | .error f => (.error f, y)
  execute c sql y := (a.statement, { y with log := .sent i c sql :: y.log })
  query _ _ _ y := (.ok [], y)
  release c y := { y with closed := c :: y.closed }
  poison _ y := y
  log _ y := y

def site (P : Participant) (i : Nat) (a : Answer) : Site Yard Nat := ⟨registryCell, P, gateway i a⟩

/-- What a step takes out. -/
def taking (i : Nat) : Phase Nat → Next Nat → List Event
  | .take _ m, .goesOn (.check _ s) => s.connection.toList.map (.took i · m)
  | _, _ => []

/-- One step of a call, on the log. -/
def advance (P : Participant) (i : Nat) (a : Answer) (φ : Phase Nat) (y : Yard) : Next Nat × Yard :=
  let (next, y) := (site P i a).advance φ y
  (next, { y with log := taking i φ next ++ y.log })

/-- The loans of registered sessions. -/
def filed (y : Yard) : List Nat := y.registry.values.filterMap Session.connection

end Yard

/-! ## Calls under way -/

/-- A registry and the calls under way. -/
structure Traffic where
  yard : Yard := {}
  calls : Table Nat (Phase Nat) := ∅
  /-- How many calls were made so far. -/
  made : Nat := 0

/-- A new call, or the next step of one. -/
inductive Step
  | invoke (call : Call)
  | advance (i : Nat) (a : Answer)

namespace Traffic

/-- What is left of a call after a step. -/
def settle (w : Traffic) (i : Nat) : Next Nat × Yard → Traffic
  | (.ended _, yard) => { w with yard, calls := w.calls.erase i }
  | (.goesOn φ, yard) => { w with yard, calls := w.calls.insert i φ }

def step (P : Participant) (w : Traffic) : Step → Traffic
  | .invoke call => { w with calls := w.calls.insert w.made call.phase, made := w.made + 1 }
  | .advance i a =>
    match w.calls.get? i with
    | none => w
    | some φ => w.settle i (w.yard.advance P i a φ)

def run (P : Participant) (w : Traffic) (steps : List Step) : Traffic := steps.foldl (step P) w

end Traffic

/-! ## Sessions in hand -/

namespace Phase

variable {κ : Type}

/-- The session that a call has in hand. -/
def session? : Phase κ → Option (Session κ)
  | start _ | take _ _ => none
  | insert s | check _ s | send _ s _ _ | put _ s | drop _ s _ => some s

/-- The connection that a call has in hand. -/
def loan? (φ : Phase κ) : Option κ := φ.session?.bind (·.connection)

/-- Whether a call has a session in hand that it took out for good. -/
def settles : Phase κ → Bool
  | check m _ | send m _ _ _ | put m _ | drop m _ _ => m.settles
  | _ => false

/-- The session in hand can be driven, and its statements go over its connection. -/
inductive Fit : Phase κ → Prop
  | start {xid : Bytes} : Fit (.start xid)
  | take {xid : Bytes} {m : Task} : Fit (.take xid m)
  | insert {s : Session κ} (hs : s.Live) : Fit (.insert s)
  | check {m : Task} {s : Session κ} (hs : s.Live) : Fit (.check m s)
  | send {m : Task} {s : Session κ} {c : κ} {left : List Bytes} (hs : s.Live)
      (hc : s.connection = some c) : Fit (.send m s c left)
  | put {m : Task} {s : Session κ} (hs : s.Live) (hm : m.settles = false) : Fit (.put m s)
  | drop {m : Task} {s : Session κ} {f : Fault} (hs : s.Live) : Fit (.drop m s f)

end Phase

namespace Next

variable {κ : Type}

/-- The phase of a call after a step, unless the step was its last. -/
def phase? : Next κ → Option (Phase κ)
  | ended _ => none
  | goesOn φ => some φ

/-- The connection that a call has in hand after a step. -/
def loan? (n : Next κ) : Option κ := n.phase?.bind Phase.loan?

@[simp] theorem loan?_ended (e : Except Fault Unit) : (ended e : Next κ).loan? = none := rfl

end Next

/-! ## What a step can do -/

/-- What a step of a call makes of what is shared. -/
inductive Effect (i : Nat) (φ : Phase Nat) (y : Yard) : Next Nat → Yard → Prop
  /-- Nothing was there to be had. -/
  | refused (e : Except Fault Unit) (hφ : φ.loan? = none) : Effect i φ y (.ended e) y
  /-- A branch could not be started, and its connection went back. -/
  | wasted (e : Except Fault Unit) (sql : Bytes) (hφ : φ.loan? = none) :
      Effect i φ y (.ended e) { y with
        lent := y.lent + 1, closed := y.lent :: y.closed, log := .sent i y.lent sql :: y.log }
  /-- A branch was started. -/
  | started (s : Session Nat) (sql : Bytes) (hφ : φ.loan? = none) (hs : s.Live)
      (hc : s.connection = some y.lent) :
      Effect i φ y (.goesOn (.insert s)) { y with
        lent := y.lent + 1, log := .sent i y.lent sql :: y.log }
  /-- The session in hand was registered. -/
  | filed (e : Except Fault Unit) (s : Session Nat) (hφ : φ.session? = some s) (hs : s.Live)
      (hm : φ.settles = false) (hfree : y.registry.get? s.xid = none) :
      Effect i φ y (.ended e) { y with registry := y.registry.insert s.xid s }
  /-- A session was taken out. -/
  | took (x : Bytes) (s : Session Nat) (c : Nat) (m : Task) (hφ : φ.loan? = none)
      (hs : s.Live) (hx : y.registry.get? x = some s) (hc : s.connection = some c) :
      Effect i φ y (.goesOn (.check m s)) { y with
        registry := y.registry.erase x, log := .took i c m :: y.log }
  /-- The call went on with its session, and may have sent a statement for it. -/
  | wentOn (ψ : Phase Nat) (c : Nat) (sqls : List Bytes) (hφ : φ.loan? = some c) (hψ : ψ.Fit)
      (hc : ψ.loan? = some c) (hm : φ.settles = true → ψ.settles = true) :
      Effect i φ y (.goesOn ψ) { y with log := sqls.map (.sent i c) ++ y.log }
  /-- The connection in hand went back. -/
  | closed (e : Except Fault Unit) (c : Nat) (hφ : φ.loan? = some c) :
      Effect i φ y (.ended e) { y with closed := c :: y.closed }

section Effect
variable {P : Participant} {i : Nat} {a : Answer} {φ : Phase Nat} {y y' : Yard} {next : Next Nat}
  {s : Session Nat} {x : Bytes} {c : Nat} {m : Task} {f : Fault}

theorem advance_eq (h : (Yard.site P i a).advance φ y = (next, y')) : y.advance P i a φ =
    (next, { y' with log := Yard.taking i φ next ++ y'.log }) := by rw [Yard.advance, h]

/-- A started session holds the connection lent for it, which goes back if the start fails. -/
theorem start_run : (P.start (Yard.gateway i a) x).run y =
    match P.dialect.start x, a.lend, a.statement with
    | .error q, _, _ => (.error q.fault, y)
    | .ok _, .error f, _ => (.error f, y)
    | .ok sql, .ok (), .error f => (.error f, { y with
        lent := y.lent + 1, closed := y.lent :: y.closed, log := .sent i y.lent sql :: y.log })
    | .ok sql, .ok (), .ok () => (.ok ⟨x, some y.lent, .started⟩, { y with
        lent := y.lent + 1, log := .sent i y.lent sql :: y.log }) := by
  unfold Participant.start Participant.statement
  rw [Action.run_bind, Action.run_ofExcept]
  cases P.dialect.start x with
  | error q => rfl
  | ok sql =>
    obtain ⟨lend, statement⟩ := a
    cases lend with
    | error f => rfl
    | ok u => cases statement <;> rfl

theorem start_effect :
    Effect i (.start x) y (y.advance P i a (.start x)).1 (y.advance P i a (.start x)).2 := by
  rw [Yard.advance, Site.advance, Yard.site, start_run]
  cases P.dialect.start x with
  | error q => exact .refused _ rfl
  | ok sql =>
    obtain ⟨lend, statement⟩ := a
    cases lend with
    | error f => exact .refused _ rfl
    | ok u =>
      cases statement with
      | error f => exact .wasted _ sql rfl
      | ok u' => exact .started _ sql rfl ⟨rfl, .inl rfl⟩ rfl

/-- After the last statement, the session moves on or its connection goes back. -/
theorem conclude_effect (hs : s.Live) (hc : s.connection = some c) :
    Effect i (.send m s c []) y ((Yard.site P i a).conclude m s c y).1
      ((Yard.site P i a).conclude m s c y).2 := by
  cases m with
  | finish => exact .wentOn _ c [] hc (.put ⟨hs.1, .inr (.inl rfl)⟩ rfl) hc nofun
  | prepare => exact .wentOn _ c [] hc (.put ⟨hs.1, .inr (.inr rfl)⟩ rfl) hc nofun
  | commit | rollback | undo => exact .closed _ c hc

/-- A session that is dropped gives its connection back. -/
theorem giveUp_effect (hc : s.connection = some c) :
    Effect i (.drop m s f) y ((Yard.site P i a).giveUp m s f y).1
      ((Yard.site P i a).giveUp m s f y).2 := by
  have hdrop : s.drop (Yard.gateway i a).toKeeper y = { y with closed := c :: y.closed } := by
    rw [Session.drop, hc]
    rfl
  have hclosed (e : Except Fault Unit) :
      Effect i (.drop m s f) y (.ended e) (s.drop (Yard.gateway i a).toKeeper y) := by
    rw [hdrop]
    exact .closed e c hc
  cases m with
  | finish | prepare | commit | rollback | undo => exact hclosed _

theorem take_effect (hy : y.registry.InOrder) :
    Effect i (.take x m) y (y.advance P i a (.take x m)).1 (y.advance P i a (.take x m)).2 := by
  cases ht : y.registry.take x m.required with
  | error f =>
    have hstep : (Yard.site P i a).advance (.take x m) y = (.ended (.error f), y) := by
      rw [Site.advance, Yard.site, Yard.registryCell, ht]
    rw [advance_eq hstep]
    exact .refused _ rfl
  | ok found =>
    obtain ⟨s, rest⟩ := found
    obtain ⟨hx, rfl⟩ := take_eq_ok ht
    obtain ⟨c, hc⟩ := (hy x s hx).2.connected
    have hstep : (Yard.site P i a).advance (.take x m) y =
        (.goesOn (.check m s), { y with registry := y.registry.erase x }) := by
      rw [Site.advance, Yard.site, Yard.registryCell, ht]
    rw [advance_eq hstep, Yard.taking, hc]
    exact .took x s c m rfl (hy x s hx).2 hx hc

/-- A session in hand is registered if its xid has none, and else the call goes on with it. -/
theorem register_effect (ψ : Phase Nat) (hφ : φ.session? = some s) (hs : s.Live)
    (hm : φ.settles = false) (hψ : ψ.Fit) (hsame : ψ.session? = some s)
    (htaking : ∀ next, Yard.taking i φ next = [])
    (hfull : y.registry.insert? s = none → (Yard.site P i a).advance φ y = (.goesOn ψ, y))
    (hroom : ∀ registry, y.registry.insert? s = some registry →
      (Yard.site P i a).advance φ y = (.ended (.ok ()), { y with registry })) :
    Effect i φ y (y.advance P i a φ).1 (y.advance P i a φ).2 := by
  obtain ⟨c, hc⟩ := hs.connected
  have hloan : φ.loan? = some c := by rw [Phase.loan?, hφ]; exact hc
  have hloan' : ψ.loan? = some c := by rw [Phase.loan?, hsame]; exact hc
  cases hi : y.registry.insert? s with
  | none =>
    rw [advance_eq (hfull hi), htaking]
    exact .wentOn ψ c [] hloan hψ hloan' fun h => absurd (hm.symm.trans h) Bool.false_ne_true
  | some registry =>
    obtain ⟨hfree, rfl⟩ := insert?_eq_some hi
    rw [advance_eq (hroom _ hi), htaking]
    exact .filed _ s hφ hs hm hfree

theorem insert_effect (hs : s.Live) :
    Effect i (.insert s) y (y.advance P i a (.insert s)).1 (y.advance P i a (.insert s)).2 := by
  refine register_effect (.check .undo s) rfl hs rfl (.check hs) rfl (fun _ => rfl)
    (fun hi => ?_) fun registry hi => ?_
  · rw [Site.advance, Yard.site, Yard.registryCell, hi]
    rfl
  · rw [Site.advance, Yard.site, Yard.registryCell, hi]

theorem put_effect (hs : s.Live) (hm : m.settles = false) :
    Effect i (.put m s) y (y.advance P i a (.put m s)).1 (y.advance P i a (.put m s)).2 := by
  refine register_effect (.drop m s overtaken) rfl hs hm (.drop hs) rfl (fun _ => rfl)
    (fun hi => ?_) fun registry hi => ?_
  · rw [Site.advance, Yard.site, Yard.registryCell, hi]
    rfl
  · rw [Site.advance, Yard.site, Yard.registryCell, hi]

theorem check_effect (hs : s.Live) :
    Effect i (.check m s) y (y.advance P i a (.check m s)).1 (y.advance P i a (.check m s)).2 := by
  obtain ⟨c, hc⟩ := hs.connected
  cases hp : m.drive.plan P s with
  | error f =>
    have hstep : (Yard.site P i a).advance (.check m s) y = (.goesOn (.drop m s f), y) := by
      rw [Site.advance, Yard.site, hp]
    rw [advance_eq hstep]
    exact .wentOn _ c [] hc (.drop hs) hc id
  | ok found =>
    obtain ⟨c', sqls⟩ := found
    have hstep : (Yard.site P i a).advance (.check m s) y = (.goesOn (.send m s c' sqls), y) := by
      rw [Site.advance, Yard.site, hp]
    rw [advance_eq hstep]
    exact .wentOn _ c [] hc (.send hs (Drive.connection_of_plan hp)) hc id

theorem send_effect {left : List Bytes} (hs : s.Live) (hc : s.connection = some c) :
    Effect i (.send m s c left) y (y.advance P i a (.send m s c left)).1
      (y.advance P i a (.send m s c left)).2 := by
  cases left with
  | nil => exact conclude_effect hs hc
  | cons sql left =>
    obtain ⟨lend, statement⟩ := a
    cases statement with
    | error f => exact .wentOn (.drop m s f) c [sql] hc (.drop hs) hc id
    | ok u => exact .wentOn (.send m s c left) c [sql] hc (.send hs hc) hc id

/-- **All a step can do.** -/
theorem effect_advance (hφ : φ.Fit) (hy : y.registry.InOrder) :
    Effect i φ y (y.advance P i a φ).1 (y.advance P i a φ).2 := by
  cases hφ with
  | start => exact start_effect
  | take => exact take_effect hy
  | insert hs => exact insert_effect hs
  | check hs => exact check_effect hs
  | send hs hc => exact send_effect hs hc
  | put hs hm => exact put_effect hs hm
  | drop hs =>
    obtain ⟨c, hc⟩ := hs.connected
    exact giveUp_effect hc

end Effect

end Registry
end Coordinator

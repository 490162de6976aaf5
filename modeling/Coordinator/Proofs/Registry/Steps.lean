import Coordinator.Registry
import Coordinator.Proofs.Contract
import Coordinator.Proofs.Drive
import Coordinator.Proofs.Table

/-! # The calls of a registry, step by step

A call of a registry shares the registry and its connections with other calls, and between the
moments at which it touches them it may keep a session in hand.  A **phase** (`Phase`) is where a
call stands between two such moments, and a **step** (`Site.advance`) takes it to the next phase or
to its end.  Each step does one thing to what is shared: it starts a branch, takes a session out or
puts one in, sends one statement, gives a connection back.  Between any two steps, others may take
theirs.

The steps are those of the operations: a call whose steps follow each other with nothing in between
ends as the operation does (`Call.alone`), its faults and its records included, and in no other way
(`Alone.unique`). -/
namespace Coordinator.Registry

variable {σ κ : Type}

/-- What a call does with a session in hand. -/
inductive Task
  | finish
  | prepare
  | commit
  | rollback
  /-- Rolls back a new branch whose xid had a session already. -/
  | undo
deriving DecidableEq, Repr

namespace Task

def drive : Task → Drive
  | finish => .finish
  | prepare => .prepare
  | commit => .commit
  | rollback | undo => .rollback

/-- The state in which a session is taken out for the task, where that matters. -/
def required : Task → Option Xa.State
  | finish => some .started
  | prepare => some .ended
  | commit => some .prepared
  | rollback | undo => none

/-- Whether a session that is taken out for the task never comes back. -/
def settles : Task → Bool
  | commit | rollback => true
  | _ => false

end Task

/-- Where a call stands between two steps. -/
inductive Phase (κ : Type)
  /-- A branch is to be started. -/
  | start (xid : Bytes)
  /-- A new session is to be registered. -/
  | insert (s : Session κ)
  /-- A session is to be taken out. -/
  | take (xid : Bytes) (m : Task)
  /-- The session in hand is to be checked. -/
  | check (m : Task) (s : Session κ)
  /-- Statements are left to send for the session. -/
  | send (m : Task) (s : Session κ) (c : κ) (left : List Bytes)
  /-- The session is to be put back. -/
  | put (m : Task) (s : Session κ)
  /-- The session is to be dropped, after a fault. -/
  | drop (m : Task) (s : Session κ) (f : Fault)

/-- What comes after a step. -/
inductive Next (κ : Type)
  | ended (result : Except Fault Unit)
  | goesOn (φ : Phase κ)

/-- The fault of a call whose xid has a session already. -/
def duplicate : Fault := .of .protocol [ascii "xid already has an active XA session"]

/-- The fault of a call whose xid got another session while it had the session in hand. -/
def overtaken : Fault :=
  .of .protocol [ascii "xid was registered again while its XA session was in flight"]

namespace Site

/-- The step after the last statement. -/
def conclude (r : Site σ κ) (m : Task) (s : Session κ) (c : κ) (t : σ) : Next κ × σ :=
  match m with
  | .finish => (.goesOn (.put m { s with state := .ended }),
      r.gateway.log (r.participant.doneRecord .debug "XA branch ended" s.xid) t)
  | .prepare => (.goesOn (.put m { s with state := .prepared }),
      r.gateway.log (r.participant.doneRecord .debug "XA branch prepared" s.xid) t)
  | .commit => (.ended (.ok ()), r.gateway.log
      (r.participant.doneRecord .debug "XA branch committed" s.xid) (r.gateway.release c t))
  | .rollback => (.ended (.ok ()),
      r.gateway.log (r.participant.rolledBackRecord s) (r.gateway.release c t))
  | .undo => (.ended (.error duplicate),
      r.gateway.log (r.participant.rolledBackRecord s) (r.gateway.release c t))

/-- The step that drops a session. -/
def giveUp (r : Site σ κ) (m : Task) (s : Session κ) (f : Fault) (t : σ) : Next κ × σ :=
  match m with
  | .undo => (.ended (.error duplicate),
      r.gateway.log (r.record "Rollback of duplicate branch failed" s.xid
        [.ofText (ascii "error") f.message]) (s.drop r.gateway.toKeeper t))
  | _ => (.ended (.error f), s.drop r.gateway.toKeeper t)

/-- One step of a call. -/
def advance (r : Site σ κ) (φ : Phase κ) (t : σ) : Next κ × σ :=
  match φ with
  | .start xid =>
    match (r.participant.start r.gateway xid).run t with
    | (.ok s, t) => (.goesOn (.insert s), t)
    | (.error f, t) => (.ended (.error f), t)
  | .insert s =>
    match (r.registry.get t).insert? s with
    | some registry => (.ended (.ok ()), r.registry.set registry t)
    | none => (.goesOn (.check .undo s), r.gateway.log (r.record
        "Duplicate begin for a registered xid; rolling back the new branch" s.xid []) t)
  | .take xid m =>
    match (r.registry.get t).take xid m.required with
    | .ok (s, rest) => (.goesOn (.check m s), r.registry.set rest t)
    | .error f => (.ended (.error f), t)
  | .check m s =>
    match m.drive.plan r.participant s with
    | .ok (c, sqls) => (.goesOn (.send m s c sqls), t)
    | .error f => (.goesOn (.drop m s f), t)
  | .send m s c (sql :: left) =>
    match (r.participant.send r.gateway c m.drive.name s.xid sql).run t with
    | (.ok (), t) => (.goesOn (.send m s c left), t)
    | (.error f, t) => (.goesOn (.drop m s f), t)
  | .send m s c [] => r.conclude m s c t
  | .put m s =>
    match (r.registry.get t).insert? s with
    | some registry => (.ended (.ok ()), r.registry.set registry t)
    | none => (.goesOn (.drop m s overtaken), r.gateway.log (r.record
        "XA session could not be re-registered; xid was taken while it was in flight" s.xid
        [.ofText (ascii "state") s.state.name]) t)
  | .drop m s f => r.giveUp m s f t

end Site

/-- A call that goes on from a phase with nothing in between ends so. -/
inductive Alone (r : Site σ κ) : Phase κ → σ → Except Fault Unit × σ → Prop
  | ends {φ : Phase κ} {t u : σ} {e : Except Fault Unit} (h : r.advance φ t = (.ended e, u)) :
      Alone r φ t (e, u)
  | goesOn {φ ψ : Phase κ} {t u : σ} {a : Except Fault Unit × σ}
      (h : r.advance φ t = (.goesOn ψ, u)) (ha : Alone r ψ u a) : Alone r φ t a

/-- A call of a registry. -/
inductive Call
  | start (xid : Bytes)
  | finish (xid : Bytes)
  | prepare (xid : Bytes)
  | commit (xid : Bytes)
  | rollback (xid : Bytes)
deriving DecidableEq, Repr

/-- The phase in which a call begins. -/
def Call.phase : Call → Phase κ
  | start xid => .start xid
  | finish xid => .take xid .finish
  | prepare xid => .take xid .prepare
  | commit xid => .take xid .commit
  | rollback xid => .take xid .rollback

/-- The operation that a call asks for. -/
def Call.run (r : Site σ κ) : Call → Action σ Unit
  | start xid => r.start xid
  | finish xid => r.finish xid
  | prepare xid => r.prepare xid
  | commit xid => r.commit xid
  | rollback xid => r.rollback xid

/-! ## Steps with nothing in between -/

variable {r : Site σ κ} {φ : Phase κ} {t : σ} {a b : Except Fault Unit × σ} {m : Task}
  {s : Session κ} {c : κ} {sqls : List Bytes} {x : Bytes} {state' : Xa.State}

/-- A step leads to one place only, so a call that is left alone has one end. -/
theorem Alone.unique (ha : Alone r φ t a) (hb : Alone r φ t b) : a = b := by
  induction ha with
  | ends h =>
    cases hb with
    | ends h' => rw [h] at h'; cases h'; rfl
    | goesOn h' hb => rw [h] at h'; cases h'
  | goesOn h ha ih =>
    cases hb with
    | ends h' => rw [h] at h'; cases h'
    | goesOn h' hb => rw [h] at h'; cases h'; exact ih hb

/-- The statements are sent one a step; the first that fails makes the call drop its session. -/
theorem Alone.send
    (h : match (Action.forEach (r.participant.send r.gateway c m.drive.name s.xid) sqls).run t with
      | (.ok (), u) => Alone r (.send m s c []) u a
      | (.error f, u) => Alone r (.drop m s f) u a) : Alone r (.send m s c sqls) t a := by
  induction sqls generalizing t with
  | nil => exact h
  | cons sql left ih =>
    rw [Action.forEach, Action.run_bind] at h
    rcases hr : (r.participant.send r.gateway c m.drive.name s.xid sql).run t with ⟨f | u, t'⟩
    · rw [hr] at h
      exact .goesOn (by rw [Site.advance, hr]) h
    · rw [hr] at h
      exact .goesOn (by rw [Site.advance, hr]) (ih h)

/-- A session in hand is checked, and its statements are sent. -/
theorem Alone.check
    (h : match (m.drive.perform r.participant r.gateway s).run t with
      | (.ok c, u) => Alone r (.send m s c []) u a
      | (.error f, u) => Alone r (.drop m s f) u a) : Alone r (.check m s) t a := by
  unfold Drive.perform at h
  rcases hp : m.drive.plan r.participant s with f | ⟨c, sqls⟩
  · rw [hp] at h
    exact .goesOn (by rw [Site.advance, hp]) h
  · rw [hp, Action.run_bind, Action.run_ofExcept] at h
    refine .goesOn (by rw [Site.advance, hp]) (.send ?_)
    dsimp only at h
    rw [Action.run_bind] at h
    rcases hs : (Action.forEach (r.participant.send r.gateway c m.drive.name s.xid) sqls).run t
      with ⟨f | u, t'⟩
    · rw [hs] at h
      exact h
    · rw [hs] at h
      exact h

/-! ## Taking out and putting in -/

theorem take_eq_ok {reg reg' : Registry κ} {required : Option Xa.State}
    (h : reg.take x required = .ok (s, reg')) : reg.get? x = some s ∧ reg' = reg.erase x := by
  unfold take at h
  split at h
  · cases h
  · next s' hs =>
    split at h
    · cases h; exact ⟨hs, rfl⟩
    · split at h
      · cases h; exact ⟨hs, rfl⟩
      · cases h

theorem insert?_eq_some {reg reg' : Registry κ} (h : reg.insert? s = some reg') :
    reg.get? s.xid = none ∧ reg' = reg.insert s.xid s := by
  unfold insert? at h
  split at h
  · cases h
  · next hc => cases h; exact ⟨(Table.contains_eq_false_iff _ _).mp (Bool.not_eq_true _ ▸ hc), rfl⟩

theorem take_run (required : Option Xa.State) : (r.take x required).run t =
    match (r.registry.get t).take x required with
    | .ok (s, rest) => (.ok s, r.registry.set rest t)
    | .error f => (.error f, t) := by
  unfold Site.take
  rw [Action.run_bind, Action.run_read]
  dsimp only
  rw [Action.run_bind, Action.run_ofExcept]
  cases (r.registry.get t).take x required <;> rfl

theorem insert_run : (r.insert s).run t =
    match (r.registry.get t).insert? s with
    | some registry => (.ok true, r.registry.set registry t)
    | none => (.ok false, t) := rfl

/-! ## The operations -/

/-- An operation that consumes a session, within a call that makes `k` of its end. -/
theorem Alone.consume {finish : κ → σ → σ} {k : Except Fault Unit × σ → Except Fault Unit × σ}
    (hok : ∀ c u, Alone r (.send m s c []) u (k (.ok (), finish c u)))
    (hbad : ∀ f u, Alone r (.drop m s f) u (k (.error f, s.drop r.gateway.toKeeper u)))
    {y : Action σ Unit} (hy : y = Participant.consuming r.gateway s (do
      let c ← m.drive.perform r.participant r.gateway s
      .update (finish c))) : Alone r (.check m s) t (k (y.run t)) := by
  refine .check ?_
  rw [hy, Participant.consuming, Action.run_onFailure, Action.run_bind]
  rcases (m.drive.perform r.participant r.gateway s).run t with ⟨f | c, u⟩
  · exact hbad f u
  · exact hok c u

theorem commit_alone : Alone r (.check .commit s) t ((r.participant.commit r.gateway s).run t) :=
  .consume (k := id) (fun _ _ => .ends rfl) (fun _ _ => .ends rfl) Participant.commit_eq

theorem rollback_alone :
    Alone r (.check .rollback s) t ((r.participant.rollback r.gateway s).run t) :=
  .consume (k := id) (fun _ _ => .ends rfl) (fun _ _ => .ends rfl) Participant.rollback_eq

/-- A call other than one that undoes a start fails with the fault that made it drop its session. -/
theorem drop_alone {f : Fault} (hm : m ≠ .undo) :
    Alone r (.drop m s f) t (.error f, s.drop r.gateway.toKeeper t) := by
  cases m with
  | undo => exact absurd rfl hm
  | finish | prepare | commit | rollback => exact .ends rfl

/-- A session that is put back is registered, or dropped if there is no room. -/
theorem putBack_alone (hm : m ≠ .undo) : Alone r (.put m s) t ((r.putBack s).run t) := by
  unfold Site.putBack
  rw [Action.run_bind, insert_run]
  cases hi : (r.registry.get t).insert? s with
  | some registry => exact .ends (by rw [Site.advance, hi])
  | none =>
    exact .goesOn (by rw [Site.advance, hi]; rfl) (drop_alone hm)

/-- A call that drives a session in place takes it out, drives it and puts it back. -/
theorem drive_alone {before after : Xa.State} {message : String}
    {operation : Action (Session κ × σ) Unit} (hm : m ≠ .undo) (hbefore : m.required = some before)
    (hend : ∀ s c t, r.conclude m s c t = (.goesOn (.put m { s with state := after }),
      r.gateway.log (r.participant.doneRecord .debug message s.xid) t))
    (hop : ∀ s, Participant.onHeld r.gateway s operation = (do
      let _ ← (m.drive.perform r.participant r.gateway s).onFailure fun _ =>
        s.drop r.gateway.toKeeper
      .update (r.gateway.log (r.participant.doneRecord .debug message s.xid))
      return { s with state := after } : Action σ (Session κ))) :
    Alone r (.take x m) t ((r.drive x before operation).run t) := by
  have hdrive : r.drive x before operation = (do
      let s ← r.take x (some before)
      let s ← Participant.onHeld r.gateway s operation
      r.putBack s) := rfl
  rw [hdrive, Action.run_bind, take_run]
  cases ht : (r.registry.get t).take x (some before) with
  | error f => exact .ends (by rw [Site.advance, hbefore, ht])
  | ok found =>
    obtain ⟨s, rest⟩ := found
    refine .goesOn (by rw [Site.advance, hbefore, ht]) (.check ?_)
    dsimp only
    rw [Action.run_bind, hop, Action.run_bind, Action.run_onFailure]
    rcases (m.drive.perform r.participant r.gateway s).run (r.registry.set rest t) with ⟨f | c, u⟩
    · exact drop_alone hm
    · exact .goesOn (hend s c u) (putBack_alone hm)

/-- A call that settles a session takes it out first. -/
theorem settle_alone {operation : Session κ → Action σ Unit}
    (hop : ∀ s t, Alone r (.check m s) t ((operation s).run t)) :
    Alone r (.take x m) t ((do operation (← r.take x m.required) : Action σ Unit).run t) := by
  rw [Action.run_bind, take_run]
  cases ht : (r.registry.get t).take x m.required with
  | error f => exact .ends (by rw [Site.advance, ht])
  | ok found => exact .goesOn (by rw [Site.advance, ht]) (hop found.1 _)

theorem start_xid {P : Participant} {g : Gateway σ κ} {u : σ}
    (h : (P.start g x).run t = (.ok s, u)) : s.xid = x := by
  have hlast : (P.start g x).Meets (fun _ => True) (fun s _ => s.xid = x) fun _ _ => True :=
    .last fun _ => .last fun _ => .last fun _ => .last fun _ => .pure fun _ _ => rfl
  exact hlast.ok_of_run trivial h

/-- Whatever becomes of the branch that is rolled back, the call fails. -/
theorem undo_alone : Alone r (.check .undo s) t
    (match (r.participant.rollback r.gateway s).run t with
      | (.ok (), u) => (.error duplicate, u)
      | (.error f, u) => (.error duplicate, r.gateway.log (r.record
          "Rollback of duplicate branch failed" s.xid [.ofText (ascii "error") f.message]) u)) :=
  .consume (k := fun a => match a with
      | (.ok (), u) => (.error duplicate, u)
      | (.error f, u) => (.error duplicate, r.gateway.log (r.record
          "Rollback of duplicate branch failed" s.xid [.ofText (ascii "error") f.message]) u))
    (fun _ _ => .ends rfl) (fun _ _ => .ends rfl) Participant.rollback_eq

/-- A new branch is registered, or rolled back if its xid has a session. -/
theorem start_alone : Alone r (.start x) t ((r.start x).run t) := by
  unfold Site.start
  rw [Action.run_bind]
  rcases hs : (r.participant.start r.gateway x).run t with ⟨f | s, t'⟩
  · exact .ends (by rw [Site.advance, hs])
  refine .goesOn (by rw [Site.advance, hs]) ?_
  dsimp only
  rw [Action.run_bind, insert_run]
  cases hi : (r.registry.get t').insert? s with
  | some registry => exact .ends (by rw [Site.advance, hi])
  | none =>
    obtain rfl := start_xid hs
    refine .goesOn (by rw [Site.advance, hi]) ?_
    refine Eq.mp (congrArg (Alone r _ _) ?_) undo_alone
    dsimp only
    rw [if_pos Bool.not_false, Action.run_bind, Action.run_update]
    dsimp only
    rw [Action.run_bind, Action.run_attempt]
    rcases (r.participant.rollback r.gateway s).run _ with ⟨f | u, u'⟩ <;> rfl

/-- **The steps are those of the operations.**  A call whose steps follow each other with nothing in
between ends as the operation does. -/
theorem Call.alone (r : Site σ κ) (call : Call) (t : σ) :
    Alone r call.phase t ((call.run r).run t) := by
  cases call with
  | start xid => exact start_alone
  | finish xid =>
    exact drive_alone nofun rfl (fun _ _ _ => rfl) fun _ => Participant.onHeld_finish
  | prepare xid =>
    exact drive_alone nofun rfl (fun _ _ _ => rfl) fun _ => Participant.onHeld_prepare
  | commit xid => exact settle_alone fun _ _ => commit_alone
  | rollback xid => exact settle_alone fun _ _ => rollback_alone

end Coordinator.Registry

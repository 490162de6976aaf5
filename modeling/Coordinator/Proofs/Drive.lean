import Coordinator.Participant

/-! # Operations that drive a session

The operations with which a participant drives a session are all of one kind (`Drive`): the session
is checked, and if it passes, a list of statements is sent for it, one after the other until one
fails (`Drive.perform`).  What is done then depends on the operation: a session that is consumed
gives its connection back (`Participant.commit_eq` and those after it), one that is driven in place
moves on (`Participant.onHeld_finish`, `Participant.onHeld_prepare`), and **a session that an
operation fails on is dropped**, at whatever point it failed. -/
namespace Coordinator

variable {σ κ : Type}

/-! ## What a check lets pass -/

theorem Session.expect_eq_ok {s : Session κ} {state : Xa.State} {operation : Bytes}
    {l : κ} (hl : s.expect state operation = .ok l) : s.connection = some l ∧ s.state = state := by
  unfold Session.expect at hl
  split at hl
  · cases hl
  · next c hc =>
    split at hl
    · next hstate => cases hl; exact ⟨hc, hstate⟩
    · cases hl

theorem Participant.expectRollback_eq_ok {P : Participant} {s : Session κ} {l : κ}
    (hl : P.expectRollback s = .ok l) : s.connection = some l ∧
      (s.state = .prepared ∨ s.state = .started ∨ s.state = .ended) := by
  unfold Participant.expectRollback at hl
  split at hl
  · cases hl
  · next c hc =>
    simp only at hl
    split at hl
    · next hstate => cases hl; exact ⟨hc, hstate.imp_right And.left⟩
    · cases hl

/-! ## One kind of operation -/

/-- An operation with which a participant drives a session. -/
inductive Drive
  | finish
  | prepare
  | commit
  | commitOnePhase
  | rollback
deriving DecidableEq, Repr

namespace Drive

/-- The name of the operation in faults and records. -/
def name : Drive → Bytes
  | finish => ascii "end"
  | prepare => ascii "prepare"
  | commit => ascii "commit"
  | commitOnePhase => ascii "commit_one_phase"
  | rollback => ascii "rollback"

/-- What the operation checks before it sends a statement. -/
def check (P : Participant) (s : Session κ) : Drive → Except Fault κ
  | finish => s.expect .started finish.name
  | prepare => s.expect .ended prepare.name
  | commit => s.expect .prepared commit.name
  | commitOnePhase => s.expect .ended commitOnePhase.name
  | rollback => P.expectRollback s

theorem connection_of_check {P : Participant} {s : Session κ} {d : Drive} {c : κ}
    (h : d.check P s = .ok c) : s.connection = some c := by
  cases d with
  | finish | prepare | commit | commitOnePhase => exact (Session.expect_eq_ok h).1
  | rollback => exact (Participant.expectRollback_eq_ok h).1

/-- The statements that the operation sends, in order. -/
def statements (d : Xa.Dialect) (s : Session κ) : Drive → Except Xa.Xid.QuoteFault (List Bytes)
  | finish => (d.finish s.xid).map fun sql => if sql = [] then [] else [sql]
  | prepare => (d.prepare s.xid).map ([·])
  | commit => (d.commit s.xid).map ([·])
  | commitOnePhase => (d.commitOnePhase s.xid).map ([·])
  | rollback => d.rollback s.xid s.state

/-- The connection and the statements of an operation that the session passes. -/
def plan (P : Participant) (s : Session κ) (d : Drive) : Except Fault (κ × List Bytes) := do
  let c ← d.check P s
  let sqls ← (d.statements P.dialect s).mapError Xa.Xid.QuoteFault.fault
  return (c, sqls)

theorem plan_eq_ok {P : Participant} {s : Session κ} {d : Drive} {c : κ} {sqls : List Bytes}
    (h : d.plan P s = .ok (c, sqls)) :
    d.check P s = .ok c ∧ d.statements P.dialect s = .ok sqls := by
  unfold plan at h
  cases hc : d.check P s with
  | error f => rw [hc] at h; cases h
  | ok c' =>
    rw [hc] at h
    cases hs : d.statements P.dialect s with
    | error f => rw [hs] at h; cases h
    | ok sqls' => rw [hs] at h; cases h; exact ⟨rfl, rfl⟩

theorem connection_of_plan {P : Participant} {s : Session κ} {d : Drive} {c : κ}
    {sqls : List Bytes} (h : d.plan P s = .ok (c, sqls)) : s.connection = some c :=
  connection_of_check (plan_eq_ok h).1

/-- Checks the session, sends the statements, and tells the connection. -/
def perform (P : Participant) (g : Gateway σ κ) (s : Session κ) (d : Drive) : Action σ κ := do
  let (c, sqls) ← .ofExcept (d.plan P s)
  .forEach (P.send g c d.name s.xid) sqls
  return c

theorem perform_eq (P : Participant) (g : Gateway σ κ) (s : Session κ) (d : Drive) :
    d.perform P g s = (do
      let c ← .ofExcept (d.check P s)
      let sqls ← Participant.statement (d.statements P.dialect s)
      .forEach (P.send g c d.name s.xid) sqls
      return c : Action σ κ) := by
  unfold perform plan Participant.statement
  cases d.check P s with
  | error f => rfl
  | ok c => cases d.statements P.dialect s <;> rfl

end Drive

/-! ## The operations of a participant -/

namespace Participant

variable {P : Participant} {g : Gateway σ κ} {s : Session κ} {t : σ}

/-- A statement made of another is there when the other is. -/
theorem statement_map {α β : Type} (f : α → β) (x : Except Xa.Xid.QuoteFault α) :
    (statement (x.map f) : Action σ β) = do return f (← statement x) := by
  cases x <;> rfl

theorem commit_eq : P.commit g s = consuming g s (do
    let c ← Drive.commit.perform P g s
    .update fun t => g.log (P.doneRecord .debug "XA branch committed" s.xid) (g.release c t)) := by
  rw [commit, Drive.perform_eq]
  simp only [Drive.check, Drive.statements, Drive.name, statement_map, Action.forEach, bind_assoc,
    pure_bind]

theorem commitOnePhase_eq : P.commitOnePhase g s = consuming g s (do
    let c ← Drive.commitOnePhase.perform P g s
    .update fun t =>
      g.log (P.doneRecord .debug "XA branch committed in one phase" s.xid) (g.release c t)) := by
  rw [commitOnePhase, Drive.perform_eq]
  simp only [Drive.check, Drive.statements, Drive.name, statement_map, Action.forEach, bind_assoc,
    pure_bind]

theorem rollback_eq : P.rollback g s = consuming g s (do
    let c ← Drive.rollback.perform P g s
    .update fun t => g.log (P.rolledBackRecord s) (g.release c t)) := by
  rw [rollback, Drive.perform_eq]
  simp only [Drive.check, Drive.statements, Drive.name, bind_assoc, pure_bind]

/-! ## Operations in place

An operation in place works on a cell.  On a cell that nothing else reaches, it is a matter of the
session alone: the session moves on, or it is dropped. -/

/-- An operation in place on a session in hand: the session afterwards, dropped after a failure. -/
def onHeld (g : Gateway σ κ) (s : Session κ) (x : Action (Session κ × σ) Unit) :
    Action σ (Session κ) := fun t =>
  match x.run (s, t) with
  | (.ok (), s, t) => (.ok s, t)
  | (.error f, s, t) => (.error f, s.drop g.toKeeper t)

theorem onHeld_run (x : Action (Session κ × σ) Unit) : (onHeld g s x).run t =
    match x.run (s, t) with
    | (.ok (), s, t) => (.ok s, t)
    | (.error f, s, t) => (.error f, s.drop g.toKeeper t) := rfl

theorem drop_within (s : Session κ) (b : Session κ) (t : σ) :
    s.drop (g.within .second).toKeeper (b, t) = (b, s.drop g.toKeeper t) := by
  unfold Session.drop
  cases s.connection <;> rfl

theorem sendInPlace_run (c : κ) (operation sql : Bytes) :
    (P.sendInPlace (g.within .second) .first c operation sql).run (s, t) =
      match (P.send g c operation s.xid sql).run t with
      | (.ok (), t) => (.ok (), s, t)
      | (.error f, t) => (.error f, s.closed, s.drop g.toKeeper t) := by
  have hexecute : ((g.within .second).execute c sql).run (s, t) =
      (((g.execute c sql).run t).1, s, ((g.execute c sql).run t).2) := rfl
  rw [sendInPlace, send, Action.run_onFailure, Action.run_onFailure, hexecute]
  rcases (g.execute c sql).run t with ⟨f | u, t⟩
  · exact congrArg (Prod.mk _) (drop_within s s.closed _)
  · rfl

/-- A session in hand whose statement succeeds moves on; else it is dropped. -/
theorem onHeld_send (c : κ) (operation sql : Bytes) (state : Xa.State) (message : String) :
    onHeld g s (do
      P.sendInPlace (g.within .second) .first c operation sql
      P.moveOn (g.within .second) .first state message) = (do
      (P.send g c operation s.xid sql).onFailure fun _ => s.drop g.toKeeper
      .update (g.log (P.doneRecord .debug message s.xid))
      return { s with state } : Action σ (Session κ)) := by
  refine Action.ext fun t => ?_
  rw [onHeld_run, Action.run_bind, sendInPlace_run, Action.run_bind, Action.run_onFailure]
  rcases (P.send g c operation s.xid sql).run t with ⟨f | u, t⟩ <;> rfl

/-- A single statement that is sent as a list of one. -/
theorem onFailure_forEach_one {α β : Type} (x : α → Action σ Unit) (a : α) (c : κ)
    (cleanUp : Fault → σ → σ) (rest : Action σ β) :
    ((do .forEach x [a]; return c : Action σ κ).onFailure cleanUp >>= fun _ => rest) =
      ((x a).onFailure cleanUp >>= fun _ => rest) := by
  refine Action.ext fun t => ?_
  have hone : (do .forEach x [a]; return c : Action σ κ) = (do x a; return c) := by
    simp only [Action.forEach, bind_assoc, pure_bind]
  rw [hone, Action.run_bind, Action.run_bind, Action.run_onFailure, Action.run_onFailure,
    Action.run_bind]
  rcases (x a).run t with ⟨f | u, t⟩ <;> rfl

/-- An operation in place as one on the session in hand. -/
theorem onHeld_finish : onHeld g s (P.finish (g.within .second) .first) = (do
    let _ ← (Drive.finish.perform P g s).onFailure fun _ => s.drop g.toKeeper
    .update (g.log (P.doneRecord .debug "XA branch ended" s.xid))
    return { s with state := .ended } : Action σ (Session κ)) := by
  rw [Drive.perform_eq]
  show onHeld g s (do
    let c ← .ofExcept (s.expect .started Drive.finish.name)
    let sql ← statement (P.dialect.finish s.xid)
    if sql ≠ [] then P.sendInPlace (g.within .second) .first c Drive.finish.name sql
    P.moveOn (g.within .second) .first .ended "XA branch ended") = _
  cases hc : s.expect .started Drive.finish.name with
  | error f => simp only [Drive.check, hc]; rfl
  | ok c =>
    cases hq : P.dialect.finish s.xid with
    | error f => simp only [Drive.check, hc, Drive.statements, hq]; rfl
    | ok sql =>
      simp only [Drive.check, hc, Drive.statements, hq, Except.map]
      by_cases hsql : sql = []
      · subst hsql
        rfl
      · rw [if_neg hsql]
        refine (congrArg (onHeld g s) (if_pos hsql)).trans ?_
        exact (onHeld_send c _ sql _ _).trans (onFailure_forEach_one _ _ c _ _).symm

theorem onHeld_prepare : onHeld g s (P.prepare (g.within .second) .first) = (do
    let _ ← (Drive.prepare.perform P g s).onFailure fun _ => s.drop g.toKeeper
    .update (g.log (P.doneRecord .debug "XA branch prepared" s.xid))
    return { s with state := .prepared } : Action σ (Session κ)) := by
  rw [Drive.perform_eq]
  show onHeld g s (do
    let c ← .ofExcept (s.expect .ended Drive.prepare.name)
    let sql ← statement (P.dialect.prepare s.xid)
    P.sendInPlace (g.within .second) .first c Drive.prepare.name sql
    P.moveOn (g.within .second) .first .prepared "XA branch prepared") = _
  cases hc : s.expect .ended Drive.prepare.name with
  | error f => simp only [Drive.check, hc]; rfl
  | ok c =>
    cases hq : P.dialect.prepare s.xid with
    | error f => simp only [Drive.check, hc, Drive.statements, hq]; rfl
    | ok sql =>
      simp only [Drive.check, hc, Drive.statements, hq, Except.map]
      exact (onHeld_send c _ sql _ _).trans (onFailure_forEach_one _ _ c _ _).symm

end Participant
end Coordinator

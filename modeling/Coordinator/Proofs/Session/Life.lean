import Coordinator.Proofs.Drive

/-! # The life of a session

A session lives from the start of its branch through any operations of its participant, in any
order, to the moment it is dropped (`Life`).  The gateway is arbitrary, so a statement may be
answered in any way at any time; between two operations anything may happen around the session.
What is sent for it is on record (`Sent`), together with the answers, because the gateway is watched
(`Gateway.watched`); watching disturbs nothing.

All there is to know of a start is `exists_opening`, and of an operation `Drive.exists_course`: it
is refused, or all its statements are sent and answered well, or one is answered badly and is the
last. -/
namespace Coordinator

variable {σ κ : Type}

/-! ## Statements on record -/

/-- A statement that was sent, and the answer to it. -/
structure Sent (κ : Type) where
  connection : κ
  sql : Bytes
  answer : Except Fault Unit

namespace Gateway

/-- The gateway with a record of all that is sent through it, besides the surroundings. -/
def watched (g : Gateway σ κ) : Gateway (σ × List (Sent κ)) κ where
  acquire := Cell.first.run g.acquire
  execute c sql := fun (t, sent) =>
    let (answer, t) := g.execute c sql t
    (answer, t, sent ++ [⟨c, sql, answer⟩])
  query c sql params := fun (t, sent) =>
    let (answer, t) := g.query c sql params t
    (answer, t, sent ++ [⟨c, sql, answer.map fun _ => ()⟩])
  release c := Cell.first.modify (g.release c)
  poison c := Cell.first.modify (g.poison c)
  log r := Cell.first.modify (g.log r)

/-- The answer on record is one that the gateway gives to the statement. -/
def Answers (g : Gateway σ κ) (m : Sent κ) : Prop :=
  ∃ t t', (g.execute m.connection m.sql).run t = (m.answer, t')

/-- A backend that answers statements from a list, and well once the list is used up. -/
def scripted : Gateway (List (Except Fault Unit)) Unit where
  acquire := pure ()
  execute _ _ := fun answers => (answers.headD (.ok ()), answers.tail)
  query _ _ _ := fun answers => ((answers.headD (.ok ())).map fun _ => [], answers.tail)
  release _ := id
  poison _ := id
  log _ := id

/-- The failure of a backend that is gone. -/
def gone : Fault := .of .connection [ascii "gone"]

end Gateway

section Sends
variable {P : Participant} {g : Gateway σ κ} {c : κ} {operation x sql : Bytes} {t : σ}
  {sent : List (Sent κ)}

/-- Statements are sent over a connection one after the other, until one fails: how that ends, and
what was sent. -/
inductive Sends (c : κ) : List Bytes → Except Fault Unit → List (Sent κ) → Prop
  | done : Sends c [] (.ok ()) []
  | failed {sql : Bytes} {rest : List Bytes} {f : Fault} :
      Sends c (sql :: rest) (.error f) [⟨c, sql, .error f⟩]
  | next {sql : Bytes} {rest : List Bytes} {answer : Except Fault Unit} {added : List (Sent κ)}
      (h : Sends c rest answer added) : Sends c (sql :: rest) answer (⟨c, sql, .ok ()⟩ :: added)

/-- The statement that ended it is on record. -/
theorem Sends.mem_of_error {sqls : List Bytes} {f : Fault} {added : List (Sent κ)}
    (h : Sends c sqls (.error f) added) : ∃ m ∈ added, m.answer = .error f := by
  generalize hanswer : (.error f : Except Fault Unit) = answer at h
  induction h with
  | done => cases hanswer
  | failed =>
    cases hanswer
    exact ⟨_, List.mem_singleton_self _, rfl⟩
  | next _ ih =>
    obtain ⟨m, hm, hf⟩ := ih hanswer
    exact ⟨m, List.mem_cons_of_mem _ hm, hf⟩

/-- Where nothing failed, everything was answered well. -/
theorem Sends.answer_of_ok {sqls : List Bytes} {added : List (Sent κ)}
    (h : Sends c sqls (.ok ()) added) : ∀ m ∈ added, m.answer = .ok () := by
  generalize hanswer : (.ok () : Except Fault Unit) = answer at h
  induction h with
  | done => exact fun _ hm => absurd hm List.not_mem_nil
  | failed => cases hanswer
  | next _ ih =>
    intro m hm
    rcases List.mem_cons.mp hm with rfl | hm
    · exact hanswer
    · exact ih hanswer m hm

/-- A single statement is on record with the answer that ended it. -/
theorem Sends.eq_of_one {answer : Except Fault Unit} {added : List (Sent κ)}
    (h : Sends c [sql] answer added) : added = [⟨c, sql, answer⟩] := by
  cases h with
  | failed => rfl
  | next h => cases h; rfl

theorem send_answer :
    ((P.send g c operation x sql).run t).1 = ((g.execute c sql).run t).1 := by
  rw [Participant.send, Action.run_onFailure]
  rcases (g.execute c sql).run t with ⟨f | u, t⟩ <;> rfl

theorem send_watched : (P.send g.watched c operation x sql).run (t, sent) =
    (((P.send g c operation x sql).run t).1, ((P.send g c operation x sql).run t).2,
      sent ++ [⟨c, sql, ((P.send g c operation x sql).run t).1⟩]) := by
  have hexecute : (g.watched.execute c sql).run (t, sent) = (((g.execute c sql).run t).1,
      ((g.execute c sql).run t).2, sent ++ [⟨c, sql, ((g.execute c sql).run t).1⟩]) := rfl
  rw [Participant.send, Participant.send, Action.run_onFailure, Action.run_onFailure, hexecute]
  rcases (g.execute c sql).run t with ⟨f | u, t⟩ <;> rfl

/-- Watched or not, the statements of a list are sent alike. -/
theorem exists_sends (P : Participant) (g : Gateway σ κ) (c : κ) (operation x : Bytes)
    (sqls : List Bytes) (t : σ) : ∃ added,
      Sends c sqls ((Action.forEach (P.send g c operation x) sqls).run t).1 added ∧
      (∀ m ∈ added, g.Answers m) ∧
      ∀ sent, (Action.forEach (P.send g.watched c operation x) sqls).run (t, sent) =
        (((Action.forEach (P.send g c operation x) sqls).run t).1,
          ((Action.forEach (P.send g c operation x) sqls).run t).2, sent ++ added) := by
  induction sqls generalizing t with
  | nil =>
    refine ⟨[], .done, by simp, fun sent => ?_⟩
    rw [List.append_nil]
    rfl
  | cons sql rest ih =>
    have hanswer : g.Answers ⟨c, sql, ((P.send g c operation x sql).run t).1⟩ := by
      rw [send_answer]
      exact ⟨t, _, rfl⟩
    simp only [Action.forEach, Action.run_bind, send_watched]
    rcases hr : (P.send g c operation x sql).run t with ⟨f | u, t'⟩
    · rw [hr] at hanswer
      exact ⟨_, .failed, by simpa using hanswer, fun _ => rfl⟩
    · rw [hr] at hanswer
      obtain ⟨added, hsends, hanswers, hrun⟩ := ih t'
      refine ⟨_, .next hsends, List.forall_mem_cons.mpr ⟨hanswer, hanswers⟩, fun sent => ?_⟩
      simp only [hrun, List.append_assoc, List.singleton_append]

end Sends

/-! ## The operations as callers have them -/

namespace Drive

/-- Whether the caller keeps the session. -/
def inPlace : Drive → Bool
  | finish | prepare => true
  | commit | commitOnePhase | rollback => false

/-- The state that the operation moves a session to. -/
def target : Drive → Xa.State
  | finish => .ended
  | prepare => .prepared
  | commit | commitOnePhase => .committed
  | rollback => .rolledBack

/-- Hands the session over to an operation; the caller is left with what remains of it. -/
def handOver (x : Session κ → Action σ Unit) : Action (Session κ × σ) Unit := fun (s, t) =>
  let (answer, t) := x s t
  (answer, s.handedOver, t)

/-- The operation on the session of a caller. -/
def run (P : Participant) (g : Gateway σ κ) : Drive → Action (Session κ × σ) Unit
  | finish => P.finish (g.within .second) .first
  | prepare => P.prepare (g.within .second) .first
  | commit => handOver (P.commit g)
  | commitOnePhase => handOver (P.commitOnePhase g)
  | rollback => handOver (P.rollback g)

variable {P : Participant} {g : Gateway σ κ} {s s' : Session κ} {t t' : σ} {c : κ} {f : Fault}
  {sqls : List Bytes} {sent sent' added : List (Sent κ)} {answer : Except Fault Unit}

/-- What the caller has once the session moved. -/
def moved (d : Drive) (s : Session κ) : Session κ :=
  if d.inPlace then { s with state := d.target } else s.handedOver

/-- What the caller has if a statement failed. -/
def lost (d : Drive) (s : Session κ) : Session κ := if d.inPlace then s.closed else s.handedOver

/-- What the caller has if the operation did not even send a statement. -/
def refused (d : Drive) (s : Session κ) : Session κ := if d.inPlace then s else s.handedOver

/-- The record about a session that moved. -/
def record (P : Participant) (s : Session κ) : Drive → Journal.Record
  | finish => P.doneRecord .debug "XA branch ended" s.xid
  | prepare => P.doneRecord .debug "XA branch prepared" s.xid
  | commit => P.doneRecord .debug "XA branch committed" s.xid
  | commitOnePhase => P.doneRecord .debug "XA branch committed in one phase" s.xid
  | rollback => P.rolledBackRecord s

/-! ## How an operation goes -/

/-- The surroundings once the session moved. -/
def settled (d : Drive) (P : Participant) (g : Gateway σ κ) (s : Session κ) (c : κ) (t : σ) : σ :=
  g.log (d.record P s) (if d.inPlace then t else g.release c t)

/-- How an operation goes, by its plan for the session and by what becomes of the statements. -/
def going (P : Participant) (g : Gateway σ κ) (d : Drive) (s : Session κ) (t : σ) :
    Except Fault Unit × Session κ × σ :=
  match d.plan P s with
  | .error f => (.error f, d.refused s, if d.inPlace then t else s.drop g.toKeeper t)
  | .ok (c, sqls) =>
    match (Action.forEach (P.send g c d.name s.xid) sqls).run t with
    | (.ok (), t) => (.ok (), d.moved s, d.settled P g s c t)
    | (.error f, t) => (.error f, d.lost s, s.drop g.toKeeper t)

/-- An operation in place that sends one statement and moves the session on. -/
theorem advance_run (d : Drive) (message : String) (sql : Bytes) :
    (do P.sendInPlace (g.within .second) .first c d.name sql
        P.moveOn (g.within .second) .first d.target message : Action (Session κ × σ) Unit).run
      (s, t) =
    match (Action.forEach (P.send g c d.name s.xid) [sql]).run t with
    | (.ok (), t) => (.ok (), { s with state := d.target },
        g.log (P.doneRecord .debug message s.xid) t)
    | (.error f, t) => (.error f, s.closed, s.drop g.toKeeper t) := by
  rw [Action.run_bind, Participant.sendInPlace_run, Action.forEach, Action.run_bind]
  rcases (P.send g c d.name s.xid sql).run t with ⟨f | u, t⟩ <;> rfl

theorem finish_run : (P.finish (g.within .second) .first).run (s, t) = finish.going P g s t := by
  show (do
    let c ← .ofExcept (s.expect .started finish.name)
    let sql ← Participant.statement (P.dialect.finish s.xid)
    if sql ≠ [] then P.sendInPlace (g.within .second) .first c finish.name sql
    P.moveOn (g.within .second) .first finish.target "XA branch ended" :
      Action (Session κ × σ) Unit).run (s, t) = _
  rw [going, plan, check, statements]
  cases hc : s.expect .started finish.name with
  | error f => rfl
  | ok c =>
    cases hq : P.dialect.finish s.xid with
    | error q => rfl
    | ok sql =>
      by_cases hsql : sql = []
      · subst hsql
        rfl
      · show (if sql ≠ [] then do
            P.sendInPlace (g.within .second) .first c finish.name sql
            P.moveOn (g.within .second) .first finish.target "XA branch ended"
          else P.moveOn (g.within .second) .first finish.target "XA branch ended").run (s, t) = _
        rw [if_pos hsql]
        simp only [Except.map, if_neg hsql]
        exact advance_run finish "XA branch ended" sql

theorem prepare_run : (P.prepare (g.within .second) .first).run (s, t) =
    prepare.going P g s t := by
  show (do
    let c ← .ofExcept (s.expect .ended prepare.name)
    let sql ← Participant.statement (P.dialect.prepare s.xid)
    P.sendInPlace (g.within .second) .first c prepare.name sql
    P.moveOn (g.within .second) .first prepare.target "XA branch prepared" :
      Action (Session κ × σ) Unit).run (s, t) = _
  rw [going, plan, check, statements]
  cases hc : s.expect .ended prepare.name with
  | error f => rfl
  | ok c =>
    cases hq : P.dialect.prepare s.xid with
    | error q => rfl
    | ok sql => exact advance_run prepare "XA branch prepared" sql

/-- An operation that consumes its session. -/
theorem handOver_run (d : Drive) (hd : d.inPlace = false) {operation : Session κ → Action σ Unit}
    (hop : operation s = Participant.consuming g s (do
      let c ← d.perform P g s
      .update fun t => g.log (d.record P s) (g.release c t))) :
    (handOver operation).run (s, t) = d.going P g s t := by
  show (((operation s).run t).1, s.handedOver, ((operation s).run t).2) = _
  simp only [hop, Participant.consuming, Action.run_onFailure, Action.run_bind, perform,
    Action.run_ofExcept, going, moved, lost, refused, settled, hd]
  cases d.plan P s with
  | error f => rfl
  | ok planned =>
    obtain ⟨c, sqls⟩ := planned
    simp only
    rcases (Action.forEach (P.send g c d.name s.xid) sqls).run t with ⟨f | u, t⟩ <;> rfl

theorem run_eq (d : Drive) : (d.run P g).run (s, t) = d.going P g s t := by
  cases d with
  | finish => exact finish_run
  | prepare => exact prepare_run
  | commit => exact handOver_run commit rfl Participant.commit_eq
  | commitOnePhase => exact handOver_run commitOnePhase rfl Participant.commitOnePhase_eq
  | rollback => exact handOver_run rollback rfl Participant.rollback_eq

/-! ## What an operation sends -/

/-- How an operation ends on a session, what the caller has then, and what was sent. -/
inductive Course (P : Participant) (d : Drive) (s : Session κ) :
    Except Fault Unit → Session κ → List (Sent κ) → Prop
  /-- The session or its xid is turned down. -/
  | refused {f : Fault} (h : d.plan P s = .error f) : Course P d s (.error f) (d.refused s) []
  /-- All statements are answered well. -/
  | moved {c : κ} {sqls : List Bytes} {added : List (Sent κ)} (h : d.plan P s = .ok (c, sqls))
      (hsends : Sends c sqls (.ok ()) added) : Course P d s (.ok ()) (d.moved s) added
  /-- A statement fails, and is the last. -/
  | lost {c : κ} {sqls : List Bytes} {added : List (Sent κ)} {f : Fault}
      (h : d.plan P s = .ok (c, sqls)) (hsends : Sends c sqls (.error f) added) :
      Course P d s (.error f) (d.lost s) added

theorem drop_watched (s : Session κ) (t : σ) (sent : List (Sent κ)) :
    s.drop g.watched.toKeeper (t, sent) = (s.drop g.toKeeper t, sent) := by
  unfold Session.drop
  cases s.connection <;> rfl

theorem settled_watched (d : Drive) (t : σ) (sent : List (Sent κ)) :
    d.settled P g.watched s c (t, sent) = (d.settled P g s c t, sent) := by
  cases d <;> rfl

/-- An operation takes one of the courses, and watching it makes no difference to that. -/
theorem exists_course (P : Participant) (g : Gateway σ κ) (d : Drive) (s : Session κ) (t : σ) :
    ∃ answer s' t' added, (d.run P g).run (s, t) = (answer, s', t') ∧
      Course P d s answer s' added ∧ (∀ m ∈ added, g.Answers m) ∧
      ∀ sent, (d.run P g.watched).run (s, t, sent) = (answer, s', t', sent ++ added) := by
  simp only [run_eq, going]
  cases hplan : d.plan P s with
  | error f =>
    refine ⟨_, _, _, [], rfl, .refused hplan, by simp, fun sent => ?_⟩
    rw [List.append_nil]
    cases hd : d.inPlace with
    | true => rfl
    | false =>
      simp only [Bool.false_eq_true, if_false, drop_watched]
  | ok planned =>
    obtain ⟨c, sqls⟩ := planned
    obtain ⟨added, hsends, hanswers, hrun⟩ := exists_sends P g c d.name s.xid sqls t
    simp only [hrun]
    rcases hr : (Action.forEach (P.send g c d.name s.xid) sqls).run t with ⟨f | u, t⟩
    · rw [hr] at hsends
      refine ⟨_, _, _, added, rfl, .lost hplan hsends, hanswers, fun sent => ?_⟩
      simp only [drop_watched]
    · rw [hr] at hsends
      refine ⟨_, _, _, added, rfl, .moved hplan hsends, hanswers, fun sent => ?_⟩
      simp only [settled_watched]

/-- What was sent is what was planned. -/
theorem Course.sends {d : Drive} (h : Course P d s answer s' added) :
    (added = [] ∧ s' = d.refused s) ∨ ∃ c sqls, d.plan P s = .ok (c, sqls) ∧
      Sends c sqls answer added ∧ (answer = .ok () → s' = d.moved s) ∧
      ∀ f, answer = .error f → s' = d.lost s := by
  cases h with
  | refused hplan => exact Or.inl ⟨rfl, rfl⟩
  | moved hplan hsends => exact Or.inr ⟨_, _, hplan, hsends, fun _ => rfl, nofun⟩
  | lost hplan hsends => exact Or.inr ⟨_, _, hplan, hsends, nofun, fun _ _ => rfl⟩

/-- What a watched operation does, by its course. -/
theorem course_of_run (d : Drive)
    (h : (d.run P g.watched).run (s, t, sent) = (answer, s', t', sent')) :
    ∃ added, sent' = sent ++ added ∧ Course P d s answer s' added := by
  obtain ⟨answer, s', t', added, -, hcourse, -, hrun⟩ := exists_course P g d s t
  rw [hrun] at h
  cases h
  exact ⟨added, rfl, hcourse⟩

theorem answers_of_run (d : Drive)
    (h : (d.run P g.watched).run (s, t, sent) = (answer, s', t', sent ++ added)) :
    ∀ m ∈ added, g.Answers m := by
  obtain ⟨answer, s', t', added', -, -, hanswers, hrun⟩ := exists_course P g d s t
  rw [hrun] at h
  simp only [Prod.mk.injEq, List.append_cancel_left_eq] at h
  obtain ⟨-, -, -, rfl⟩ := h
  exact hanswers

end Drive

/-! ## How a session starts -/

/-- How a start ends, and what was sent. -/
inductive Opening (P : Participant) (x : Bytes) :
    Except Fault (Session κ) → List (Sent κ) → Prop
  /-- The xid is turned down, or there is no connection. -/
  | refused {f : Fault} : Opening P x (.error f) []
  | failed {c : κ} {sql : Bytes} {f : Fault} (h : P.dialect.start x = .ok sql) :
      Opening P x (.error f) [⟨c, sql, .error f⟩]
  | started {c : κ} {sql : Bytes} (h : P.dialect.start x = .ok sql) :
      Opening P x (.ok ⟨x, some c, .started⟩) [⟨c, sql, .ok ()⟩]

section Opening
variable {P : Participant} {g : Gateway σ κ} {c : κ} {x sql : Bytes} {t t' : σ}
  {sent sent' : List (Sent κ)} {answer : Except Fault (Session κ)}

/-- A start whose xid has a literal: what it does with a connection, if it gets one. -/
theorem start_run_of_sql (hsql : P.dialect.start x = .ok sql) : (P.start g x).run t =
    match g.acquire.run t with
    | (.ok c, t) =>
      match (P.send g c (ascii "begin") x sql).run t with
      | (.ok (), t) => (.ok ⟨x, some c, .started⟩,
          g.log (P.doneRecord .debug "XA branch started" x) t)
      | (.error f, t) => (.error f, g.release c (g.poison c t))
    | (.error f, t) => (.error f, t) := by
  unfold Participant.start
  simp only [hsql, Participant.statement, mapError_ok, Action.run_bind, Action.run_ofExcept,
    Action.run_onFailure]
  rcases g.acquire.run t with ⟨f | c, t⟩
  · rfl
  · simp only
    rcases (P.send g c (ascii "begin") x sql).run t with ⟨f | u, t⟩ <;> rfl

/-- A start goes one of these ways, and watching it makes no difference to that. -/
theorem exists_opening (P : Participant) (g : Gateway σ κ) (x : Bytes) (t : σ) :
    ∃ answer t' added, (P.start g x).run t = (answer, t') ∧ Opening P x answer added ∧
      ∀ sent, (P.start g.watched x).run (t, sent) = (answer, t', sent ++ added) := by
  cases hsql : P.dialect.start x with
  | error q =>
    unfold Participant.start
    rw [hsql]
    exact ⟨_, _, [], rfl, .refused, fun sent => by rw [List.append_nil]; rfl⟩
  | ok sql =>
    have hacquire (sent : List (Sent κ)) : g.watched.acquire.run (t, sent) =
        ((g.acquire.run t).1, (g.acquire.run t).2, sent) := rfl
    simp only [start_run_of_sql hsql, hacquire]
    rcases g.acquire.run t with ⟨f | c, t⟩
    · exact ⟨_, _, [], rfl, .refused, fun sent => by rw [List.append_nil]⟩
    · simp only [send_watched]
      rcases (P.send g c (ascii "begin") x sql).run t with ⟨f | u, t⟩
      · exact ⟨_, _, _, rfl, .failed hsql, fun _ => rfl⟩
      · exact ⟨_, _, _, rfl, .started hsql, fun _ => rfl⟩

theorem opening_of_run (h : (P.start g.watched x).run (t, sent) = (answer, t', sent')) :
    ∃ added, sent' = sent ++ added ∧ Opening P x answer added := by
  obtain ⟨answer, t', added, -, hopening, hrun⟩ := exists_opening P g x t
  rw [hrun] at h
  cases h
  exact ⟨added, rfl, hopening⟩

end Opening

/-! ## Lives -/

/-- The life of a session of xid `x`: the session, none if it did not start or was dropped; the
surroundings; and all that was sent for it. -/
inductive Life (P : Participant) (g : Gateway σ κ) (x : Bytes) :
    Option (Session κ) → σ → List (Sent κ) → Prop
  | unstarted {f : Fault} {t t' : σ} {sent : List (Sent κ)}
      (hr : (P.start g.watched x).run (t, []) = (.error f, t', sent)) : Life P g x none t' sent
  | started {s : Session κ} {t t' : σ} {sent : List (Sent κ)}
      (hr : (P.start g.watched x).run (t, []) = (.ok s, t', sent)) : Life P g x (some s) t' sent
  /-- An operation of the participant, however it ends. -/
  | driven {s s' : Session κ} {t t' : σ} {sent sent' : List (Sent κ)} (d : Drive)
      {answer : Except Fault Unit} (h : Life P g x (some s) t sent)
      (hr : (d.run P g.watched).run (s, t, sent) = (answer, s', t', sent')) :
      Life P g x (some s') t' sent'
  | dropped {s : Session κ} {t : σ} {sent : List (Sent κ)} (h : Life P g x (some s) t sent) :
      Life P g x none (s.drop g.toKeeper t) sent
  /-- Whatever others do meanwhile. -/
  | meanwhile {o : Option (Session κ)} {t : σ} {sent : List (Sent κ)} (t' : σ)
      (h : Life P g x o t sent) : Life P g x o t' sent

end Coordinator

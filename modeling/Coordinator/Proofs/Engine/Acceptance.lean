import Coordinator.Proofs.Drive
import Coordinator.Proofs.Engine.Protocol
import Coordinator.Proofs.Engine.Run

/-! # Statements that the engine accepts

What an operation on a session checks and what the engine asks of a branch are two things, kept
apart in two places; **they agree** (`Drive.accepted`): if the branch of a session is as its state
says, the engine accepts every statement that an operation sends, provided it is there and no
failure is in store for them. -/
namespace Coordinator
namespace Engine

variable {c : ConnectionId} {sql x : Bytes} {e : Engine} {t : Branches} {verb : Verb}

/-- The engine accepts the statements of a connection one after the other, and is `e'` then. -/
def Accepts (c : ConnectionId) : List Bytes → Engine → Engine → Prop
  | [], e, e' => e' = e
  | sql :: rest, e, e' => ∃ rows mid, (run c sql).run e = (.ok rows, mid) ∧ Accepts c rest mid e'

/-- The engine after a statement that took a protocol step. -/
def stepped (e : Engine) (sql : Bytes) (verb : Verb) (t : Branches) : Engine :=
  { e.record sql with branches := t, committed := e.committed + if verb.isCommit then 1 else 0 }

/-- A protocol step that the rules allow is accepted. -/
theorem run_of_moves (ha : e.available = true) (hc : e.Clear sql)
    (hp : Statement.parse sql = .ok (.branch verb x)) (hm : e.branches.Moves c x verb t) :
    (run c sql).run e = (.ok [], e.stepped sql verb t) := by
  have hperform : (e.record sql).branches.perform c verb x = .ok t :=
    Branches.perform_eq_ok_iff.mpr hm
  rw [run_of_read ha hc hp, perform_branch, hperform]
  rfl

/-- A start for an xid that has a branch is refused. -/
theorem run_of_duplicate {b : Branch} (ha : e.available = true) (hc : e.Clear sql)
    (hp : Statement.parse sql = .ok (.branch .start x)) (hfree : e.branches.hasOpen c = false)
    (hx : e.branches.get? x = some b) :
    (run c sql).run e = (.error Refusal.duplicate.fault, e.record sql) := by
  have hperform : (e.record sql).branches.perform c .start x = .error .duplicate := by
    have hcontains : (e.record sql).branches.contains x = true :=
      (Table.contains_iff _ _).mpr ⟨b, hx⟩
    have hfree' : (e.record sql).branches.hasOpen c = false := hfree
    simp only [Branches.perform, hfree', hcontains, Bool.false_eq_true, if_false, if_true]
  rw [run_of_read ha hc hp, perform_branch, hperform]

theorem accepts_one (ha : e.available = true) (hc : e.Clear sql)
    (hp : Statement.parse sql = .ok (.branch verb x)) (hm : e.branches.Moves c x verb t) :
    Accepts c [sql] e (e.stepped sql verb t) := ⟨[], _, run_of_moves ha hc hp hm, rfl⟩

/-- The branch of an xid is as the state of a session on connection `c` says. -/
def Matches (e : Engine) (x : Bytes) (state : Xa.State) (c : ConnectionId) : Prop :=
  (state = .started ∧ e.branches.get? x = some ⟨.active, c⟩) ∨
    (state = .ended ∧ e.branches.get? x = some ⟨.idle, c⟩) ∨
    (state = .prepared ∧ e.branches.get? x = some .detached)

section Matches
variable {state : Xa.State}

theorem Matches.started (hm : e.Matches x state c) (hs : state = .started) :
    e.branches.get? x = some ⟨.active, c⟩ := by
  rcases hm with ⟨-, hb⟩ | ⟨hs', -⟩ | ⟨hs', -⟩
  · exact hb
  · rw [hs] at hs'; cases hs'
  · rw [hs] at hs'; cases hs'

theorem Matches.ended (hm : e.Matches x state c) (hs : state = .ended) :
    e.branches.get? x = some ⟨.idle, c⟩ := by
  rcases hm with ⟨hs', -⟩ | ⟨-, hb⟩ | ⟨hs', -⟩
  · rw [hs] at hs'; cases hs'
  · exact hb
  · rw [hs] at hs'; cases hs'

theorem Matches.prepared (hm : e.Matches x state c) (hs : state = .prepared) :
    e.branches.get? x = some .detached := by
  rcases hm with ⟨hs', -⟩ | ⟨hs', -⟩ | ⟨-, hb⟩
  · rw [hs] at hs'; cases hs'
  · rw [hs] at hs'; cases hs'
  · exact hb

/-- The state of a session says all there is to say of its branch. -/
theorem Matches.get?_eq {e' : Engine} (hm : e.Matches x state c) (hm' : e'.Matches x state c) :
    e.branches.get? x = e'.branches.get? x := by
  rcases hm with ⟨hs, hb⟩ | ⟨hs, hb⟩ | ⟨hs, hb⟩
  · rw [hb, hm'.started hs]
  · rw [hb, hm'.ended hs]
  · rw [hb, hm'.prepared hs]

end Matches

end Engine

/-! ## Operations on a session -/

namespace Drive

variable {κ : Type} {P : Participant} {s : Session κ} {c : Engine.ConnectionId} {l : κ}
  {e : Engine} {sqls : List Bytes}

/-- The statements of an operation for an xid that can be written. -/
def texts (state : Xa.State) (q : Bytes) : Drive → List Bytes
  | finish => [ascii "XA END " ++ q]
  | prepare => [ascii "XA PREPARE " ++ q]
  | commit => [ascii "XA COMMIT " ++ q]
  | commitOnePhase => [ascii "XA COMMIT " ++ q ++ ascii " ONE PHASE"]
  | rollback =>
    (if state = .started then [ascii "XA END " ++ q] else []) ++ [ascii "XA ROLLBACK " ++ q]

theorem statements_eq {d : Xa.Dialect} (drive : Drive) (hd : d ≠ .postgres) :
    drive.statements d s = (Xa.Xid.quoteMysql s.xid).map fun q => drive.texts s.state q := by
  cases drive with
  | finish =>
    rw [statements, Engine.finish_eq hd]
    cases Xa.Xid.quoteMysql s.xid with
    | error f => rfl
    | ok q =>
      have hne : ascii "XA END " ++ q ≠ [] := fun h =>
        absurd (List.append_eq_nil_iff.mp h).1 (by decide)
      exact congrArg Except.ok (if_neg hne)
  | prepare =>
    rw [statements, Engine.prepare_eq hd]
    cases Xa.Xid.quoteMysql s.xid <;> rfl
  | commit =>
    rw [statements, Engine.commit_eq hd]
    cases Xa.Xid.quoteMysql s.xid <;> rfl
  | commitOnePhase =>
    rw [statements, Engine.commitOnePhase_eq hd]
    cases Xa.Xid.quoteMysql s.xid <;> rfl
  | rollback => exact Engine.rollback_eq hd s.state

/-- **Checks and rules agree.**  If the operation lets the session pass and the branch of the
session is as its state says, the engine accepts every statement of the operation. -/
theorem accepted (drive : Drive) (hd : P.dialect ≠ .postgres) (hl : drive.check P s = .ok l)
    (hsql : drive.statements P.dialect s = .ok sqls)
    (hm : e.Matches s.xid s.state c) (ha : e.available = true)
    (hc : ∀ sql ∈ sqls, e.Clear sql) :
    ∃ e', Engine.Accepts c sqls e e' ∧ e'.statements = e.statements ++ sqls := by
  rw [statements_eq drive hd] at hsql
  obtain ⟨q, hq, rfl⟩ := ok_of_map hsql
  cases drive with
  | finish =>
    have hb := hm.started (Session.expect_eq_ok hl).2
    exact ⟨_, Engine.accepts_one ha (hc _ List.mem_cons_self) (Engine.parse_finish hq) (.finish hb),
      rfl⟩
  | prepare =>
    have hb := hm.ended (Session.expect_eq_ok hl).2
    exact ⟨_, Engine.accepts_one ha (hc _ List.mem_cons_self) (Engine.parse_prepare hq)
      (.prepare hb), rfl⟩
  | commit =>
    have hb := hm.prepared (Session.expect_eq_ok hl).2
    exact ⟨_, Engine.accepts_one ha (hc _ List.mem_cons_self) (Engine.parse_commit hq)
      (.commit 0 hb), rfl⟩
  | commitOnePhase =>
    have hb := hm.ended (Session.expect_eq_ok hl).2
    exact ⟨_, Engine.accepts_one ha (hc _ List.mem_cons_self) (Engine.parse_commitOnePhase hq)
      (.commitOnePhase hb), rfl⟩
  | rollback =>
    have hlast {e : Engine} {t : Engine.Branches} (ha : e.available = true)
        (hc : e.Clear (ascii "XA ROLLBACK " ++ q))
        (hb : e.branches.Moves c s.xid .rollback t) :
        Engine.Accepts c [ascii "XA ROLLBACK " ++ q] e
          (e.stepped (ascii "XA ROLLBACK " ++ q) .rollback t) :=
      Engine.accepts_one ha hc (Engine.parse_rollback hq) hb
    rcases (Participant.expectRollback_eq_ok hl).2 with hs | hs | hs
    · rw [hs] at hc ⊢
      exact ⟨_, hlast ha (hc _ List.mem_cons_self) (.rollback 0 (hm.prepared hs)), rfl⟩
    · -- An active branch is ended first.
      rw [hs] at hc ⊢
      have hfinish := Engine.run_of_moves ha (hc _ List.mem_cons_self) (Engine.parse_finish hq)
        (.finish (hm.started hs))
      have hidle : (e.branches.insert s.xid ⟨.idle, c⟩).get? s.xid = some ⟨.idle, c⟩ := by
        rw [Table.get?_insert, if_pos rfl]
      refine ⟨_, ⟨[], _, hfinish, hlast ha (hc _ (List.mem_cons_of_mem _ List.mem_cons_self))
        (.rollbackOwn hidle)⟩, ?_⟩
      show e.statements ++ _ ++ _ = e.statements ++ _
      rw [List.append_assoc]
      rfl
    · rw [hs] at hc ⊢
      exact ⟨_, hlast ha (hc _ List.mem_cons_self) (.rollbackOwn (hm.ended hs)), rfl⟩

end Drive
end Coordinator

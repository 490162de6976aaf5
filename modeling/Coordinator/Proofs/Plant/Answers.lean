import Coordinator.Plant
import Coordinator.Proofs.Contract
import Coordinator.Proofs.Session.Guards

/-! # What the connections of a plant answer

A statement that a server cannot take fails by the class of its error code, and none of the classes
means that a session is in the wrong state.  So the gateways of a plant are candid
(`Plant.candid_gateway`), and over them a session in the wrong state is the only reason for that
failure: nothing is sent then, and a session driven in place stays as it was
(`Plant.silent_of_life`). -/
namespace Coordinator

/-- However the action fails, it is not for the state of a session. -/
def Action.Candid {σ α : Type} (x : Action σ α) : Prop :=
  x.Meets (fun _ => True) (fun _ _ => True) fun f _ => f.kind ≠ .invalidState

namespace Action.Candid

variable {σ τ α β : Type} {x : Action σ α} {f : α → Action σ β}

theorem bind (hx : x.Candid) (hf : ∀ a, (f a).Candid) : (x >>= f).Candid :=
  Meets.bind hx hf

theorem fail {e : Fault} (h : e.kind ≠ .invalidState) : (Action.fail e : Action σ α).Candid :=
  Meets.fail fun _ _ => h

theorem update (g : σ → σ) : (Action.update g).Candid := Meets.update fun _ _ => trivial

theorem read (view : σ → α) : (Action.read view).Candid := fun _ _ => trivial

theorem pure (a : α) : (Pure.pure a : Action σ α).Candid := Meets.pure fun _ _ => trivial

theorem onFailure (hx : x.Candid) (cleanUp : Fault → σ → σ) : (x.onFailure cleanUp).Candid :=
  Meets.onFailure hx fun _ _ h => h

theorem onCell (hx : x.Candid) (c : Cell τ σ) : (c.run x).Candid :=
  Meets.onCell hx (fun _ _ => trivial) (fun _ _ _ _ _ => trivial) fun _ _ _ _ h => h

end Action.Candid

namespace ErrorClass

/-- No class of errors means that a session is in the wrong state. -/
theorem kind_fault (c : ErrorClass) (message : Bytes) :
    (c.fault message).kind ≠ .invalidState := by
  cases c <;> exact nofun

end ErrorClass

open Coordinator.Action (Candid)

namespace Engine

theorem SyntaxFault.kind_fault (f : SyntaxFault) : f.fault.kind ≠ .invalidState := by
  cases f with
  | near | trailing => exact nofun
  | literal cause => cases cause <;> exact nofun

theorem candid_failInjected (sql : Bytes) : (failInjected sql).Candid := by
  intro e _
  simp only [failInjected, Action.run]
  cases e.injected.find? fun f => sql.startsWith f.stem with
  | none => trivial
  | some f => exact f.cause.kind_fault _

theorem candid_step (c : ConnectionId) (verb : Verb) (x : Bytes) : (step c verb x).Candid := by
  intro e _
  simp only [step, Action.run]
  cases e.branches.perform c verb x with
  | ok t => trivial
  | error r => exact r.describe.1.kind_fault _

theorem candid_perform (c : ConnectionId) (s : Statement) : (perform c s).Candid := by
  cases s with
  | branch verb x => exact (candid_step c verb x).bind fun _ => .pure _
  | recover => exact .read _
  | commit => exact (Candid.update _).bind fun _ => .pure _
  | version => exact .read _
  | other => exact .pure _

theorem candid_parse (sql : Bytes) :
    (Action.ofExcept ((Statement.parse sql).mapError SyntaxFault.fault) :
      Action Engine Statement).Candid := by
  cases Statement.parse sql with
  | ok s => exact .pure s
  | error f => exact .fail f.kind_fault

/-- A switched off engine, an injected failure, a text that cannot be read, a step refused: none of
these tells about a session. -/
theorem candid_run (c : ConnectionId) (sql : Bytes) : (run c sql).Candid := by
  refine (Candid.read _).bind fun available => ?_
  have hsent := (Candid.update (record sql)).bind fun _ =>
    (candid_failInjected sql).bind fun _ => (candid_parse sql).bind (candid_perform c)
  cases available with
  | true => exact hsent
  | false => exact Candid.bind (.fail nofun) fun _ => hsent

end Engine

theorem Host.candid_send {σ : Type} (host : Cell σ Host) {interrupt : Bytes → Action σ Unit}
    (hi : ∀ sql, (interrupt sql).Candid) (c : Engine.ConnectionId) (sql : Bytes) :
    (send host interrupt c sql).Candid := by
  refine (Candid.read _).bind fun broken => ?_
  have hsent := ((hi sql).bind fun _ =>
    (Engine.candid_run c sql).onCell (host.within engineCell)).onFailure
      fun f => host.modify (noteFailure c f)
  cases broken with
  | true => exact Candid.bind (.fail nofun) fun _ => hsent
  | false => exact hsent

theorem Client.Sqlite.candid_execute (c : ConnectionId) (sql : Bytes) : (execute c sql).Candid := by
  refine (Candid.update _).bind fun _ => ?_
  refine Candid.bind (fun s _ => trivial) fun r => ?_
  split
  · exact .fail (ErrorClass.kind_fault _ _)
  · exact .pure _

namespace Plant

variable {P : Participant} {s s' : Session Line} {x sql : Bytes} {t t' : Plant} {f : Fault}
  {o : Option (Session Line)} {sent sent' : List (Sent Line)} {r : PoolRef} {d : Drive}

/-- Whatever a plant's connections lead to, no statement on them fails for the state of a
session. -/
theorem candid_gateway (r : PoolRef) : (alone.gateway r).Candid := by
  suffices h : ∀ (l : Line) sql, ((alone.server l.target).execute l.number sql).Candid from
    fun l sql _ _ _ hr => (h l sql).bad_of_run trivial hr
  rintro ⟨target, number, home⟩ sql
  cases target with
  | engine h => exact (Host.candid_send _ (fun _ => .pure ()) number sql).bind fun _ => .pure ()
  | database path => exact (Client.Sqlite.candid_execute number sql).onCell _

/-- In a plant, an operation that fails for the state of a session has sent nothing, and one that
leaves the session with its caller has left it as it was. -/
theorem silent_of_life (h : Life P (alone.gateway r) x (some s) t sent)
    (hr : (d.run P (alone.gateway r).watched).run (s, t, sent) = (.error f, s', t', sent'))
    (hkind : f.kind = .invalidState) : sent' = sent ∧ (d.inPlace = true → s' = s) :=
  (guarded_of_live (h.live rfl)).silent_of_candid (candid_gateway r) hr hkind

end Plant
end Coordinator

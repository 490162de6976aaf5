import Coordinator.Participant
import Coordinator.Table

/-! # Session registries

A `Registry` keeps the sessions of one participant by xid, for callers that can carry an xid from
call to call but not a session.  Each operation takes the session out, runs its statements with
the registry free for others, and, where the session goes on, puts it back.  `take` and `insert?`
are the steps that touch the registry, each at one moment; a session is in the registry or in the
hands of one operation, never both. -/
namespace Coordinator

/-- Sessions by xid. -/
abbrev Registry (κ : Type) := Table Bytes (Session κ)

namespace Registry

variable {σ κ : Type}

/-- Takes out the session of an xid if it is in the required state, when one is required. -/
def take (xid : Bytes) (required : Option Xa.State) (r : Registry κ) :
    Except Fault (Session κ × Registry κ) :=
  match r.get? xid with
  | none => .error (.of .notFound [ascii "no active XA session for xid"])
  | some s =>
    match required with
    | none => .ok (s, r.erase xid)
    | some state =>
      if s.state = state then .ok (s, r.erase xid)
      else .error (.of .notFound [ascii "no ", state.name, ascii " XA session for xid (it is ",
        s.state.name, ascii ")"])

/-- Puts a session in under its xid, unless the xid has one already. -/
def insert? (s : Session κ) (r : Registry κ) : Option (Registry κ) :=
  if r.contains s.xid then none else some (r.insert s.xid s)

/-- The xids with a session, in order. -/
def xids (r : Registry κ) : List Bytes := r.keys.mergeSort Bytes.le

/-! ## Operations -/

/-- A registry within its surroundings, with the participant it belongs to. -/
structure Site (σ κ : Type) where
  registry : Cell σ (Registry κ)
  participant : Participant
  gateway : Gateway σ κ

namespace Site

/-- Takes a session out. -/
def take (r : Site σ κ) (xid : Bytes) (required : Option Xa.State) : Action σ (Session κ) := do
  let (s, rest) ← .ofExcept (← .read fun t => (r.registry.get t).take xid required)
  .update (r.registry.set rest)
  return s

/-- Puts a session in, and tells whether there was room. -/
def insert (r : Site σ κ) (s : Session κ) : Action σ Bool := fun t =>
  match (r.registry.get t).insert? s with
  | some registry => (.ok true, r.registry.set registry t)
  | none => (.ok false, t)

/-- A record about an xid. -/
def record (r : Site σ κ) (message : String) (xid : Bytes) (more : List Journal.Field) :
    Journal.Record :=
  ⟨.warn, ascii message, r.participant.field :: .ofBytes (ascii "xid") xid :: more⟩

/-- Puts a session back after an operation.  If the xid got another session meanwhile, this one is
dropped; a prepared branch is left to recovery. -/
def putBack (r : Site σ κ) (s : Session κ) : Action σ Unit := do
  if !(← r.insert s) then
    .update (r.gateway.log (r.record
      "XA session could not be re-registered; xid was taken while it was in flight" s.xid
      [.ofText (ascii "state") s.state.name]))
    .update (s.drop r.gateway.toKeeper)
    .fail (.of .protocol [ascii "xid was registered again while its XA session was in flight"])

/-- Starts a branch and registers it.  If the xid has a session already, the new branch is rolled
back. -/
def start (r : Site σ κ) (xid : Bytes) : Action σ Unit := do
  let s ← r.participant.start r.gateway xid
  if !(← r.insert s) then
    .update (r.gateway.log (r.record
      "Duplicate begin for a registered xid; rolling back the new branch" xid []))
    if let .error f ← (r.participant.rollback r.gateway s).attempt then
      .update (r.gateway.log (r.record "Rollback of duplicate branch failed" xid
        [.ofText (ascii "error") f.message]))
    .fail (.of .protocol [ascii "xid already has an active XA session"])

/-- Runs an operation in place on a registered session: takes it out into the hands of this call
alone, runs, and puts it back; if the operation fails, the session is dropped. -/
def drive (r : Site σ κ) (xid : Bytes) (required : Xa.State)
    (operation : Action (Session κ × σ) Unit) : Action σ Unit := do
  let s ← r.take xid (some required)
  let s ← fun t => match operation.run (s, t) with
    | (.ok (), s, t) => (.ok s, t)
    | (.error f, s, t) => (.error f, s.drop r.gateway.toKeeper t)
  r.putBack s

/-- Ends the work of a registered branch. -/
def finish (r : Site σ κ) (xid : Bytes) : Action σ Unit :=
  r.drive xid .started (r.participant.finish (r.gateway.within .second) .first)

/-- Prepares a registered branch. -/
def prepare (r : Site σ κ) (xid : Bytes) : Action σ Unit :=
  r.drive xid .ended (r.participant.prepare (r.gateway.within .second) .first)

/-- Commits a registered branch, which leaves the registry. -/
def commit (r : Site σ κ) (xid : Bytes) : Action σ Unit := do
  r.participant.commit r.gateway (← r.take xid (some .prepared))

/-- Rolls a registered branch back, which leaves the registry. -/
def rollback (r : Site σ κ) (xid : Bytes) : Action σ Unit := do
  r.participant.rollback r.gateway (← r.take xid none)

end Site
end Registry
end Coordinator

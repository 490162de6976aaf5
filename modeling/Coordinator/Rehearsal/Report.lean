import Coordinator.Rehearsal.Perform

/-! # Reports

A `Report` tells what came of a step and what it left behind: the replies, the statements that
reached each engine, the journal lines and library calls it caused, and how engines and pools stand
after it.  What a step caused is read off the stages before and after it, for these lists only
grow. -/
namespace Coordinator.Rehearsal

/-- An engine after a step. -/
structure EngineReport where
  /-- The statements that reached it in the step. -/
  statements : List Bytes
  prepared : List Bytes
  openConnections : Nat
  committed : Nat
deriving DecidableEq, Repr

/-- A pool after a step. -/
structure PoolReport where
  idle : Nat
  live : Nat
deriving DecidableEq, Repr

/-- What came of a step and what it left behind. -/
structure Report where
  reply : Reply
  /-- The replies to steps that ran inside it. -/
  aside : List Reply
  engines : List (Bytes × EngineReport)
  pools : List (Bytes × PoolReport)
  journal : List Bytes
  calls : List Client.Sqlite.Call

/-- What a list has beyond an earlier state of it. -/
def added {α : Type} (before after : List α) : List α := after.drop before.length

/-- Whether a step handles branches in an order that means nothing. -/
def Step.isUnordered : Step → Bool
  | .sweep .. => true
  | _ => false

/-- A list as a report gives it: in order where the order means something, sorted otherwise. -/
def arranged (step : Step) (list : List Bytes) : List Bytes :=
  if step.isUnordered then list.mergeSort Bytes.le else list

def engineReport (step : Step) (before after : Stage) (h : HostId) : EngineReport :=
  let was := (Plant.hostCell h).get before.plant
  let e := ((Plant.hostCell h).get after.plant).engine
  { statements := arranged step (added was.engine.statements e.statements)
    prepared := e.branches.prepared.mergeSort Bytes.le
    openConnections := e.openConnections
    committed := e.committed }

def poolReport (s : Stage) (r : PoolRef) : PoolReport :=
  let p := (Plant.poolCell r).get s.plant
  ⟨p.idle.length, p.live⟩

/-- Runs a step and reports. -/
def rehearseStep (run : Runner) (step : Step) (before : Stage) : Report × Stage :=
  let (reply, after) := run step { before with aside := [] }
  let journal := added before.plant.journal after.plant.journal
  ({ reply
     aside := after.aside
     engines := after.engines.entries.map fun (name, h) => (name, engineReport step before after h)
     pools := after.pools.entries.map fun (name, r) => (name, poolReport after r)
     journal := arranged step (journal.map Journal.Record.line)
     calls := added before.plant.sqlite.calls after.plant.sqlite.calls }, after)

/-- How deep steps may be nested.  Interruptions that stay in wait can nest without end; any other
script ends long before this. -/
def depth : Nat := 1000000

/-- Runs a script on a plant and reports on each step. -/
def rehearse (p : Plant) (script : List Step) : List Report :=
  let (reports, _) := script.foldl (fun (reports, s) step =>
    let (report, s) := rehearseStep (runner depth) step s
    (report :: reports, s)) (([] : List Report), ({ plant := p } : Stage))
  reports.reverse

end Coordinator.Rehearsal

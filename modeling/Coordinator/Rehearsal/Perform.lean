import Coordinator.Rehearsal.Stage

/-! # Performing steps

`perform` runs one step on a stage.  First the names in the step are looked up; a step that calls
an object which does not exist changes nothing.  Then the step acts on the objects.  What it does
to them before it fails stays done.  Last, what nothing leads to any more is taken down.

Steps inside a step run by way of a `Runner`; `runner depth` is the one that performs steps nested
up to a depth. -/
namespace Coordinator.Rehearsal

/-- How a step is run. -/
abbrev Runner := Step → Stage → Reply × Stage

/-- Runs steps inside another step, and keeps their replies. -/
def runAside (run : Runner) (steps : List Step) (s : Stage) : Stage :=
  steps.foldl (fun s step =>
    let (reply, s) := run step s
    { s with aside := s.aside ++ [reply] }) s

/-- What happens when an engine is about to run a statement: the first interruption in wait for it
takes its course. -/
def interrupt (run : Runner) (host : HostId) (sql : Bytes) : Action Stage Unit := do
  let hit (i : Interruption) : Bool := i.host = host && i.trigger.hits sql
  match ← .read fun s => s.interruptions.find? hit with
  | none => return
  | some i =>
    if !i.trigger.keep then
      .update fun s => { s with interruptions := s.interruptions.eraseP hit }
    .update (runAside run i.steps)
    if let some f := i.failure then .fail f

/-- The plant of a stage, whose engines may be interrupted. -/
def site (run : Runner) : Plant.Site Stage := ⟨Stage.plantCell, interrupt run⟩

/-- Changes the stage and has nothing to tell. -/
def change (f : Stage → Stage) : Action Stage Outcome := do
  .update f
  return .done

/-! ## Objects -/

/-- The fault of a component that is given less than it needs. -/
def needsFault (role : String) (name : Bytes) (needs : String) : Fault :=
  .of .invalidArgument [ascii role, ascii " '", name, ascii "' needs ", ascii needs]

/-- A participant, if it is given what it needs. -/
def newParticipant (name : Bytes) :
    Option PoolRef → Option Xa.Dialect → Except Fault (Pooled Participant)
  | some pool, some dialect => .ok ⟨⟨name, dialect⟩, pool⟩
  | _, _ => .error (needsFault "participant" name "a pool and a dialect")

/-- A retry manager, if it is given what it needs. -/
def newManager (name : Bytes) (policy : Retry.Policy) :
    Option PoolRef → Option Retry.Dialect → Except Fault (Pooled Retry.Manager)
  | some pool, some dialect => return ⟨← Retry.Manager.new name dialect policy, pool⟩
  | _, _ => .error (needsFault "retry manager" name "a pool and a dialect")

def addEngine (name version : Bytes) : Action Stage Outcome := do
  let h ← Stage.plantCell.run (Plant.addEngine { version })
  change fun s => { s with engines := s.engines.insert name h }

def addPool (name : Bytes) (target : Target) (capacity : Nat) (timeout : Int64) :
    Action Stage Outcome := do
  let r ← Stage.plantCell.run (Plant.addPool target (.new name capacity timeout))
  change fun s => { s with pools := s.pools.insert name r }

def addRegistry (name : Bytes) : Option (Pooled Participant) → Action Stage Outcome
  | none => .fail (.of .invalidArgument [ascii "session registry needs a participant"])
  | some owner => do
    let r ← Stage.plantCell.run (Plant.addRegistry owner)
    change fun s => { s with registries := s.registries.insert name r }

/-- Gives engines names, in place of engines that had them. -/
def nameEngines (engines : Table Bytes HostId) (s : Stage) : Stage :=
  { s with engines := engines.entries.foldl (fun t (name, h) => t.insert name h) s.engines }

/-- Sets a configuration up, in place of the deployment before. -/
def deploy (c : Config) : Action Stage Outcome := do
  let d ← Stage.plantCell.run (Deployment.build c)
  .update fun s => nameEngines d.engines { s with deployment := some d }
  return .inventory ⟨d.participants.size, d.registries.size, d.managers.size, d.engines.size,
    d.staleStem⟩

/-- Changes an engine. -/
def changeEngine (h : HostId) (f : Engine → Engine) : Action Stage Outcome :=
  change (((Stage.plantCell.within (Plant.hostCell h)).within Host.engineCell).modify f)

/-! ## Sessions -/

def SessionView.of (x : Session Line) : SessionView := ⟨x.state, x.isOpen⟩

/-- Gives a session a name.  A session that had the name is dropped. -/
def keepSession (w : Plant.Site Stage) (name : Bytes) (x : Session Line) (s : Stage) : Stage :=
  let s := match s.sessions.get? name with
    | some old => old.drop w.keeper s
    | none => s
  { s with sessions := s.sessions.insert name x }

/-- Runs an operation that consumes the session of a name; the name is left with what remains of
a session that was handed over. -/
def consumeSession (name : Bytes) (x : Session Line)
    (operation : Session Line → Action Stage Unit) : Action Stage Unit := do
  .update fun s => { s with sessions := s.sessions.insert name x.handedOver }
  operation x

def conclude (p : Participant) (g : Gateway Stage Line) :
    Ending → Session Line → Action Stage Unit
  | .commit => p.commit g
  | .commitOnePhase => p.commitOnePhase g
  | .rollback => p.rollback g

/-- Moves a session from one name to another.  A session under its own name stays as it is. -/
def moveSession (w : Plant.Site Stage) (source target : Bytes) (x : Session Line) :
    Action Stage Outcome :=
  if source = target then return .sessions (.of x) (.of x)
  else do
    .update (keepSession w target x)
    .update fun s => { s with sessions := s.sessions.insert source x.handedOver }
    return .sessions (.of x.handedOver) (.of x)

/-! ## Connections -/

/-- Sends a request; rows are told in order. -/
def submit (w : Plant.Site Stage) (l : Line) (request : Request) : Action Stage Outcome := do
  match ← (w.lines l.target l.home).submit l request with
  | none => return .done
  | some rows => return .rows (rows.mergeSort Sql.Row.le)

/-- Gives a connection a name.  A connection that had the name is given back. -/
def keepLine (w : Plant.Site Stage) (name : Bytes) (l : Line) : Action Stage Outcome :=
  change fun s =>
    let kept := { s with connections := s.connections.insert name l }
    match s.connections.get? name with
    | some old => w.release old kept
    | none => kept

def viewLine (w : Plant.Site Stage) (l : Line) : Action Stage Outcome :=
  let b := w.lines l.target l.home
  .read fun s => .connection ⟨b.isHealthy l s, b.isPoisoned l s, b.placeholders.text 1⟩

/-! ## Registries -/

def drive (r : Registry.Site Stage Line) (xid : Bytes) : Move → Action Stage Unit
  | .start => r.start xid
  | .finish => r.finish xid
  | .prepare => r.prepare xid
  | .commit => r.commit xid
  | .rollback => r.rollback xid

/-! ## Transactions -/

/-- Makes a note on the attempt that is running. -/
def note (n : Note) (s : Stage) : Stage :=
  let attempts := match s.trial.attempts.reverse with
    | [] => [[n]]
    | last :: before => ((last ++ [n]) :: before).reverse
  { s with trial := { s.trial with attempts } }

def act (w : Plant.Site Stage) (run : Runner) (l : Line) (attempt : UInt32) :
    Act → Action Stage Note
  | .execute sql params =>
    return .outcome (← submit w l (if params.isEmpty then .plain sql else .bound sql params))
  | .query sql params => return .outcome (← submit w l (.rows sql params))
  | .attempt => return .outcome (.number attempt.toNat)
  | .placeholder => return .outcome (.text ((w.lines l.target l.home).placeholders.text 1))
  | .step step => fun s =>
    let (reply, s) := run step s
    (.ok (.reply reply), s)
  | .fail f => .fail f

/-- A part of a unit of work; its failure ends the work unless it is tolerated. -/
def deed (w : Plant.Site Stage) (run : Runner) (l : Line) (attempt : UInt32) :
    Deed → Action Stage Unit
  | .mk a tolerated => do
    match ← (act w run l attempt a).attempt with
    | .ok n => .update (note n)
    | .error f =>
      .update (note (.failed f))
      if !tolerated then .fail f

/-- A unit of work with a list of parts for each attempt; the last list is for all attempts from
there on. -/
def workOf (w : Plant.Site Stage) (run : Runner) (lists : List (List Deed)) :
    Retry.Work Stage Line := fun l attempt => do
  .update fun s => { s with trial := { s.trial with attempts := s.trial.attempts ++ [[]] } }
  .forEach (deed w run l attempt)
    ((lists[min (attempt.toNat - 1) (lists.length - 1)]?).getD [])

/-- A pause between attempts: nobody waits, but steps may run. -/
def pause (run : Runner) (lists : List (List Step)) (delay : Int64) : Action Stage Unit := do
  let n ← .read fun s => s.trial.pauses.length
  .update fun s => { s with trial := { s.trial with pauses := s.trial.pauses ++ [delay] } }
  .update (runAside run ((lists[n]?).getD []))

/-- The priority of a name, if there is a name. -/
def priorityOf? : Option Bytes → Except Fault (Option Retry.Priority)
  | none => .ok none
  | some name => some <$> (Retry.Priority.ofText name).mapError Retry.Priority.Unknown.fault

/-- Runs a transaction and tells how it went; it is a result of the step even when it fails. -/
def transact (w : Plant.Site Stage) (run : Runner) (m : Pooled Retry.Manager)
    (work : List (List Deed)) (priority : Option Bytes) (pauses : List (List Step)) :
    Action Stage Outcome := do
  let outer ← .read Stage.trial
  .update fun s => { s with trial := {} }
  let ending ← Action.attempt do
    let p ← .ofExcept (priorityOf? priority)
    m.component.execute (w.gateway m.pool) (pause run pauses) p (workOf w run work)
  let trial ← .read Stage.trial
  .update fun s => { s with trial := outer }
  let failure := match ending with
    | .ok _ => none
    | .error f => some f
  return .transaction failure trial.attempts trial.pauses

/-! ## Steps -/

/-- What a step does, once the objects it calls are found. -/
def Step.plan (run : Runner) (s : Stage) (step : Step) : Except Refusal (Action Stage Outcome) :=
  let w := site run
  match step with
  | .addEngine name version => return Rehearsal.addEngine name version
  | .addPool name place capacity timeout =>
    return Rehearsal.addPool name (← s.target place) capacity timeout
  | .addParticipant name pool dialect => do
    let p ← (newParticipant name (← pool.mapM s.pool) dialect).mapError .fault
    return change fun s => { s with participants := s.participants.insert name p }
  | .addRegistry name participant =>
    return Rehearsal.addRegistry name (← participant.mapM s.participant)
  | .addManager name pool dialect policy => do
    let m ← (newManager name policy (← pool.mapM s.pool) dialect).mapError .fault
    return change fun s => { s with managers := s.managers.insert name m }
  | .deploy config => return Rehearsal.deploy config
  | .describeParticipant p => return pure (.participant (← s.participant p).component)
  | .describeManager m => return pure (.manager (← s.manager m).component)
  | .poolName p => do
    let r ← s.pool p
    return .read fun s => .text ((w.pool r).pool.get s).name
  | .hasEngine name => return pure (.flag (s.deployment.any (·.engines.contains name)))
  | .start p xid name => do
    let p ← s.participant p
    return do
      let x ← p.component.start (w.gateway p.pool) xid
      change (keepSession w name x)
  | .finish p name => do
    let p ← s.participant p
    let x ← s.session name
    return do
      p.component.finish (w.gateway p.pool) (Stage.sessionCell name x.closed)
      return .done
  | .prepare p name => do
    let p ← s.participant p
    let x ← s.session name
    return do
      p.component.prepare (w.gateway p.pool) (Stage.sessionCell name x.closed)
      return .done
  | .conclude p name ending => do
    let p ← s.participant p
    let x ← s.session name
    return do
      consumeSession name x (Rehearsal.conclude p.component (w.gateway p.pool) ending)
      return .done
  | .session name => return pure (.session (.of (← s.session name)))
  | .sessionXid name => return pure (.text (← s.session name).xid)
  | .useSession name request => do
    let x ← s.session name
    return do submit w (← .ofExcept x.lend) request
  | .dropSession name => do
    let x ← s.session name
    return change fun s => x.drop w.keeper { s with sessions := s.sessions.erase name }
  | .moveSession source target =>
    return Rehearsal.moveSession w source target (← s.session source)
  | .commitByXid p xid => do
    let p ← s.participant p
    return do p.component.commitByXid (w.gateway p.pool) xid; return .done
  | .rollbackByXid p xid => do
    let p ← s.participant p
    return do p.component.rollbackByXid (w.gateway p.pool) xid; return .done
  | .recover p => do
    let p ← s.participant p
    return do
      let found ← p.component.recover (w.gateway p.pool)
      return .branches (found.mergeSort fun a b => a.data.le b.data)
  | .find p xid => do
    let p ← s.participant p
    return do return .branch (← p.component.find (w.gateway p.pool) xid)
  | .sweep p stem => do
    let p ← s.participant p
    return do return .count (← p.component.sweep (w.gateway p.pool) stem)
  | .registered r xid move => do
    let r ← s.registry r
    return do drive (w.registry r) xid move; return .done
  | .isRegistered r xid => do
    let r ← s.registry r
    return .read fun s => .flag (((w.registry r).registry.get s).contains xid)
  | .registrySize r => do
    let r ← s.registry r
    return .read fun s => .count ((w.registry r).registry.get s).size
  | .registryXids r => do
    let r ← s.registry r
    return .read fun s => .texts ((w.registry r).registry.get s).xids
  | .registryOwner r => return pure (.text (← s.registry r).owner.component.name)
  | .injectFailure e failure => return changeEngine (← s.engine e) (Engine.inject failure)
  | .clearFailures e => return changeEngine (← s.engine e) Engine.clearInjected
  | .setAvailable e on => return changeEngine (← s.engine e) (Engine.setAvailable on)
  | .injectPrepared e xid => return changeEngine (← s.engine e) (Engine.injectPrepared xid)
  | .stageOf e xid => do
    let h ← s.engine e
    return .read fun s =>
      .stage ((((Plant.hostCell h).get s.plant).engine.branches.get? xid).map (·.stage))
  | .interrupt e trigger steps failure => do
    let h ← s.engine e
    return change fun s =>
      { s with interruptions := s.interruptions ++ [⟨h, trigger, steps, failure⟩] }
  | .connect e name => do
    let h ← s.engine e
    return do keepLine w name (← (w.lines (.engine h) none).connect)
  | .acquire pool name => do
    let r ← s.pool pool
    return do keepLine w name (← (w.gateway r).acquire)
  | .useConnection name request => return submit w (← s.connection name) request
  | .poison name => return change (w.keeper.poison (← s.connection name))
  | .connection name => return viewLine w (← s.connection name)
  | .connectionNumber name => return pure (.number (← s.connection name).number)
  | .release name => do
    let l ← s.connection name
    return change fun s => w.release l { s with connections := s.connections.erase name }
  | .dropPool name => do
    let _ ← s.pool name
    return change fun s => { s with pools := s.pools.erase name }
  | .execute m work priority pauses =>
    return transact w run (← s.manager m) work priority pauses
  | .clusterInfo m => do
    let m ← s.manager m
    return do return .cluster (← m.component.clusterInfo (w.gateway m.pool))
  | .asOf m query interval => do
    let m ← s.manager m
    return do return .text (← .ofExcept (m.component.dialect.asOf query interval))

/-- The session that a step drives. -/
def Step.driven? : Step → Option Bytes
  | .start _ _ name | .finish _ name | .prepare _ name | .conclude _ name _ => some name
  | _ => none

/-- The reply to a step that came to an end.  One that drives a session tells how the session
looks by now, if the name still has one. -/
def Step.reply (step : Step) (o : Outcome) (s : Stage) : Reply :=
  match step.driven? with
  | none => .ok o
  | some name => match s.session name with
    | .ok x => .ok (.session (.of x))
    | .error r => .refused r

/-- Performs a step. -/
def perform (run : Runner) : Runner := fun step s =>
  match step.plan run s with
  | .error r => (.refused r, s)
  | .ok x => match x.run s with
    | (.ok o, s) => (step.reply o s, s.tidy)
    | (.error f, s) => (.refused (.fault f), s.tidy)

/-- Performs steps nested up to a depth; below it nothing happens. -/
def runner : (depth : Nat) → Runner
  | 0 => fun _ s => (.ok .done, s)
  | depth + 1 => perform (runner depth)

end Coordinator.Rehearsal

import Coordinator.Proofs.Plant.Registered
import Coordinator.Rehearsal.Step

/-! # Workshops

A `Workshop` is everything that works over one pool of one engine: participants of any dialect, the
sessions that callers hold, registries, retry managers, and the hands that inject failures and
switch the engine off.  `Op` lists what can happen, `step` is what one operation makes of a
workshop, whether it succeeds or fails, and `run` the workshop after any number of them.

A workshop is **orderly** (`Orderly`) when the loans of the pool are exactly those of the sessions
in it, held by callers or registered.  Every operation keeps it so (`orderly_step`), as long as the
statements that callers send on their own are no protocol statements; where loans are to be exact,
nothing but the sessions may settle branches either (`Op.IsLocal`). -/
namespace Coordinator.Plant

open Engine (Branch ConnectionId)

/-! ## Work of callers -/

/-- What a caller does on a connection of its own: each request may depend on what the ones before
it brought. -/
inductive Script
  | done
  | fail (f : Fault)
  | submit (q : Request) (next : Except Fault (Option Sql.Rows) → Script)

namespace Script

/-- Runs a script on a line. -/
def run (l : Line) : Script → Action Plant Unit
  | done => pure ()
  | fail f => Action.fail f
  | submit q next => do
    let answer ← ((alone.lines l.target l.home).submit l q).attempt
    (next answer).run l

/-- No request of the script is a step of the protocol, whatever the answers are. -/
def IsPassive : Script → Prop
  | done | fail _ => True
  | submit q next => Request.IsPassive q ∧ ∀ answer, (next answer).IsPassive

end Script

/-! ## Operations -/

/-- Something that happens in a workshop.  Sessions of callers go by the participant that drives
them and a name. -/
inductive Op
  | start (P : Participant) (name : Nat) (xid : Bytes)
  | finish (P : Participant) (name : Nat)
  | prepare (P : Participant) (name : Nat)
  | conclude (P : Participant) (name : Nat) (ending : Rehearsal.Ending)
  | drop (P : Participant) (name : Nat)
  /-- A statement of the caller's own on the connection of a session. -/
  | submit (P : Participant) (name : Nat) (q : Request)
  | addRegistry (P : Participant)
  | registered (P : Participant) (number : Nat) (call : Registry.Call)
  | inject (f : Engine.Injected)
  | clearInjected
  | setAvailable (on : Bool)
  | injectPrepared (xid : Bytes)
  | commitByXid (P : Participant) (xid : Bytes)
  | rollbackByXid (P : Participant) (xid : Bytes)
  | recover (P : Participant)
  | find (P : Participant) (xid : Bytes)
  | sweep (P : Participant) (stem : Bytes)
  | transact (m : Retry.Manager) (priority : Option Retry.Priority) (work : UInt32 → Script)

/-- The statements that the caller sends are no steps of the protocol. -/
def Op.IsPassive : Op → Prop
  | .submit _ _ q => Request.IsPassive q
  | .transact _ _ work => ∀ number, (work number).IsPassive
  | _ => True

/-- The operation leaves the branches of others alone, and speaks of xids to the engine from the
start of a branch on. -/
def Op.IsLocal : Op → Prop
  | .start P _ _ | .addRegistry P => P.dialect ≠ .postgres
  | .injectPrepared _ | .commitByXid _ _ | .rollbackByXid _ _ | .sweep _ _ => False
  | _ => True

/-- A plant with one engine and one pool over it, and the sessions that callers hold. -/
structure Workshop where
  plant : Plant
  held : Table (Participant × Nat) (Session Line) := ∅

namespace Workshop

/-- The number of the engine. -/
abbrev host : HostId := 0

/-- The number of the pool. -/
abbrev number : Nat := 1

/-- A workshop with a new engine and a new pool over it. -/
def new (version name : Bytes) (capacity : Nat) (timeout : Int64) : Workshop where
  plant := ((do
    let h ← Plant.addEngine { version }
    let _ ← Plant.addPool (.engine h) (.new name capacity timeout)
    return : Action Plant Unit).run {}).2

/-- The workshop after an action on its plant, however it ended. -/
def perform {α : Type} (w : Workshop) (x : Action Plant α) : Workshop :=
  { w with plant := (x.run w.plant).2 }

/-- Drives a session in place. -/
def drive (w : Workshop) (key : Participant × Nat) (x : Action (Session Line × Plant) Unit) :
    Workshop :=
  match w.held.get? key with
  | none => w
  | some s =>
    let (s, plant) := (x.run (s, w.plant)).2
    { plant, held := w.held.insert key s }

/-- Hands a session over to an operation. -/
def consume (w : Workshop) (key : Participant × Nat) (x : Session Line → Action Plant Unit) :
    Workshop :=
  match w.held.get? key with
  | none => w
  | some s => perform { w with held := w.held.insert key s.handedOver } (x s)

/-- Gives a session a name.  A session that had the name is dropped. -/
def keep (w : Workshop) (key : Participant × Nat) (s : Session Line) : Workshop :=
  let plant := match w.held.get? key with
    | some old => old.drop alone.keeper w.plant
    | none => w.plant
  { plant, held := w.held.insert key s }

/-- Names the session that an action starts, if it starts one. -/
def start (w : Workshop) (key : Participant × Nat) (x : Action Plant (Session Line)) : Workshop :=
  match x.run w.plant with
  | (.ok s, plant) => keep { w with plant } key s
  | (.error _, plant) => { w with plant }

/-- Drops a session. -/
def drop (w : Workshop) (key : Participant × Nat) : Workshop :=
  match w.held.get? key with
  | none => w
  | some s => { plant := s.drop alone.keeper w.plant, held := w.held.erase key }

/-- Sends a request on the connection of a session. -/
def submit (w : Workshop) (key : Participant × Nat) (q : Request) : Workshop :=
  match (w.held.get? key).bind (·.connection) with
  | none => w
  | some l => w.perform ((alone.lines l.target l.home).submit l q)

/-- How a session ends. -/
def conclude (P : Participant) (g : Gateway Plant Line) :
    Rehearsal.Ending → Session Line → Action Plant Unit
  | .commit => P.commit g
  | .commitOnePhase => P.commitOnePhase g
  | .rollback => P.rollback g

/-- Asks a registry, if it is there. -/
def registered (w : Workshop) (ref : RegistryRef)
    (x : Registry.Site Plant Line → Action Plant Unit) : Workshop :=
  if w.plant.registries.contains ref then w.perform (x (alone.registry ref)) else w

/-- Changes the engine. -/
def changeEngine (w : Workshop) (f : Engine → Engine) : Workshop :=
  { w with plant := ((hostCell host).within Host.engineCell).modify f w.plant }

/-- The workshop after an operation. -/
def step (w : Workshop) : Op → Workshop
  | .start P name xid => w.start (P, name) (P.start (counter host number) xid)
  | .finish P name => w.drive (P, name) (P.finish (beside host number) .first)
  | .prepare P name => w.drive (P, name) (P.prepare (beside host number) .first)
  | .conclude P name ending => w.consume (P, name) (conclude P (counter host number) ending)
  | .drop P name => w.drop (P, name)
  | .submit P name q => w.submit (P, name) q
  | .addRegistry P => w.perform (Plant.addRegistry ⟨P, poolOf host number⟩)
  | .registered P j call => w.registered (refOf host number j P) fun r => call.run r
  | .inject f => w.changeEngine (Engine.inject f)
  | .clearInjected => w.changeEngine Engine.clearInjected
  | .setAvailable on => w.changeEngine (Engine.setAvailable on)
  | .injectPrepared xid => w.changeEngine (Engine.injectPrepared xid)
  | .commitByXid P xid => w.perform (P.commitByXid (counter host number) xid)
  | .rollbackByXid P xid => w.perform (P.rollbackByXid (counter host number) xid)
  | .recover P => w.perform (P.recover (counter host number))
  | .find P xid => w.perform (P.find (counter host number) xid)
  | .sweep P stem => w.perform (P.sweep (counter host number) stem)
  | .transact m priority work =>
    w.perform (m.execute (counter host number) (fun _ => pure ()) priority
      fun l number => (work number).run l)

/-- The workshop after operations in order. -/
def run (w : Workshop) (ops : List Op) : Workshop := ops.foldl step w

/-- The sessions in the workshop, held by callers or registered. -/
def sessions (w : Workshop) : List (Session Line) :=
  w.held.values ++ w.plant.registries.values.flatMap Table.values

/-- The engine and its connections. -/
def backend (w : Workshop) : Host := (hostCell host).get w.plant

def pool (w : Workshop) : Pool Line := (poolCell (poolOf host number)).get w.plant

/-! ## Order -/

/-- The loans of the sessions that callers hold. -/
def heldLoans (held : Table (Participant × Nat) (Session Line)) : List Loan :=
  held.entries.flatMap fun e => (loanOf? e.1.1.dialect e.2).toList

/-- The loans of the registered sessions. -/
def filedLoans (R : Table RegistryRef (Registry Line)) : List Loan :=
  R.entries.flatMap fun e => loansOf e.1.owner.component.dialect e.2.values

/-- The loans of the pool are those of the sessions in the workshop, which are sound.  Where loans
are exact, every participant names its xids to the engine. -/
structure Orderly (exact : Prop) (w : Workshop) : Prop where
  lends : Lends host number exact w.plant.registries
    (heldLoans w.held ++ filedLoans w.plant.registries) w.plant
  held : ∀ key s, w.held.get? key = some s → Sound host number key.1.dialect s ∧
    (exact → key.1.dialect ≠ .postgres)
  filed : ∀ ref reg, w.plant.registries.get? ref = some reg →
    (∃ P, ref = refOf host number ref.number P) ∧
      (∀ s ∈ reg.values, Sound host number ref.owner.component.dialect s) ∧
      (exact → ref.owner.component.dialect ≠ .postgres)

variable {exact : Prop} {w : Workshop} {R : Table RegistryRef (Registry Line)} {loans : List Loan}
  {p : Plant} {s : Session Line} {key : Participant × Nat}

theorem heldLoans_perm {held : Table (Participant × Nat) (Session Line)}
    (hs : held.get? key = some s) : (heldLoans held).Perm
      ((loanOf? key.1.dialect s).toList ++ heldLoans (held.erase key)) :=
  (Table.entries_perm_of_get? hs).flatMap_right _

theorem heldLoans_insert (held : Table (Participant × Nat) (Session Line))
    (key : Participant × Nat) (s : Session Line) : (heldLoans (held.insert key s)).Perm
      ((loanOf? key.1.dialect s).toList ++ heldLoans (held.erase key)) :=
  (Table.entries_insert_perm held key s).flatMap_right _

/-- A plant with the same loans keeps a workshop orderly. -/
theorem Orderly.of_plant (hw : Orderly exact w)
    (hp : Lends host number exact w.plant.registries
      (heldLoans w.held ++ filedLoans w.plant.registries) p) :
    Orderly exact { w with plant := p } := by
  have hR : p.registries = w.plant.registries := hp.registries
  refine ⟨?_, hw.held, ?_⟩
  · show Lends host number exact p.registries (heldLoans w.held ++ filedLoans p.registries) p
    rw [hR]
    exact hp
  · show ∀ ref reg, p.registries.get? ref = some reg → _
    rw [hR]
    exact hw.filed

/-- An action on the plant that leaves the loans as they are keeps a workshop orderly. -/
theorem Orderly.perform {α : Type} {x : Action Plant α} (hw : Orderly exact w)
    (hx : x.Meets (Lends host number exact w.plant.registries
        (heldLoans w.held ++ filedLoans w.plant.registries))
      (fun _ => Lends host number exact w.plant.registries
        (heldLoans w.held ++ filedLoans w.plant.registries))
      fun _ => Lends host number exact w.plant.registries
        (heldLoans w.held ++ filedLoans w.plant.registries)) :
    Orderly exact (w.perform x) := by
  exact hw.of_plant (hx.state hw.lends)

/-! ## Sessions of callers -/

/-- A session of a caller is kept, besides all others. -/
theorem Orderly.keeps (hw : Orderly exact w) (hs : w.held.get? key = some s) :
    Keeps host number exact w.plant.registries key.1.dialect
      (heldLoans (w.held.erase key) ++ filedLoans w.plant.registries) s w.plant := by
  refine ⟨(hw.held key s hs).1, hw.lends.perm ?_⟩
  rw [← List.append_assoc]
  exact (heldLoans_perm hs).append_right _

/-- A session that is kept besides all others may take the place of one that callers held. -/
theorem Orderly.insert (hw : Orderly exact w) (hd : exact → key.1.dialect ≠ .postgres)
    (hk : Keeps host number exact w.plant.registries key.1.dialect
      (heldLoans (w.held.erase key) ++ filedLoans w.plant.registries) s p) :
    Orderly exact ⟨p, w.held.insert key s⟩ := by
  have hR : p.registries = w.plant.registries := hk.2.registries
  refine ⟨?_, fun key' s' hs' => ?_, ?_⟩
  · show Lends host number exact p.registries _ p
    rw [hR]
    refine hk.2.perm ?_
    rw [← List.append_assoc]
    exact (heldLoans_insert _ _ _).symm.append_right _
  · rw [Table.get?_insert] at hs'
    split at hs'
    · next hkey => subst hkey; cases hs'; exact ⟨hk.1, hd⟩
    · exact hw.held key' s' hs'
  · show ∀ ref reg, p.registries.get? ref = some reg → _
    rw [hR]
    exact hw.filed

theorem Orderly.drive {x : Action (Session Line × Plant) Unit} (hw : Orderly exact w)
    (hx : ∀ loans, x.Meets (KeepsFirst host number exact w.plant.registries key.1.dialect loans)
      (fun _ => KeepsFirst host number exact w.plant.registries key.1.dialect loans)
      fun _ => KeepsFirst host number exact w.plant.registries key.1.dialect loans) :
    Orderly exact (w.drive key x) := by
  unfold Workshop.drive
  cases hs : w.held.get? key with
  | none => exact hw
  | some s =>
    have hend := (hx _).state (s := (s, w.plant)) (hw.keeps hs)
    exact hw.insert (hw.held key s hs).2 hend

theorem Orderly.consume {x : Session Line → Action Plant Unit} (hw : Orderly exact w)
    (hx : ∀ loans s, (x s).Meets
      (Keeps host number exact w.plant.registries key.1.dialect loans s)
      (fun _ => Lends host number exact w.plant.registries loans)
      fun _ => Lends host number exact w.plant.registries loans) :
    Orderly exact (w.consume key x) := by
  unfold Workshop.consume
  cases hs : w.held.get? key with
  | none => exact hw
  | some s =>
    have hend := (hx _ s).state (hw.keeps hs)
    exact hw.insert (hw.held key s hs).2 (Keeps.of_closed rfl hend)

/-- A new session takes the place of one with its name, which is dropped. -/
theorem Orderly.keep (hw : Orderly exact w) (hd : exact → key.1.dialect ≠ .postgres)
    (hk : Keeps host number exact w.plant.registries key.1.dialect
      (heldLoans w.held ++ filedLoans w.plant.registries) s p) :
    Orderly exact (Workshop.keep { w with plant := p } key s) := by
  unfold Workshop.keep
  cases hs : w.held.get? key with
  | none =>
    refine hw.insert hd ?_
    rw [Table.erase_of_absent hs]
    exact hk
  | some old =>
    have hperm := ((heldLoans_perm hs).append_right
      (filedLoans w.plant.registries)).append_left (loanOf? key.1.dialect s).toList
    rw [List.append_assoc] at hperm
    have hold : Keeps host number exact w.plant.registries key.1.dialect
        ((loanOf? key.1.dialect s).toList ++
          (heldLoans (w.held.erase key) ++ filedLoans w.plant.registries)) old p :=
      ⟨(hw.held key old hs).1, (hk.2.perm hperm).perm (List.perm_append_comm_assoc ..)⟩
    exact hw.insert hd ⟨hk.1, hold.owes.drop⟩

theorem Orderly.start {P : Participant} {name : Nat} {x : Bytes} (hw : Orderly exact w)
    (hd : exact → P.dialect ≠ .postgres) :
    Orderly exact (w.start (P, name) (P.start (counter host number) x)) := by
  have hstart := start_meets (x := x) (P := P) w.plant hw.lends
  unfold Workshop.start
  rcases hr : (P.start (counter host number) x).run w.plant with ⟨f | s, p⟩
  · rw [hr] at hstart
    exact hw.of_plant hstart
  · rw [hr] at hstart
    exact Orderly.keep hw hd hstart.1

theorem Orderly.drop (hw : Orderly exact w) : Orderly exact (w.drop key) := by
  unfold Workshop.drop
  cases hs : w.held.get? key with
  | none => exact hw
  | some s =>
    have hp := (hw.keeps hs).owes.drop
    have hR := hp.registries
    refine ⟨?_, fun key' s' hs' => ?_, ?_⟩
    · show Lends host number exact (s.drop alone.keeper w.plant).registries
        (heldLoans (w.held.erase key) ++ filedLoans (s.drop alone.keeper w.plant).registries) _
      rw [show (s.drop alone.keeper w.plant).registries = _ from hR]
      exact hp
    · rw [Table.get?_erase] at hs'
      split at hs'
      · cases hs'
      · exact hw.held key' s' hs'
    · show ∀ ref reg, (s.drop alone.keeper w.plant).registries.get? ref = some reg → _
      rw [show (s.drop alone.keeper w.plant).registries = _ from hR]
      exact hw.filed

/-- A statement of the caller's own on a connection leaves every loan. -/
theorem Orderly.submit {q : Request} (hw : Orderly exact w) (hq : Request.IsPassive q) :
    Orderly exact (w.submit key q) := by
  unfold Workshop.submit
  cases hs : w.held.get? key with
  | none => exact hw
  | some s =>
    show Orderly exact (match s.connection with
      | none => w
      | some l => w.perform ((alone.lines l.target l.home).submit l q))
    cases hl : s.connection with
    | none => exact hw
    | some l =>
      have hline := (hw.held key s hs).1.line l hl
      rw [hline] at hl ⊢
      refine hw.of_plant ?_
      have hp := (submit_meets hq).state ((hw.keeps hs).lends hl)
      have hperm := (heldLoans_perm hs).append_right (filedLoans w.plant.registries)
      have hloan : loanOf? key.1.dialect s =
          some ⟨l.number, claim key.1.dialect s.xid (branchOf s.state l.number)⟩ := by
        rw [loanOf?, hl]
        rfl
      rw [hloan] at hperm
      exact hp.perm hperm.symm

/-! ## Registries -/

theorem filedLoans_perm {ref : RegistryRef} {reg : Registry Line} (hr : R.get? ref = some reg) :
    (filedLoans R).Perm
      (loansOf ref.owner.component.dialect reg.values ++ filedLoans (R.erase ref)) :=
  (Table.entries_perm_of_get? hr).flatMap_right _

/-- An operation on a registry that files what it found keeps a workshop orderly. -/
theorem Orderly.registered {P : Participant} {j : Nat}
    {x : Registry.Site Plant Line → Action Plant Unit} (hw : Orderly exact w)
    (hx : ∀ others rest, (x (alone.registry (refOf host number j P))).Meets
      (Files host number exact P j others rest) (fun _ => Files host number exact P j others rest)
      fun _ => Files host number exact P j others rest) :
    Orderly exact (w.registered (refOf host number j P) x) := by
  unfold Workshop.registered
  split
  · next hc =>
    obtain ⟨reg, hreg⟩ := (Table.contains_iff _ _).mp hc
    -- For the registry, all other loans are the rest, which its operations leave alone.
    have hfiles : Files host number exact P j (w.plant.registries.erase (refOf host number j P))
        (heldLoans w.held ++ filedLoans (w.plant.registries.erase (refOf host number j P)))
        w.plant := by
      refine ⟨_, reg, hreg, rfl, (hw.filed _ reg hreg).2.1, hw.lends.perm ?_⟩
      rw [List.append_assoc]
      exact ((filedLoans_perm hreg).trans List.perm_append_comm).append_left _
    obtain ⟨R, reg', hreg', hothers, hsound, hp⟩ := (hx _ _).state hfiles
    have hR : (w.perform (x (alone.registry (refOf host number j P)))).plant.registries = R :=
      hp.registries
    refine ⟨?_, hw.held, ?_⟩
    · rw [hR]
      refine hp.perm ?_
      rw [List.append_assoc, ← hothers]
      exact ((filedLoans_perm hreg').trans List.perm_append_comm).symm.append_left _
    · rw [hR]
      intro ref r hr
      by_cases href : ref = refOf host number j P
      · subst href
        rw [hreg'] at hr
        cases hr
        exact ⟨⟨P, rfl⟩, hsound, (hw.filed _ reg hreg).2.2⟩
      · -- The other registries are those that were there before.
        have hsame : (R.erase (refOf host number j P)).get? ref = some r := by
          rw [Table.get?_erase, if_neg href]
          exact hr
        rw [hothers, Table.get?_erase, if_neg href] at hsame
        exact hw.filed ref r hsame
  · exact hw

theorem Orderly.call {P : Participant} {j : Nat} (call : Registry.Call) (hw : Orderly exact w) :
    Orderly exact (w.registered (refOf host number j P) fun r => call.run r) := by
  refine hw.registered fun others rest => ?_
  cases call with
  | start xid => exact registered_start_meets
  | finish xid => exact registered_finish_meets
  | prepare xid => exact registered_prepare_meets
  | commit xid => exact registered_commit_meets
  | rollback xid => exact registered_rollback_meets

/-- A new registry has a number of its own and no sessions. -/
theorem Orderly.addRegistry {P : Participant} (hw : Orderly exact w)
    (hd : exact → P.dialect ≠ .postgres) :
    Orderly exact (w.perform (Plant.addRegistry ⟨P, poolOf host number⟩)) := by
  obtain ⟨host', pool, hh, hc, -⟩ := hw.lends
  have hnew : w.plant.registries.get? ⟨w.plant.next, ⟨P, poolOf host number⟩⟩ = none := by
    refine (Table.contains_eq_false_iff _ _).mp (Bool.eq_false_iff.mpr fun hcontains => ?_)
    exact Nat.lt_irrefl _ (hh.numbered _ hcontains)
  have hperm := (Table.entries_insert_perm w.plant.registries
    ⟨w.plant.next, ⟨P, poolOf host number⟩⟩ ∅).flatMap_right
      fun e => loansOf e.1.owner.component.dialect e.2.values
  rw [Table.erase_of_absent hnew] at hperm
  refine ⟨Lends.intro ⟨hh.host, hh.pool, rfl, fun ref hr => ?_⟩
    (hc.perm (hperm.symm.append_left _)),
    hw.held, fun ref reg hr => ?_⟩
  · change (w.plant.registries.insert _ ∅).contains ref = true at hr
    rw [Table.contains, Table.get?_insert] at hr
    show ref.number < w.plant.next + 1
    split at hr
    · next href => rw [href]; exact Nat.lt_succ_self _
    · exact Nat.lt_succ_of_lt (hh.numbered ref hr)
  · change (w.plant.registries.insert _ ∅).get? ref = some reg at hr
    rw [Table.get?_insert] at hr
    split at hr
    · next href =>
      cases hr
      subst href
      exact ⟨⟨P, rfl⟩, fun s hs => (by cases hs), hd⟩
    · exact hw.filed ref reg hr

/-! ## The engine -/

/-- A change of the engine that keeps connections in custody keeps a workshop orderly. -/
theorem Orderly.changeEngine {f : Engine → Engine} (hw : Orderly exact w)
    (hf : ∀ {loans : List Loan} {host' : Host} {pool : Pool Line},
      Custody (poolOf host number) exact loans host' pool →
        Custody (poolOf host number) exact loans { host' with engine := f host'.engine } pool) :
    Orderly exact (w.changeEngine f) := by
  refine hw.of_plant ?_
  obtain ⟨host', pool, hh, hc, -⟩ := hw.lends
  exact Lends.intro (hh.modify_host fun host' => { host' with engine := f host'.engine }) (hf hc)

/-! ## Work -/

theorem script_meets {h k n o} {script : Script} (hs : script.IsPassive) :
    (script.run (lineTo h k n)).Meets (Lends h k exact R (⟨n, o⟩ :: loans))
      (fun _ => Lends h k exact R (⟨n, o⟩ :: loans))
      fun _ => Lends h k exact R (⟨n, o⟩ :: loans) := by
  induction script with
  | done => exact .pure fun _ hp => hp
  | fail f => exact .fail fun _ hp => hp
  | submit q next ih =>
    have hone :
        ((alone.lines (.engine h) (some (poolOf h k))).submit (lineTo h k n) q).attempt.Meets
        (Lends h k exact R (⟨n, o⟩ :: loans)) (fun _ => Lends h k exact R (⟨n, o⟩ :: loans))
        fun _ => Lends h k exact R (⟨n, o⟩ :: loans) :=
      (submit_meets hs.1).attempt (fun _ _ hp => hp) fun _ _ hp => hp
    exact hone.bind fun answer => ih answer (hs.2 answer)

/-! ## Whole runs -/

/-- Every operation keeps a workshop orderly. -/
theorem orderly_step {op : Op} (hw : Orderly exact w) (hp : op.IsPassive)
    (hl : exact → op.IsLocal) : Orderly exact (w.step op) := by
  cases op with
  | start P name x => exact hw.start hl
  | finish P name => exact Orderly.drive hw fun _ => finish_meets
  | prepare P name => exact Orderly.drive hw fun _ => prepare_meets
  | conclude P name ending =>
    refine Orderly.consume hw fun _ _ => ?_
    cases ending with
    | commit => exact commit_meets
    | commitOnePhase => exact commitOnePhase_meets
    | rollback => exact rollback_meets
  | drop P name => exact hw.drop
  | submit P name q => exact hw.submit hp
  | addRegistry P => exact hw.addRegistry hl
  | registered P j call => exact hw.call call
  | inject f => exact hw.changeEngine fun hc => hc.note _ _ _
  | clearInjected => exact hw.changeEngine fun hc => hc.note _ _ _
  | setAvailable on => exact hw.changeEngine fun hc => hc.setAvailable on
  | injectPrepared x => exact hw.changeEngine fun hc => hc.injectPrepared hl x
  | commitByXid P x => exact hw.perform (commitByXid_meets hl)
  | rollbackByXid P x => exact hw.perform (rollbackByXid_meets hl)
  | recover P => exact hw.perform recover_meets
  | find P x => exact hw.perform find_meets
  | sweep P stem => exact hw.perform (sweep_meets hl)
  | transact m priority work =>
    refine hw.perform (transaction_meets (fun n number => script_meets (hp number)) fun _ => ?_)
    exact .pure fun _ hp => hp

theorem orderly_new (version name : Bytes) (capacity : Nat) (timeout : Int64) :
    Orderly exact (new version name capacity timeout) where
  lends := Lends.intro ⟨rfl, rfl, rfl, fun ref hr => by cases hr⟩
    (Custody.of_new _ version name capacity timeout)
  held key s hs := by cases hs
  filed ref reg hr := by cases hr

theorem orderly_run {ops : List Op} (hw : Orderly exact w) (hp : ∀ op ∈ ops, op.IsPassive)
    (hl : exact → ∀ op ∈ ops, op.IsLocal) : Orderly exact (w.run ops) := by
  induction ops generalizing w with
  | nil => exact hw
  | cons op ops ih =>
    exact ih (orderly_step hw (hp op List.mem_cons_self) fun he => hl he op List.mem_cons_self)
      (fun op hm => hp op (List.mem_cons_of_mem _ hm))
      fun he op hm => hl he op (List.mem_cons_of_mem _ hm)

end Workshop

end Coordinator.Plant

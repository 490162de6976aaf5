import Coordinator.Proofs.Journal.Engine
import Coordinator.Proofs.Plant.Workshop

/-! # The journal of a workshop

A plant is **discreet** (`Plant.Discreet`) when its journal is contained and nothing in it can make
it otherwise: the failures in store for its engines have printable texts, its pools have printable
names, and all its lines lead to engines.  What components see of a pool of such a plant is a
discreet gateway (`discreet_gateway`), so what is known of their records applies, and every
operation of a workshop keeps its plant discreet (`discreet_step`).

So of an xid, whatever its bytes, a record shows only its escaped form, unless the record is about a
failure: the text of the fault may repeat the statement, and the xid in it stands as it is
(`contained_run`). -/
namespace Coordinator

open Journal

/-- The line leads to an engine. -/
def Line.OnEngine (l : Line) : Prop := ∃ h, l.target = .engine h

/-- A pool with a printable name whose waiting lines lead to engines. -/
structure Pool.Discreet (pool : Pool Line) : Prop where
  name : pool.name.IsPrintable
  idle : ∀ l ∈ pool.idle, l.OnEngine

/-- What is taken off a pool, and what is left of it. -/
structure Pool.TakenOff (outcome : Pool.Checkout Line) (bad : List Line) (left : Pool Line) :
    Prop where
  left : left.Discreet
  bad : ∀ l ∈ bad, l.OnEngine
  reused : ∀ l, outcome = .reuse l → l.OnEngine

theorem Pool.Discreet.checkOut {pool pool' : Pool Line} (hpool : pool.Discreet)
    {healthy : Line → Bool} {outcome : Pool.Checkout Line} {bad : List Line}
    (h : pool.checkOut healthy = (outcome, bad, pool')) : Pool.TakenOff outcome bad pool' := by
  have hout := Pool.checkOut_checkedOut healthy pool
  rw [h] at hout
  cases hout with
  | @reuse bad rest l hidle =>
    have hall := hpool.idle
    rw [hidle] at hall
    refine ⟨⟨hpool.name, fun m hm => hall m ?_⟩, fun m hm => hall m ?_, fun m hm => ?_⟩
    · exact List.mem_append_right _ (List.mem_cons_of_mem _ hm)
    · exact List.mem_append_left _ hm
    · cases hm
      exact hall l (List.mem_append_right _ List.mem_cons_self)
  | reserved | exhausted => exact ⟨⟨hpool.name, nofun⟩, hpool.idle, nofun⟩

namespace Plant

/-- The plant tells no more of xids than a contained journal may. -/
structure Discreet (p : Plant) : Prop where
  hosts : ∀ {h host}, p.hosts.get? h = some host → host.engine.Presentable
  pools : ∀ {r pool}, p.pools.get? r = some pool → pool.Discreet
  sessions : ∀ {r reg x s}, p.registries.get? r = some reg → reg.get? x = some s →
    s.Known Line.OnEngine
  journal : ∀ r ∈ p.journal, Contained r

variable {p : Plant} {h : HostId} {r : PoolRef} {ref : RegistryRef} {l : Line}
  {pool : Pool Line} {x : Bytes}

namespace Discreet

theorem log (hp : p.Discreet) {record : Record} (hrecord : Contained record) :
    (alone.log record p).Discreet where
  hosts := hp.hosts
  pools := hp.pools
  sessions := hp.sessions
  journal := by
    intro record' hm
    rcases List.mem_append.mp hm with hm | hm
    · exact hp.journal record' hm
    · rw [List.mem_singleton.mp hm]
      exact hrecord

theorem get_host (hp : p.Discreet) (h : HostId) : ((hostCell h).get p).engine.Presentable := by
  show ((p.hosts.get? h).getD {}).engine.Presentable
  cases hh : p.hosts.get? h with
  | none => exact nofun
  | some host => exact hp.hosts hh

theorem set_host {host : Host} (hp : p.Discreet) (h : HostId) (hhost : host.engine.Presentable) :
    ((hostCell h).set host p).Discreet where
  hosts := by
    intro j host' hj
    change (p.hosts.modify h fun _ => host).get? j = some host' at hj
    rcases Table.eq_or_of_get?_replace hj with rfl | hj
    · exact hhost
    · exact hp.hosts hj
  pools := hp.pools
  sessions := hp.sessions
  journal := hp.journal

theorem get_pool (hp : p.Discreet) (r : PoolRef) : ((poolCell r).get p).Discreet := by
  show ((p.pools.get? r).getD (.new [] 0 0)).Discreet
  cases hr : p.pools.get? r with
  | none => exact ⟨nofun, nofun⟩
  | some pool => exact hp.pools hr

theorem set_pool (hp : p.Discreet) (r : PoolRef) (hpool : pool.Discreet) :
    ((poolCell r).set pool p).Discreet where
  hosts := hp.hosts
  pools := by
    intro j pool' hj
    change (p.pools.modify r fun _ => pool).get? j = some pool' at hj
    rcases Table.eq_or_of_get?_replace hj with rfl | hj
    · exact hpool
    · exact hp.pools hj
  sessions := hp.sessions
  journal := hp.journal

theorem get_registry (hp : p.Discreet) {s : Session Line}
    (hs : ((registryCell ref).get p).get? x = some s) : s.Known Line.OnEngine := by
  change ((p.registries.get? ref).getD ∅).get? x = some s at hs
  cases hr : p.registries.get? ref with
  | none => rw [hr] at hs; cases hs
  | some reg => rw [hr] at hs; exact hp.sessions hr hs

theorem set_registry (hp : p.Discreet) (ref : RegistryRef) {reg : Registry Line}
    (hreg : ∀ x s, reg.get? x = some s → s.Known Line.OnEngine) :
    ((registryCell ref).set reg p).Discreet where
  hosts := hp.hosts
  pools := hp.pools
  sessions := by
    intro j reg' x s hj hs
    change (p.registries.modify ref fun _ => reg).get? j = some reg' at hj
    rcases Table.eq_or_of_get?_replace hj with rfl | hj
    · exact hreg x s hs
    · exact hp.sessions hj hs
  journal := hp.journal

/-! ## Lines -/

theorem close (hp : p.Discreet) (hl : l.OnEngine) (target : Target) (home : Option PoolRef) :
    ((alone.lines target home).close l p).Discreet := by
  obtain ⟨h, hh⟩ := hl
  show ((alone.server l.target).close l.number p).Discreet
  rw [hh]
  exact hp.set_host h (hp.get_host h)

theorem poison (hp : p.Discreet) (hl : l.OnEngine) : (alone.keeper.poison l p).Discreet := by
  obtain ⟨h, hh⟩ := hl
  show ((alone.server l.target).poison l.number p).Discreet
  rw [hh]
  exact hp.set_host h (hp.get_host h)

theorem release (hp : p.Discreet) (hl : l.OnEngine) : (alone.release l p).Discreet := by
  unfold Site.release
  split
  · next r _ =>
    have hback (reusable : Bool) :
        ((poolCell r).set (((poolCell r).get p).giveBack reusable l) p).Discreet := by
      have hpool := hp.get_pool r
      refine hp.set_pool r ?_
      cases reusable with
      | true => exact ⟨hpool.name, List.forall_mem_cons.mpr ⟨hl, hpool.idle⟩⟩
      | false => exact ⟨hpool.name, hpool.idle⟩
    simp only [Pool.Site.release]
    split
    · exact hback _
    · exact (hback _).close hl _ _
  · exact hp.close hl _ _

end Discreet

/-! ## Gateways -/

/-- A line that is opened leads to the engine. -/
theorem connect_tells (home : Option PoolRef) :
    (alone.lines (.engine h) home).connect.Meets Discreet
      (fun l p => l.OnEngine ∧ p.Discreet) (TellsNothing Discreet) := by
  have hhost : Host.connect.Meets (fun host => host.engine.Presentable)
      (fun _ host => host.engine.Presentable)
      (TellsNothing fun host => host.engine.Presentable) := by
    intro host hhost
    rw [connect_run_host]
    by_cases ha : host.engine.available = true
    · rw [if_pos ha]
      exact hhost
    · rw [if_neg ha]
      exact ⟨by decide, hhost⟩
  have hserver : (alone.server (.engine h)).connect.Meets Discreet (fun _ => Discreet)
      (TellsNothing Discreet) := by
    refine hhost.onCell (fun p hp => hp.get_host h) (fun p _ host hp hh => ?_)
      fun p f host hp hh => ?_
    · exact hp.set_host h hh
    · exact ⟨hh.1, hp.set_host h hh.2⟩
  exact hserver.bind fun n => .pure fun p hp => ⟨⟨h, rfl⟩, hp⟩

theorem contained_discard (hpool : pool.Discreet) : Contained pool.discardRecord := by
  refine contained_of_isPrintable (by decide) (List.forall_mem_singleton.mpr ?_)
  exact ⟨show (ascii "pool").IsPrintable by decide, hpool.name⟩

theorem contained_exhausted (hpool : pool.Discreet) : Contained pool.exhaustedRecord := by
  refine contained_of_isPrintable (by decide) ?_
  simp only [List.forall_mem_cons, List.not_mem_nil, false_implies, implies_true, and_true]
  exact ⟨⟨show (ascii "pool").IsPrintable by decide, hpool.name⟩,
    Field.isPrintable_ofInt (by decide), Field.isPrintable_ofInt (by decide)⟩

theorem isPrintable_exhausted (hpool : pool.Discreet) :
    pool.exhaustedFault.message.IsPrintable := by
  refine Fault.isPrintable_of ?_
  simp only [List.forall_mem_cons, List.not_mem_nil, false_implies, implies_true, and_true]
  exact ⟨by decide, hpool.name, by decide, Decimal.isPrintable_ofInt _, by decide⟩

/-- Unhealthy lines are closed, each with a record. -/
theorem discreet_discard (hpool : pool.Discreet) {bad : List Line} (hbad : ∀ l ∈ bad, l.OnEngine)
    (hp : p.Discreet) : (bad.foldl (fun p l => (alone.pool r).backend.close l
      ((alone.pool r).log pool.discardRecord p)) p).Discreet := by
  induction bad generalizing p with
  | nil => exact hp
  | cons l bad ih =>
    have hl := hbad l List.mem_cons_self
    refine ih (fun m hm => hbad m (List.mem_cons_of_mem _ hm)) ?_
    exact (hp.log (contained_discard hpool)).close hl _ _

theorem acquire_tells (k : Nat) : (counter h k).acquire.Meets Discreet
    (fun l p => l.OnEngine ∧ p.Discreet) (TellsNothing Discreet) := by
  refine .read_bind fun (outcome, bad, pool) => ?_
  have htaken : (Action.update ((alone.pool (poolOf h k)).pool.set pool)).Meets
      (fun p => p.Discreet ∧ ((alone.pool (poolOf h k)).pool.get p).checkOut
        (fun l => (alone.pool (poolOf h k)).backend.isHealthy l p) = (outcome, bad, pool))
      (fun _ p => Pool.TakenOff outcome bad pool ∧ p.Discreet) (TellsNothing Discreet) := by
    rintro p ⟨hp, hout⟩
    have hoff := (hp.get_pool (poolOf h k)).checkOut hout
    exact ⟨hoff, hp.set_pool _ hoff.left⟩
  refine htaken.bind fun _ => .assuming fun hoff => ?_
  have hclosed : (Action.update fun p => bad.foldl (fun p l =>
      (alone.pool (poolOf h k)).backend.close l
        ((alone.pool (poolOf h k)).log pool.discardRecord p)) p).Meets Discreet
      (fun _ => Discreet) (TellsNothing Discreet) :=
    .update fun p hp => discreet_discard hoff.left hoff.bad hp
  refine hclosed.bind fun _ => ?_
  cases outcome with
  | reuse l => exact .pure fun p hp => ⟨hoff.reused l rfl, hp⟩
  | reserved =>
    refine (connect_tells _).onFailure fun f p hp => ⟨hp.1, hp.2.set_pool _ ?_⟩
    have hpool := hp.2.get_pool (poolOf h k)
    exact ⟨hpool.name, hpool.idle⟩
  | exhausted =>
    have hnoted : (Action.update (alone.log pool.exhaustedRecord)).Meets Discreet
        (fun _ => Discreet) (TellsNothing Discreet) :=
      .update fun p hp => hp.log (contained_exhausted hoff.left)
    exact hnoted.bind fun _ => .fail fun p hp => ⟨isPrintable_exhausted hoff.left, hp⟩

theorem sendOn_tells (h : HostId) (n : Engine.ConnectionId) (sql : Bytes) :
    (sendOn h n sql).Meets Discreet (fun _ => Discreet) (Tells sql Discreet) :=
  Host.send_tells (fun _ hp => hp.get_host h) (fun _ _ hp hh => hp.set_host h hh) n sql

/-- What components see of a pool over an engine. -/
theorem discreet_gateway (h : HostId) (k : Nat) :
    (counter h k).Discreet Line.OnEngine Discreet where
  acquire := acquire_tells k
  execute := by
    intro l sql hl
    obtain ⟨h', hh⟩ := hl
    show ((alone.server l.target).execute l.number sql).Meets _ _ _
    rw [hh]
    exact (sendOn_tells h' l.number sql).bind fun _ => .pure fun p hp => hp
  query := by
    intro l sql hl
    obtain ⟨h', hh⟩ := hl
    show ((alone.server l.target).query l.number sql []).Meets _ _ _
    rw [hh]
    exact sendOn_tells h' l.number sql
  release := fun hl hp => hp.release hl
  poison := fun hl hp => hp.poison hl
  log := fun hr hp => hp.log hr

/-- A request of the caller's own is not reported. -/
theorem submit_keeps (hl : l.OnEngine) (q : Request) :
    ((alone.lines l.target l.home).submit l q).Meets Discreet (fun _ => Discreet)
      fun _ => Discreet := by
  obtain ⟨target, n, home⟩ := l
  obtain ⟨h, rfl⟩ := hl
  -- What becomes of a request does not depend on the pool that lent the line.
  have hhome : (alone.lines (.engine h) home).submit ⟨.engine h, n, home⟩ q =
      (alone.lines (.engine h) (some (poolOf h 0))).submit (lineTo h 0 n) q := by
    cases q with
    | plain | bound | rows => rfl
  show ((alone.lines (.engine h) home).submit ⟨.engine h, n, home⟩ q).Meets _ _ _
  rw [hhome]
  refine submit_of_send fun sql _ => ?_
  exact keeps_of_tells (sendOn_tells h n sql)

/-- A registry of a participant over a pool. -/
theorem discreet_registry {P : Participant} (hP : P.name.IsPrintable) (h : HostId) (k j : Nat) :
    (alone.registry (refOf h k j P)).Discreet Line.OnEngine Discreet where
  gateway := discreet_gateway h k
  name := hP
  sessions := fun hp hs => hp.get_registry hs
  erase := by
    intro p x hp
    exact hp.set_registry _ fun y s hs => hp.get_registry (Table.get?_of_get?_erase hs)
  insert := by
    intro p s hs hp
    refine hp.set_registry _ fun y s' hs' => ?_
    rcases Table.eq_or_of_get?_insert hs' with rfl | hs'
    · exact hs
    · exact hp.get_registry hs'

/-! ## Workshops -/

/-- Participants have printable names, and injected failures printable texts.  Work under a retry
manager is left out: its faults say what the caller likes. -/
def Op.IsLegible : Op → Prop
  | .start P _ _ | .finish P _ | .prepare P _ | .conclude P _ _ | .addRegistry P
  | .registered P _ _ | .commitByXid P _ | .rollbackByXid P _ | .recover P | .find P _
  | .sweep P _ => P.name.IsPrintable
  | .inject f => f.message.IsPrintable
  | .drop _ _ | .submit _ _ _ | .clearInjected | .setAvailable _ | .injectPrepared _ => True
  | .transact _ _ _ => False

namespace Workshop

/-- The plant is discreet, and the sessions that callers hold are on lines to engines. -/
structure Discreet (w : Workshop) : Prop where
  plant : w.plant.Discreet
  held : ∀ {key s}, w.held.get? key = some s → s.Known Line.OnEngine

variable {w : Workshop} {key : Participant × Nat} {s : Session Line} {P : Participant}

namespace Discreet

theorem perform {α : Type} {y : Action Plant α} (hw : w.Discreet)
    (hy : y.Meets Plant.Discreet (fun _ => Plant.Discreet) fun _ => Plant.Discreet) :
    (w.perform y).Discreet := ⟨hy.state hw.plant, hw.held⟩

theorem insert (hw : w.Discreet) (hp : p.Discreet) (hs : s.Known Line.OnEngine) :
    Discreet ⟨p, w.held.insert key s⟩ where
  plant := hp
  held := by
    intro key' s' hs'
    rcases Table.eq_or_of_get?_insert hs' with rfl | hs'
    · exact hs
    · exact hw.held hs'

theorem drive {y : Action (Session Line × Plant) Unit} (hw : w.Discreet)
    (hy : y.Meets (Participant.KnownFirst Line.OnEngine Plant.Discreet)
      (fun _ => Participant.KnownFirst Line.OnEngine Plant.Discreet)
      fun _ => Participant.KnownFirst Line.OnEngine Plant.Discreet) :
    (w.drive key y).Discreet := by
  unfold Workshop.drive
  cases hs : w.held.get? key with
  | none => exact hw
  | some s =>
    have hend := hy.state (s := (s, w.plant)) ⟨hw.held hs, hw.plant⟩
    exact hw.insert hend.2 hend.1

theorem consume {y : Session Line → Action Plant Unit} (hw : w.Discreet)
    (hy : ∀ s, s.Known Line.OnEngine →
      (y s).Meets Plant.Discreet (fun _ => Plant.Discreet) (Tells s.xid Plant.Discreet)) :
    (w.consume key y).Discreet := by
  unfold Workshop.consume
  cases hs : w.held.get? key with
  | none => exact hw
  | some s =>
    have hend : ((y s).run w.plant).2.Discreet :=
      (keeps_of_tells (hy s (hw.held hs))).state hw.plant
    exact hw.insert hend (Session.known_of_none rfl)

theorem drop_plant (hs : s.Known Line.OnEngine) (hp : p.Discreet) :
    (s.drop alone.keeper p).Discreet := s.good_drop (discreet_gateway host number) hs hp

theorem keep (hw : w.Discreet) (hs : s.Known Line.OnEngine) : (w.keep key s).Discreet := by
  unfold Workshop.keep
  refine hw.insert ?_ hs
  cases hold : w.held.get? key with
  | none => exact hw.plant
  | some old => exact drop_plant (hw.held hold) hw.plant

theorem start {name : Nat} (hw : w.Discreet) (hP : P.name.IsPrintable) (x : Bytes) :
    (w.start (P, name) (P.start (counter host number) x)).Discreet := by
  have hstart := Participant.start_tells (discreet_gateway host number) hP x w.plant hw.plant
  unfold Workshop.start
  rcases hr : (P.start (counter host number) x).run w.plant with ⟨f | s, p⟩ <;> rw [hr] at hstart
  · exact ⟨hstart.2, hw.held⟩
  · exact keep (w := { w with plant := p }) ⟨hstart.2.2, hw.held⟩ hstart.2.1

theorem drop (hw : w.Discreet) : (w.drop key).Discreet := by
  unfold Workshop.drop
  cases hs : w.held.get? key with
  | none => exact hw
  | some s =>
    exact ⟨drop_plant (hw.held hs) hw.plant, fun hs' => hw.held (Table.get?_of_get?_erase hs')⟩

theorem submit (hw : w.Discreet) (q : Request) : (w.submit key q).Discreet := by
  unfold Workshop.submit
  cases hline : (w.held.get? key).bind (·.connection) with
  | none => exact hw
  | some l =>
    obtain ⟨s, hs, hl⟩ := Option.bind_eq_some_iff.mp hline
    exact hw.perform (submit_keeps (hw.held hs l hl) q)

theorem registered {ref : RegistryRef} {y : Registry.Site Plant Line → Action Plant Unit}
    (hw : w.Discreet) (hy : (y (alone.registry ref)).Meets Plant.Discreet
      (fun _ => Plant.Discreet) fun _ => Plant.Discreet) : (w.registered ref y).Discreet := by
  unfold Workshop.registered
  split
  · exact hw.perform hy
  · exact hw

theorem call {j : Nat} (hw : w.Discreet) (hP : P.name.IsPrintable) (call : Registry.Call) :
    (w.registered (refOf host number j P) fun r => call.run r).Discreet := by
  have hr := discreet_registry hP host number j
  refine hw.registered ?_
  cases call with
  | start x => exact Registry.Site.start_keeps hr x
  | finish x => exact Registry.Site.finish_keeps hr x
  | prepare x => exact Registry.Site.prepare_keeps hr x
  | commit x => exact Registry.Site.commit_keeps hr x
  | rollback x => exact Registry.Site.rollback_keeps hr x

theorem addRegistry (hw : w.Discreet) (owner : Pooled Participant) :
    (w.perform (Plant.addRegistry owner)).Discreet := by
  refine hw.perform fun p hp => ?_
  refine ⟨hp.hosts, hp.pools, fun {r reg x s} hr hs => ?_, hp.journal⟩
  rcases Table.eq_or_of_get?_insert hr with rfl | hr
  · cases hs
  · exact hp.sessions hr hs

theorem changeEngine {f : Engine → Engine} (hw : w.Discreet)
    (hf : ∀ e : Engine, e.Presentable → (f e).Presentable) : (w.changeEngine f).Discreet :=
  ⟨hw.plant.set_host host (hf _ (hw.plant.get_host host)), hw.held⟩

end Discreet

/-- Every operation keeps a workshop discreet. -/
theorem discreet_step {op : Op} (hw : w.Discreet) (hop : op.IsLegible) : (w.step op).Discreet := by
  have hg := discreet_gateway host number
  cases op with
  | start P name x => exact hw.start hop x
  | finish P name => exact hw.drive (Participant.finish_keeps hg hop)
  | prepare P name => exact hw.drive (Participant.prepare_keeps hg hop)
  | conclude P name ending =>
    refine hw.consume fun s hs => ?_
    cases ending with
    | commit => exact Participant.commit_tells hg hop hs
    | commitOnePhase => exact Participant.commitOnePhase_tells hg hop hs
    | rollback => exact Participant.rollback_tells hg hop hs
  | drop P name => exact hw.drop
  | submit P name q => exact hw.submit q
  | addRegistry P => exact hw.addRegistry _
  | registered P j call => exact hw.call hop call
  | inject f =>
    refine hw.changeEngine fun e he f' hf' => ?_
    rcases List.mem_append.mp hf' with hf' | hf'
    · exact he f' hf'
    · rw [List.mem_singleton.mp hf']
      exact hop
  | clearInjected => exact hw.changeEngine fun e he => nofun
  | setAvailable on => exact hw.changeEngine fun e he => he
  | injectPrepared x => exact hw.changeEngine fun e he => he
  | commitByXid P x =>
    exact hw.perform (keeps_of_tells (Participant.commitByXid_tells hg hop x))
  | rollbackByXid P x =>
    exact hw.perform (keeps_of_tells (Participant.rollbackByXid_tells hg hop x))
  | recover P => exact hw.perform (Participant.recover_keeps hg hop)
  | find P x => exact hw.perform (Participant.find_keeps hg hop x)
  | sweep P stem => exact hw.perform (Participant.sweep_keeps hg hop stem)
  | transact m priority work => exact hop.elim

theorem discreet_new {name : Bytes} (hname : name.IsPrintable) (version : Bytes) (capacity : Nat)
    (timeout : Int64) : (new version name capacity timeout).Discreet where
  plant := {
    hosts := by
      intro h host' hh
      rcases Table.eq_or_of_get?_insert (t := ∅) hh with rfl | hh
      · exact nofun
      · cases hh
    pools := by
      intro r pool hr
      rcases Table.eq_or_of_get?_insert (t := ∅) hr with rfl | hr
      · exact ⟨hname, nofun⟩
      · cases hr
    sessions := fun hr => (by cases hr)
    journal := nofun }
  held := fun hs => (by cases hs)

theorem discreet_run {ops : List Op} (hw : w.Discreet) (hops : ∀ op ∈ ops, op.IsLegible) :
    (w.run ops).Discreet := by
  induction ops generalizing w with
  | nil => exact hw
  | cons op ops ih =>
    exact ih (discreet_step hw (hops op List.mem_cons_self)) fun op' hm =>
      hops op' (List.mem_cons_of_mem _ hm)

/-- After any operations a record is printable, or it is about a failure, and then all of it but
the text of the fault is, and that but for bytes of the xid that the record names. -/
theorem contained_run (version name : Bytes) (capacity : Nat) (timeout : Int64) (ops : List Op)
    (hname : name.IsPrintable) (hops : ∀ op ∈ ops, op.IsLegible) :
    ∀ r ∈ ((new version name capacity timeout).run ops).plant.journal, Contained r :=
  (discreet_run (discreet_new hname version capacity timeout) hops).plant.journal

/-- The engine turns a branch away, under an xid with a newline. -/
def turnedAway : List Op :=
  [.inject ⟨ascii "XA START", .internal, ascii "boom", true⟩,
    .start ⟨ascii "p", .mysql⟩ 0 [97, 10, 98]]

theorem isLegible_turnedAway : ∀ op ∈ turnedAway, op.IsLegible := by
  refine List.forall_mem_cons.mpr ⟨?_, List.forall_mem_singleton.mpr ?_⟩
  · show (ascii "boom").IsPrintable
    decide
  · show (ascii "p").IsPrintable
    decide

theorem contained_turnedAway : (ascii "P").IsPrintable ∧ (∀ op ∈ turnedAway, op.IsLegible) ∧
    ∀ r ∈ ((new Engine.defaultVersion (ascii "P") 8 5000).run turnedAway).plant.journal,
      Contained r := by
  have hname : (ascii "P").IsPrintable := by decide
  refine ⟨hname, isLegible_turnedAway, ?_⟩
  exact contained_run Engine.defaultVersion (ascii "P") 8 5000 turnedAway hname isLegible_turnedAway

/-- The text of the fault repeats the statement, and with it the newline. -/
theorem newline_in_record : (ascii "P").IsPrintable ∧ (∀ op ∈ turnedAway, op.IsLegible) ∧
    ∃ r ∈ ((new Engine.defaultVersion (ascii "P") 8 5000).run turnedAway).plant.journal,
      r.text = ascii ("XA statement failed participant=p op=begin xid=\"a\\x0ab\" " ++
        "error=boom (XA START 'a\nb')") ∧ ¬ r.text.IsPrintable :=
  ⟨by decide, isLegible_turnedAway, by decide +kernel⟩

end Workshop
end Plant
end Coordinator

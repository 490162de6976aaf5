import Coordinator.Proofs.Contract
import Coordinator.Proofs.Engine.Protocol
import Coordinator.Proofs.Plant.Custody
import Coordinator.Proofs.Pool.Steps

/-! # A pool over an engine at work

A plant **holds** an engine and a pool over it (`Holds`), and the connections of the pool are in
the custody of whoever has them on loan (`Lends`).  This file says what each thing that a component
may do with the pool makes of the loans: `acquire_meets` for a connection lent, `execute_meets` for
a statement, `Lends.release` and `Lends.discard` for a connection given back clean or given up.

A failing statement leaves the loans as they were, whatever it was and for whatever reason it
failed.  What a statement that succeeds does to the branch of its loan is a relation between the
loan before and after (`Turns`), which holds of a text by how the engine reads it. -/
namespace Coordinator.Plant

open Engine (Branch Branches ConnectionId Statement Verb)

/-- The pool with a number over an engine. -/
abbrev poolOf (h : HostId) (k : Nat) : PoolRef := ⟨k, .engine h⟩

/-- What components see of the pool with a number over an engine. -/
abbrev counter (h : HostId) (k : Nat) : Gateway Plant Line := alone.gateway (poolOf h k)

/-- A connection of the pool with a number over an engine. -/
abbrev lineTo (h : HostId) (k : Nat) (n : ConnectionId) : Line := lineOf (poolOf h k) n

variable {h : HostId} {k : Nat} {exact : Prop} {R : Table RegistryRef (Registry Line)}
  {loans : List Loan} {loan : Loan} {host host' : Host} {pool pool' : Pool Line} {p : Plant}
  {n : ConnectionId} {o o' : Option (Bytes × Branch)} {sql x : Bytes} {Q : Host → Prop}

/-- The plant has an engine with its connections, a pool over it, and registries, whose numbers are
all taken. -/
structure Holds (h : HostId) (k : Nat) (R : Table RegistryRef (Registry Line)) (host : Host)
    (pool : Pool Line) (p : Plant) : Prop where
  host : p.hosts.get? h = some host
  pool : p.pools.get? (poolOf h k) = some pool
  registries : p.registries = R
  numbered : ∀ ref, R.contains ref = true → ref.number < p.next

namespace Holds

theorem get_host (hp : Holds h k R host pool p) : (hostCell h).get p = host := by
  show (p.hosts.get? h).getD {} = host
  rw [hp.host]
  rfl

theorem get_pool (hp : Holds h k R host pool p) : (poolCell (poolOf h k)).get p = pool := by
  show (p.pools.get? (poolOf h k)).getD (.new [] 0 0) = pool
  rw [hp.pool]
  rfl

theorem set_host (hp : Holds h k R host pool p) (host' : Host) :
    Holds h k R host' pool ((hostCell h).set host' p) where
  host := by
    show (p.hosts.modify h fun _ => host').get? h = _
    rw [Table.get?_modify, if_pos rfl, hp.host]
    rfl
  pool := hp.pool
  registries := hp.registries
  numbered := hp.numbered

theorem set_pool (hp : Holds h k R host pool p) (pool' : Pool Line) :
    Holds h k R host pool' ((poolCell (poolOf h k)).set pool' p) where
  host := hp.host
  pool := by
    show (p.pools.modify (poolOf h k) fun _ => pool').get? (poolOf h k) = _
    rw [Table.get?_modify, if_pos rfl, hp.pool]
    rfl
  registries := hp.registries
  numbered := hp.numbered

theorem modify_host (hp : Holds h k R host pool p) (f : Host → Host) :
    Holds h k R (f host) pool ((hostCell h).modify f p) := by
  have := hp.set_host (f host)
  rw [← hp.get_host] at this ⊢
  exact this

theorem modify_pool (hp : Holds h k R host pool p) (f : Pool Line → Pool Line) :
    Holds h k R host (f pool) ((poolCell (poolOf h k)).modify f p) := by
  have := hp.set_pool (f pool)
  rw [← hp.get_pool] at this ⊢
  exact this

theorem log (hp : Holds h k R host pool p) (r : Journal.Record) :
    Holds h k R host pool (alone.log r p) := ⟨hp.host, hp.pool, hp.registries, hp.numbered⟩

theorem poison (hp : Holds h k R host pool p) (n : ConnectionId) :
    Holds h k R (host.poison n) pool ((counter h k).poison (lineTo h k n) p) := by
  have := hp.set_host (host.poison n)
  rw [← hp.get_host] at this ⊢
  exact this

theorem close (hp : Holds h k R host pool p) (n : ConnectionId) :
    Holds h k R (host.close n) pool
      ((alone.lines (.engine h) (some (poolOf h k))).close (lineTo h k n) p) := by
  have := hp.set_host (host.close n)
  rw [← hp.get_host] at this ⊢
  exact this

/-- Discarded connections are closed on the engine, and the pool stays as it is. -/
theorem discard (hp : Holds h k R host pool p) (r : Journal.Record) {bad : List Line}
    (hbad : ∀ l ∈ bad, l = lineTo h k l.number) :
    Holds h k R (bad.foldl (fun host l => host.close l.number) host) pool
      (bad.foldl (fun p l => (alone.lines (.engine h) (some (poolOf h k))).close l (alone.log r p))
        p) := by
  induction bad generalizing host p with
  | nil => exact hp
  | cons l bad ih =>
    have hl := hbad l List.mem_cons_self
    have hclosed := (hp.log r).close l.number
    rw [← hl] at hclosed
    exact ih hclosed fun l' hl' => hbad l' (List.mem_cons_of_mem _ hl')

/-- A line goes back to the pool that lent it while the plant has that pool. -/
theorem release_eq (hp : Holds h k R host pool p) (n : ConnectionId) :
    (counter h k).release (lineTo h k n) p =
      (alone.pool (poolOf h k)).release (lineTo h k n) p := by
  have hpool : p.pools.contains (poolOf h k) = true := (Table.contains_iff _ _).mpr ⟨pool, hp.pool⟩
  have hhome : (lineTo h k n).home.filter (alone.plant.get p).pools.contains =
      some (poolOf h k) := (Option.filter_some ..).trans (if_pos hpool)
  show alone.release (lineTo h k n) p = _
  rw [Site.release, hhome]

/-- What becomes of a line given back: it waits again if it can be lent again, or it is closed and
its place is free. -/
theorem release (hp : Holds h k R host pool p) (n : ConnectionId) :
    if !host.isPoisoned n && host.isHealthy n then
      Holds h k R host { pool with idle := lineTo h k n :: pool.idle }
        ((counter h k).release (lineTo h k n) p)
    else
      Holds h k R (host.close n) { pool with live := pool.live - 1 }
        ((counter h k).release (lineTo h k n) p) := by
  rw [hp.release_eq]
  have hreusable : (!(alone.pool (poolOf h k)).backend.isPoisoned (lineTo h k n) p &&
      (alone.pool (poolOf h k)).backend.isHealthy (lineTo h k n) p) =
        (!host.isPoisoned n && host.isHealthy n) := by
    rw [← hp.get_host]
    rfl
  have hback : ((alone.pool (poolOf h k)).pool.modify
      (Pool.giveBack (!host.isPoisoned n && host.isHealthy n) (lineTo h k n)) p) =
        (poolCell (poolOf h k)).set
          (pool.giveBack (!host.isPoisoned n && host.isHealthy n) (lineTo h k n)) p := by
    conv_rhs => rw [← hp.get_pool]
    rfl
  simp only [Pool.Site.release, hreusable, hback]
  have hset := hp.set_pool (pool.giveBack (!host.isPoisoned n && host.isHealthy n) (lineTo h k n))
  split
  · next hr =>
    rw [hr] at hset ⊢
    exact hset
  · next hr =>
    rw [Bool.not_eq_true] at hr
    rw [hr] at hset ⊢
    exact hset.close n

end Holds

/-- The plant has a pool over an engine whose connections are in custody, with the given loans out,
and its engine is as said. -/
def LendsIf (h : HostId) (k : Nat) (exact : Prop) (R : Table RegistryRef (Registry Line))
    (Q : Host → Prop) (loans : List Loan) (p : Plant) : Prop :=
  ∃ host pool, Holds h k R host pool p ∧ Custody (poolOf h k) exact loans host pool ∧ Q host

/-- The plant has a pool over an engine whose connections are in custody, with the given loans
out. -/
abbrev Lends (h : HostId) (k : Nat) (exact : Prop) (R : Table RegistryRef (Registry Line)) :
    List Loan → Plant → Prop := LendsIf h k exact R fun _ => True

namespace Lends

theorem intro (hp : Holds h k R host pool p) (hc : Custody (poolOf h k) exact loans host pool) :
    Lends h k exact R loans p := ⟨host, pool, hp, hc, trivial⟩

theorem perm {loans' : List Loan} (hp : Lends h k exact R loans p) (hl : loans.Perm loans') :
    Lends h k exact R loans' p := by
  obtain ⟨host, pool, hh, hc, -⟩ := hp
  exact intro hh (hc.perm hl)

theorem log (hp : Lends h k exact R loans p) (r : Journal.Record) :
    Lends h k exact R loans ((counter h k).log r p) := by
  obtain ⟨host, pool, hh, hc, -⟩ := hp
  exact intro (hh.log r) hc

theorem poison (hp : Lends h k exact R loans p) (n : ConnectionId) :
    Lends h k exact R loans ((counter h k).poison (lineTo h k n) p) := by
  obtain ⟨host, pool, hh, hc, -⟩ := hp
  exact intro (hh.poison n) (hc.relink fun m => Table.contains_modify _ _ _ _)

theorem registries (hp : Lends h k exact R loans p) : p.registries = R := by
  obtain ⟨host, pool, hh, -, -⟩ := hp
  exact hh.registries

/-- A connection without a branch goes back, poisoned or not. -/
theorem release (hp : Lends h k exact R (⟨n, none⟩ :: loans) p) :
    Lends h k exact R loans ((counter h k).release (lineTo h k n) p) := by
  obtain ⟨host, pool, hh, hc, -⟩ := hp
  have hr := hh.release n
  split at hr
  · exact intro hr hc.giveBack
  · exact intro hr hc.close

/-- A connection given up is closed, whatever branch it has. -/
theorem discard (hp : Lends h k exact R (loan :: loans) p) (r : Journal.Record) :
    Lends h k exact R loans ((counter h k).release (lineTo h k loan.number)
      ((counter h k).log r ((counter h k).poison (lineTo h k loan.number) p))) := by
  obtain ⟨host, pool, hh, hc, -⟩ := hp
  have hr := ((hh.poison loan.number).log r).release loan.number
  obtain ⟨link, hlink⟩ :=
    (Table.contains_iff _ _).mp (hc.known _ (Custody.mem_numbers_lent List.mem_cons_self)).2
  have hpoisoned : (host.poison loan.number).isPoisoned loan.number = true := by
    show ((host.links.modify loan.number _).get? loan.number).any _ = true
    rw [Table.get?_modify, if_pos rfl, hlink]
    rfl
  rw [hpoisoned, Bool.not_true, Bool.false_and, if_neg Bool.false_ne_true] at hr
  have hc' : Custody (poolOf h k) exact (loan :: loans) (host.poison loan.number) pool :=
    hc.relink fun m => Table.contains_modify _ _ _ _
  exact intro hr hc'.close

end Lends

/-! ## Connections lent -/

theorem isBroken_close {m : ConnectionId} (hn : host.isBroken n = false) :
    (host.close m).isBroken n = false := by
  show ((host.links.erase m).get? n).any _ = false
  rw [Table.get?_erase]
  split
  · rfl
  · exact hn

theorem isBroken_connected (host : Host) :
    (connected host).isBroken host.engine.nextConnection = false := by
  show ((host.links.insert _ {}).get? _).any _ = false
  rw [Table.get?_insert, if_pos rfl]
  rfl

/-- A connection that closes gives no other one an unprepared branch. -/
theorem hasOpen_close {m : ConnectionId} (hn : host.engine.branches.hasOpen n = false) :
    (host.close m).engine.branches.hasOpen n = false :=
  Branches.hasOpen_of_fewer (fun _ _ hx => (Branches.get?_of_get?_disconnect hx).1) hn

/-- What survives a connection without a branch that closes survives a list of them. -/
theorem foldl_close
    (hclose : ∀ host n, host.engine.branches.hasOpen n = false → Q host → Q (host.close n))
    (hq : Q host) {bad : List Line}
    (hfree : ∀ l ∈ bad, host.engine.branches.hasOpen l.number = false) :
    Q (bad.foldl (fun host l => host.close l.number) host) := by
  induction bad generalizing host with
  | nil => exact hq
  | cons l bad ih =>
    refine ih (hclose host l.number (hfree l List.mem_cons_self) hq) fun l' hl' => ?_
    exact hasOpen_close (hfree l' (List.mem_cons_of_mem _ hl'))

/-- Only waiting connections are discarded. -/
theorem mem_idle_of_checkOut (pool : Pool Line) (healthy : Line → Bool) (l : Line)
    (hl : l ∈ (pool.checkOut healthy).2.1) : l ∈ pool.idle := by
  simp only [Pool.checkOut] at hl
  have : l ∈ pool.idle.takeWhile fun l => !healthy l := by
    split at hl
    · exact hl
    · split at hl <;> exact hl
  exact List.takeWhile_subset _ this

/-- What is left to do once the unhealthy connections taken off the pool are closed. -/
def settle (h : HostId) (k : Nat) (pool : Pool Line) : Pool.Checkout Line → Action Plant Line
  | .reuse l => pure l
  | .reserved => (alone.lines (.engine h) (some (poolOf h k))).connect.onFailure
      fun _ => (poolCell (poolOf h k)).modify Pool.openFailed
  | .exhausted => do
    Action.update (alone.log pool.exhaustedRecord)
    Action.fail pool.exhaustedFault

theorem acquire_run (hp : Holds h k R host pool p) {outcome : Pool.Checkout Line}
    {bad : List Line} (hco : pool.checkOut (fun l =>
      (alone.lines (.engine h) (some (poolOf h k))).isHealthy l p) = (outcome, bad, pool')) :
    (counter h k).acquire.run p = (settle h k pool' outcome).run
      (bad.foldl (fun p l => (alone.lines (.engine h) (some (poolOf h k))).close l
        (alone.log pool'.discardRecord p)) ((poolCell (poolOf h k)).set pool' p)) := by
  have hco' : ((alone.pool (poolOf h k)).pool.get p).checkOut
      (fun l => (alone.pool (poolOf h k)).backend.isHealthy l p) = (outcome, bad, pool') := by
    rw [← hco, ← hp.get_pool]
    rfl
  show (alone.pool (poolOf h k)).acquire.run p = _
  rw [Pool.Site.acquire, Action.run_bind, Action.run_read, hco']
  cases outcome <;> rfl

/-- A caller of the pool is a customer whose steps have nothing in between. -/
theorem acquire_alone (hp : Holds h k R host pool p) :
    (alone.pool (poolOf h k)).Leads .look p (Pool.lent ((counter h k).acquire.run p)) := by
  have hclose (l : Line) (p' : Plant) : (poolCell (poolOf h k)).get
      ((alone.lines (.engine h) (some (poolOf h k))).close l p') =
        (poolCell (poolOf h k)).get p' := by
    obtain ⟨_ | path, number, home⟩ := l <;> rfl
  exact Pool.Site.acquire_alone (p := alone.pool (poolOf h k))
    (fun pool' => (hp.set_pool pool').get_pool) (fun _ _ => rfl) hclose

/-- A connection is opened if the engine is there. -/
theorem connect_run_host (host : Host) : Host.connect.run host =
    if host.engine.available then (.ok host.engine.nextConnection, connected host)
    else (.error Engine.unavailable, host) := by
  by_cases ha : host.engine.available = true
  · have he : Engine.connect host.engine = (.ok host.engine.nextConnection, _) := if_pos ha
    rw [if_pos ha, Host.connect, Action.run_bind]
    have hrun : (Host.engineCell.run Engine.connect).run host = (_, _) :=
      congrArg (fun r => (r.1, { host with engine := r.2 })) he
    rw [hrun]
    rfl
  · have he : Engine.connect host.engine = (.error Engine.unavailable, host.engine) := if_neg ha
    rw [if_neg ha, Host.connect, Action.run_bind]
    have hrun : (Host.engineCell.run Engine.connect).run host = (_, _) :=
      congrArg (fun r => (r.1, { host with engine := r.2 })) he
    rw [hrun]

theorem connect_run (hp : Holds h k R host pool p) :
    (alone.lines (.engine h) (some (poolOf h k))).connect.run p =
      if host.engine.available then
        (.ok (lineTo h k host.engine.nextConnection), (hostCell h).set (connected host) p)
      else (.error Engine.unavailable, (hostCell h).set host p) := by
  have hcell : ((alone.server (.engine h)).connect).run p =
      ((Host.connect.run host).1, (hostCell h).set (Host.connect.run host).2 p) := by
    rw [← hp.get_host]
    rfl
  rw [Site.lines, Action.run_bind, hcell, connect_run_host]
  by_cases ha : host.engine.available = true
  · rw [if_pos ha, if_pos ha]
    rfl
  · rw [if_neg ha, if_neg ha]

/-- A connection lent is one of the pool's, without a branch and not broken; a caller who gets none
leaves the loans as they were.  What is said of the engine holds on, if it survives connections
that open, and such as close without a branch. -/
theorem acquire_meets
    (hclose : ∀ host n, host.engine.branches.hasOpen n = false → Q host → Q (host.close n))
    (hopen : ∀ host, Q host → Q (connected host)) :
    (counter h k).acquire.Meets (LendsIf h k exact R Q loans)
      (fun l p => ∃ n, l = lineTo h k n ∧
        LendsIf h k exact R (fun host => Q host ∧ host.isBroken n = false) (⟨n, none⟩ :: loans) p)
      fun _ => LendsIf h k exact R Q loans := by
  rintro p ⟨host, pool, hh, hc, hq⟩
  let healthy (l : Line) : Bool := (alone.lines (.engine h) (some (poolOf h k))).isHealthy l p
  have hout := hc.checkOut healthy
  have hbad := mem_idle_of_checkOut pool healthy
  cases hco : pool.checkOut healthy with
  | mk outcome result =>
  obtain ⟨bad, pool'⟩ := result
  rw [hco] at hout hbad
  rw [acquire_run hh hco]
  -- The connections found unhealthy are closed; none of them has a branch.
  have hh' := (hh.set_pool pool').discard pool'.discardRecord fun l hl => hc.idle l (hbad l hl)
  have hfree : ∀ l ∈ bad, host.engine.branches.hasOpen l.number = false := fun l hl =>
    hc.free_of_idle (hbad l hl)
  have hq' := foldl_close hclose hq hfree
  have hunbroken : ∀ n, host.isBroken n = false →
      (bad.foldl (fun host l => host.close l.number) host).isBroken n = false := fun n hn =>
    foldl_close (Q := fun host => host.isBroken n = false) (fun _ _ _ => isBroken_close) hn hfree
  simp only at hout hh' hq' hunbroken
  generalize bad.foldl (fun host l => host.close l.number) host = host' at *
  generalize bad.foldl (fun p l => (alone.lines (.engine h) (some (poolOf h k))).close l
    (alone.log pool'.discardRecord p)) ((poolCell (poolOf h k)).set pool' p) = p' at hh' ⊢
  cases outcome with
  | reuse l =>
    obtain ⟨hl, hhealthy, hc'⟩ := hout
    refine ⟨l.number, hl, host', pool', hh', hc', hq', hunbroken l.number ?_⟩
    have hnumber : host.isHealthy l.number = true := by
      rw [hl] at hhealthy
      rw [← hh.get_host]
      exact hhealthy
    rw [Host.isHealthy, Bool.and_eq_true, Bool.not_eq_true'] at hnumber
    exact hnumber.1
  | exhausted =>
    exact ⟨host', pool', hh'.log _, hout, hq'⟩
  | reserved =>
    obtain ⟨pool₀, rfl, hc'⟩ := hout
    -- A place was reserved: it is filled by a new connection, or given up.
    rw [settle, Action.run_onFailure, connect_run hh']
    by_cases ha : host'.engine.available = true
    · rw [if_pos ha]
      exact ⟨_, rfl, connected host', _, hh'.set_host _, hc'.connect, hopen host' hq',
        isBroken_connected host'⟩
    · rw [if_neg ha]
      have hback : Pool.openFailed { pool₀ with live := pool₀.live + 1 } = pool₀ := by
        rw [Pool.openFailed, Nat.add_sub_cancel]
      have hh'' := (hh'.set_host host').modify_pool Pool.openFailed
      rw [hback] at hh''
      exact ⟨host', pool₀, hh'', hc', hq'⟩

/-- What follows a connection lent starts from a loan without a branch. -/
theorem acquire_bind {α : Type} {f : Line → Action Plant α} {ok : α → Plant → Prop}
    (hf : ∀ n, (f (lineTo h k n)).Meets (Lends h k exact R (⟨n, none⟩ :: loans)) ok
      fun _ => Lends h k exact R loans) :
    ((counter h k).acquire >>= f).Meets (Lends h k exact R loans) ok
      fun _ => Lends h k exact R loans := by
  refine (acquire_meets (fun _ _ _ hq => hq) fun _ hq => hq).bind fun l => ?_
  rintro p ⟨n, rfl, host, pool, hh, hc, -⟩
  exact hf n p (Lends.intro hh hc)

/-! ## Statements -/

/-- A statement on connection `n` that succeeds turns the branch of its loan from `o` into `o'`. -/
def Turns (r : PoolRef) (exact : Prop) (loans : List Loan) (n : ConnectionId) (sql : Bytes)
    (o o' : Option (Bytes × Branch)) : Prop :=
  ∀ {host pool rows e'}, Custody r exact (⟨n, o⟩ :: loans) host pool →
    (Engine.run n sql).run host.engine = (.ok rows, e') →
    Custody r exact (⟨n, o'⟩ :: loans) { host with engine := e' } pool

/-- Sends a statement on a connection of the pool. -/
abbrev sendOn (h : HostId) (n : ConnectionId) (sql : Bytes) : Action Plant Sql.Rows :=
  Host.send (Cell.whole.within (hostCell h)) (alone.interrupt h) n sql

theorem send_run_of_broken (hp : Holds h k R host pool p) (hn : host.isBroken n = true) :
    (sendOn h n sql).run p = (.error (Host.brokenFault n), p) := by
  have hread : (Action.read fun p => ((Cell.whole.within (hostCell h)).get p).isBroken n).run p =
      (.ok true, p) := by
    rw [← hn, ← hp.get_host]
    rfl
  rw [sendOn, Host.send, Action.run_bind, hread]
  rfl

/-- On a connection that is not broken, the engine runs the statement, and the client's side notes
how it failed. -/
theorem send_run (hp : Holds h k R host pool p) (hn : host.isBroken n = false) :
    (sendOn h n sql).run p =
      match (Engine.run n sql).run host.engine with
      | (.ok rows, e) => (.ok rows, (hostCell h).set { host with engine := e } p)
      | (.error f, e) => (.error f, (hostCell h).modify (Host.noteFailure n f)
          ((hostCell h).set { host with engine := e } p)) := by
  have hread : (Action.read fun p => ((Cell.whole.within (hostCell h)).get p).isBroken n).run p =
      (.ok false, p) := by
    rw [← hn, ← hp.get_host]
    rfl
  have hengine : (((Cell.whole.within (hostCell h)).within Host.engineCell).run
      (Engine.run n sql)).run p = (((Engine.run n sql).run host.engine).1,
        (hostCell h).set { host with engine := ((Engine.run n sql).run host.engine).2 } p) := by
    rw [← hp.get_host]
    rfl
  rw [sendOn, Host.send, Action.run_bind, hread]
  show (Action.onFailure (((Cell.whole.within (hostCell h)).within Host.engineCell).run
    (Engine.run n sql)) _).run p = _
  rw [Action.run_onFailure, hengine]
  rcases (Engine.run n sql).run host.engine with ⟨_ | rows, e⟩ <;> rfl

/-- What a connection is marked with after a failure changes no branch. -/
theorem Custody.noteFailure {r : PoolRef} (hc : Custody r exact loans host pool) (f : Fault) :
    Custody r exact loans (host.noteFailure n f) pool := by
  unfold Host.noteFailure
  split
  · exact hc.relink fun m => Table.contains_modify _ _ _ _
  · exact hc

theorem send_meets (ht : Turns (poolOf h k) exact loans n sql o o') :
    (sendOn h n sql).Meets (Lends h k exact R (⟨n, o⟩ :: loans))
      (fun _ => Lends h k exact R (⟨n, o'⟩ :: loans))
      fun _ => Lends h k exact R (⟨n, o⟩ :: loans) := by
  rintro p ⟨host, pool, hh, hc, -⟩
  cases hn : host.isBroken n with
  | true =>
    rw [send_run_of_broken hh hn]
    exact Lends.intro hh hc
  | false =>
    rw [send_run hh hn]
    rcases hr : (Engine.run n sql).run host.engine with ⟨f | rows, e⟩
    · obtain ⟨statements, injected, rfl⟩ := Engine.run_error hr
      have hh' := (hh.set_host { host with engine := { host.engine with statements, injected } })
      refine Lends.intro (hh'.modify_host _) ?_
      exact (hc.note statements injected host.engine.committed).noteFailure f
    · exact Lends.intro (hh.set_host _) (ht hc hr)

theorem execute_meets (ht : Turns (poolOf h k) exact loans n sql o o') :
    ((counter h k).execute (lineTo h k n) sql).Meets (Lends h k exact R (⟨n, o⟩ :: loans))
      (fun _ => Lends h k exact R (⟨n, o'⟩ :: loans))
      fun _ => Lends h k exact R (⟨n, o⟩ :: loans) :=
  (send_meets ht).bind fun _ => .pure fun _ hp => hp

/-! ## What statements make of a loan -/

section Turns
variable {r : PoolRef} {b : Branch} {verb : Verb}

/-- A statement that is read as a protocol step does what the rules for branches say. -/
theorem Turns.of_moves (hp : Statement.parse sql = .ok (.branch verb x))
    (hm : ∀ {host pool branches}, Custody r exact (⟨n, o⟩ :: loans) host pool →
      host.engine.branches.Moves n x verb branches → ∀ statements committed,
        Custody r exact (⟨n, o'⟩ :: loans)
          { host with engine := { host.engine with statements, branches, committed } } pool) :
    Turns r exact loans n sql o o' := by
  intro host pool rows e' hc hr
  obtain ⟨⟨statements, branches, committed, rfl⟩, ⟨verb', x', hp', hmove⟩ | ⟨hnone, -⟩⟩ :=
    Engine.branches_of_run_ok hr
  · rw [hp] at hp'
    cases hp'
    exact hm hc hmove statements committed
  · exact absurd hp (hnone verb x)

/-- Any other statement leaves every loan as it is. -/
theorem Turns.of_passive (hs : Statement.IsPassive sql) : Turns r exact loans n sql o o := by
  intro host pool rows e' hc hr
  obtain ⟨⟨statements, branches, committed, rfl⟩, ⟨verb, x, hp, -⟩ | ⟨-, hb⟩⟩ :=
    Engine.branches_of_run_ok hr
  · exact absurd hp (hs verb x)
  · obtain rfl : branches = host.engine.branches := hb
    exact hc.note statements host.engine.injected committed

theorem Turns.start (hp : Statement.parse sql = .ok (.branch .start x)) :
    Turns r exact loans n sql none (some (x, ⟨.active, n⟩)) := by
  refine Turns.of_moves hp fun hc hmove statements committed => ?_
  cases hmove with
  | start hfree hnew =>
    exact hc.setBranch (fun y hy => by cases hy)
      (fun he loan hl => hc.xid_ne_of_absent hnew he loan (List.mem_cons_of_mem _ hl))
      (Or.inl ⟨by simp, rfl⟩) rfl statements committed

theorem xid_eq {y : Bytes} (hy : Loan.xid? ⟨n, some (x, b)⟩ = some y) : y = x :=
  (Option.some.inj hy).symm

theorem Turns.finish (hp : Statement.parse sql = .ok (.branch .finish x)) :
    Turns r exact loans n sql (some (x, b)) (some (x, ⟨.idle, n⟩)) := by
  refine Turns.of_moves hp fun hc hmove statements committed => ?_
  cases hmove with
  | finish =>
    exact hc.setBranch (fun y => xid_eq) (hc.xid_ne rfl) (Or.inl ⟨by simp, rfl⟩) rfl
      statements committed

theorem Turns.prepare (hp : Statement.parse sql = .ok (.branch .prepare x)) :
    Turns r exact loans n sql (some (x, b)) (some (x, .detached)) := by
  refine Turns.of_moves hp fun hc hmove statements committed => ?_
  cases hmove with
  | prepare =>
    exact hc.setBranch (fun y => xid_eq) (hc.xid_ne rfl) (Or.inr rfl) rfl statements committed

/-- A commit or rollback takes the branch off the engine: the branch of the loan, or, where loans
need not be exact, one that only a recovered xid names. -/
theorem Turns.settle (hp : Statement.parse sql = .ok (.branch verb x))
    (hv : (∃ onePhase, verb = .commit onePhase) ∨ verb = .rollback)
    (ho : o = some (x, b) ∨ o = none ∧ ¬ exact) : Turns r exact loans n sql o none := by
  refine Turns.of_moves hp fun {host pool branches} hc hmove statements committed => ?_
  have hown : ∀ y, Loan.xid? ⟨n, o⟩ = some y → y = x := by
    rcases ho with rfl | ⟨rfl, -⟩
    · exact fun y => xid_eq
    · exact fun y hy => by cases hy
  have hother : exact → ∀ loan ∈ loans, loan.xid? ≠ some x := by
    rcases ho with rfl | ⟨-, he⟩
    · exact hc.xid_ne rfl
    · exact fun h => absurd h he
  have herase : branches = host.engine.branches.erase x := by
    cases hmove with
    | start | finish | prepare =>
      rcases hv with ⟨onePhase, hv⟩ | hv <;> cases hv
    | commitOnePhase | commit | rollbackOwn | rollback => rfl
  exact hc.eraseBranch hown hother herase statements committed

end Turns

/-! ## Requests of callers -/

/-- The statement that a request sends. -/
def Request.text (q : Request) : Except Sql.Template.BindFault Bytes :=
  match q with
  | .plain sql => .ok sql
  | .bound sql params | .rows sql params =>
    if params.isEmpty then .ok sql else Sql.Template.bind Sql.Literal.quote sql params

/-- Whatever a request sends, it is no step of the protocol. -/
def Request.IsPassive (q : Request) : Prop :=
  ∀ sql, Request.text q = .ok sql → Statement.IsPassive sql

theorem Request.isPassive_plain (hs : Statement.IsPassive sql) :
    Request.IsPassive (.plain sql) := by
  intro text ht
  cases ht
  exact hs

/-- A query does what sending its text does, if there is one. -/
theorem query_of_send {params : List Sql.Param} {pre : Plant → Prop}
    {ok : Sql.Rows → Plant → Prop} {bad : Fault → Plant → Prop}
    (hsend : ∀ text, Request.text (.rows sql params) = .ok text →
      (sendOn h n text).Meets pre ok bad)
    (hbad : ∀ f p, pre p → bad f p) :
    ((counter h k).query (lineTo h k n) sql params).Meets pre ok bad := by
  show (Host.query (Cell.whole.within (hostCell h)) (alone.interrupt h) n sql params).Meets _ _ _
  unfold Host.query
  split
  · next hempty => exact hsend sql (if_pos hempty)
  · next hempty =>
    refine Action.Meets.ofExcept_bind (fun text ht => hsend text ?_) fun f _ => hbad f
    rw [Request.text, if_neg hempty]
    cases hfill : Sql.Template.bind Sql.Literal.quote sql params with
    | error f => rw [hfill] at ht; cases ht
    | ok t => rw [hfill] at ht; cases ht; rfl

/-- What sending the text of a request keeps, the request keeps. -/
theorem submit_of_send {q : Request} {pre : Plant → Prop}
    (hsend : ∀ text, Request.text q = .ok text →
      (sendOn h n text).Meets pre (fun _ => pre) fun _ => pre) :
    ((alone.lines (.engine h) (some (poolOf h k))).submit (lineTo h k n) q).Meets pre
      (fun _ => pre) fun _ => pre := by
  cases q with
  | plain sql =>
    have hexecute : ((counter h k).execute (lineTo h k n) sql).Meets pre (fun _ => pre)
        fun _ => pre := (hsend sql rfl).bind fun _ => .pure fun _ hp => hp
    exact hexecute.bind fun _ => .pure fun _ hp => hp
  | bound sql params =>
    have hquery : ((counter h k).query (lineTo h k n) sql params).Meets pre (fun _ => pre)
        fun _ => pre := query_of_send hsend fun _ _ hp => hp
    exact hquery.bind fun _ => .pure fun _ hp => hp
  | rows sql params =>
    have hquery : ((counter h k).query (lineTo h k n) sql params).Meets pre (fun _ => pre)
        fun _ => pre := query_of_send hsend fun _ _ hp => hp
    exact hquery.bind fun _ => .pure fun _ hp => hp

theorem query_meets {params : List Sql.Param} (hs : Request.IsPassive (.rows sql params)) :
    ((counter h k).query (lineTo h k n) sql params).Meets (Lends h k exact R (⟨n, o⟩ :: loans))
      (fun _ => Lends h k exact R (⟨n, o⟩ :: loans))
      fun _ => Lends h k exact R (⟨n, o⟩ :: loans) :=
  query_of_send (fun text ht => send_meets (Turns.of_passive (hs text ht))) fun _ _ hp => hp

/-- A request of the caller's own leaves the loan as it is. -/
theorem submit_meets {q : Request} (hq : Request.IsPassive q) :
    ((alone.lines (.engine h) (some (poolOf h k))).submit (lineTo h k n) q).Meets
      (Lends h k exact R (⟨n, o⟩ :: loans)) (fun _ => Lends h k exact R (⟨n, o⟩ :: loans))
      fun _ => Lends h k exact R (⟨n, o⟩ :: loans) :=
  submit_of_send fun text ht => send_meets (Turns.of_passive (hq text ht))

end Coordinator.Plant

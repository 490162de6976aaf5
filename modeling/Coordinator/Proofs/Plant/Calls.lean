import Coordinator.Proofs.Plant.Agreement
import Coordinator.Proofs.Plant.Exchange
import Coordinator.Proofs.Registry.Traffic

/-! # Calls with nothing in between

A call on a registered session takes the session out, exchanges statements with the engine, and
files the session again or is done with it.  With nothing in between, **its end is known from the
exchange alone** (`call_run`): either every statement succeeds, and the session moves on or its
connection waits in the pool again, or the first fault is the answer, the session is gone, and its
connection is closed.

A call that starts a session adds one to the registry or none
(`registered_start_storesClean`).  Connections are poisoned only to be closed at once, so none that
a call finds or leaves is poisoned. -/
namespace Coordinator

open Engine (ConnectionId)

/-! ## What a task starts from and leaves behind -/

namespace Registry.Task

variable {κ : Type} {m : Task} {s : Session κ} {reg : Registry κ} {x : Bytes}

/-- The state in which the task leaves a session in the registry, if it leaves it there. -/
def after : Task → Option Xa.State
  | finish => some .ended
  | prepare => some .prepared
  | commit | rollback | undo => none

/-- The task can start from the session. -/
def Admits (m : Task) (s : Session κ) : Prop := ∀ state, m.required = some state → s.state = state

theorem take_of_admits (hs : reg.get? x = some s) (hm : m.Admits s) :
    reg.take x m.required = .ok (s, reg.erase x) := by
  rw [take, hs]
  cases hr : m.required with
  | none => rfl
  | some state => exact if_pos (hm state hr)

theorem take_of_not_admits (h : ∀ s, reg.get? x = some s → ¬ m.Admits s) :
    ∃ f, reg.take x m.required = .error f ∧ f.kind = .notFound := by
  rw [take]
  cases hs : reg.get? x with
  | none => exact ⟨_, rfl, rfl⟩
  | some s =>
    cases hr : m.required with
    | none => exact absurd (fun state hstate => absurd (hr ▸ hstate) nofun) (h s hs)
    | some state =>
      have hne : ¬ s.state = state := fun heq => h s hs fun state' hstate' => by
        rw [hr] at hstate'
        cases hstate'
        exact heq
      exact ⟨_, if_neg hne, rfl⟩

/-- The registry after the task, once the session was taken out. -/
def refile (m : Task) (s : Session κ) (reg : Registry κ) : Registry κ :=
  match m.after with
  | some state => reg.insert s.xid { s with state }
  | none => reg

theorem get?_refile (hfree : reg.get? s.xid = none) (y : Bytes) : (m.refile s reg).get? y =
    if y = s.xid then m.after.map ({ s with state := · }) else reg.get? y := by
  unfold refile
  cases m.after with
  | some state => exact Table.get?_insert ..
  | none =>
    by_cases hy : y = s.xid
    · rw [if_pos hy, hy]
      exact hfree
    · exact (if_neg hy).symm

/-- The pool after the task, once its statements succeeded over a connection. -/
def giveBack (m : Task) (c : κ) (pool : Pool κ) : Pool κ :=
  if m.after = none then { pool with idle := c :: pool.idle } else pool

end Registry.Task

namespace Registry

/-- A session that goes on is registered again. -/
theorem InOrder.refile {κ : Type} {reg : Registry κ} {s : Session κ} {m : Task} (h : reg.InOrder)
    (hs : s.Live) : Registry.InOrder (m.refile s reg) := by
  cases m with
  | finish => exact h.insert (s := { s with state := .ended }) ⟨hs.1, .inr (.inl rfl)⟩
  | prepare => exact h.insert (s := { s with state := .prepared }) ⟨hs.1, .inr (.inr rfl)⟩
  | commit | rollback | undo => exact h

end Registry

namespace Registry.Call

/-- The xid and the task of a call that takes a session out. -/
def task? : Call → Option (Bytes × Task)
  | start _ => none
  | finish x => some (x, .finish)
  | prepare x => some (x, .prepare)
  | commit x => some (x, .commit)
  | rollback x => some (x, .rollback)

theorem phase_of_task? {κ : Type} {call : Call} {x : Bytes} {m : Task}
    (hcall : call.task? = some (x, m)) : (call.phase : Phase κ) = .take x m ∧ m ≠ .undo := by
  cases call with
  | start => cases hcall
  | finish | prepare | commit | rollback => cases hcall; exact ⟨rfl, nofun⟩

end Registry.Call

/-- No connection is poisoned. -/
def Host.Clean (host : Host) : Prop := ∀ n, host.isPoisoned n = false

namespace Host

variable {host : Host} {n m : ConnectionId}

theorem Clean.close (h : host.Clean) (n : ConnectionId) : (host.close n).Clean := by
  intro m
  show ((host.links.erase n).get? m).any _ = false
  rw [Table.get?_erase]
  split
  · rfl
  · exact h m

theorem Clean.connected (h : host.Clean) : (Plant.connected host).Clean := by
  intro m
  show ((host.links.insert _ {}).get? m).any _ = false
  rw [Table.get?_insert]
  split
  · rfl
  · exact h m

theorem Clean.traded {host' : Host} {x : Bytes} (h : host.Clean) (ht : Traded x host host') :
    host'.Clean := fun m => (ht.poisoned m).trans (h m)

/-- A connection that is poisoned is the only one. -/
theorem Clean.poison (h : host.Clean) (hm : m ≠ n) : (host.poison n).isPoisoned m = false := by
  show ((host.links.modify n _).get? m).any _ = false
  rw [Table.get?_modify, if_neg hm]
  exact h m

end Host

namespace Plant

/-! ## Calls with nothing in between -/

section Calls
variable {h : HostId} {k j : Nat} {R others : Table RegistryRef (Registry Line)} {P : Participant}
  {reg : Registry Line} {host host' : Host} {pool : Pool Line} {p : Plant} {n : ConnectionId}
  {s : Session Line} {l : Line} {m : Registry.Task} {x : Bytes}

/-- The plant has an engine, a pool over it, a registry with these sessions, and other
registries. -/
def Stores (h : HostId) (k j : Nat) (P : Participant) (others : Table RegistryRef (Registry Line))
    (reg : Registry Line) (host : Host) (pool : Pool Line) (p : Plant) : Prop :=
  ∃ R, R.get? (refOf h k j P) = some reg ∧ R.erase (refOf h k j P) = others ∧
    Holds h k R host pool p

namespace Stores

theorem lift {host' : Host} {pool' : Pool Line} {p' : Plant}
    (hp : Stores h k j P others reg host pool p)
    (hh : ∀ R, Holds h k R host pool p → Holds h k R host' pool' p') :
    Stores h k j P others reg host' pool' p' := by
  obtain ⟨R, hreg, hothers, hp⟩ := hp
  exact ⟨R, hreg, hothers, hh R hp⟩

theorem get_registry (hp : Stores h k j P others reg host pool p) :
    (registryCell (refOf h k j P)).get p = reg := by
  obtain ⟨R, hreg, -, hp⟩ := hp
  exact hp.get_registry hreg

theorem set_registry (hp : Stores h k j P others reg host pool p) (reg' : Registry Line) :
    Stores h k j P others reg' host pool ((registryCell (refOf h k j P)).set reg' p) := by
  obtain ⟨R, hreg, hothers, hp⟩ := hp
  refine ⟨R.modify (refOf h k j P) fun _ => reg', ?_, ?_, hp.set_registry _ _⟩
  · rw [Table.get?_modify, if_pos rfl, hreg]
    rfl
  · rw [Table.erase_modify, hothers]

theorem log (hp : Stores h k j P others reg host pool p) (r : Journal.Record) :
    Stores h k j P others reg host pool ((counter h k).log r p) := hp.lift fun _ hp => hp.log r

theorem run {α : Type} {a : Action Plant α} {b : Action Host α} (hm : Mirrors h k a b)
    (hp : Stores h k j P others reg host pool p) :
    ∃ p', a.run p = ((b.run host).1, p') ∧ Stores h k j P others reg (b.run host).2 pool p' := by
  obtain ⟨R, hreg, hothers, hp⟩ := hp
  obtain ⟨p', hrun, hp'⟩ := hm.run hp
  exact ⟨p', hrun, R, hreg, hothers, hp'⟩

end Stores

open Registry (Alone)

/-- After the last statement, the session moves on or its connection waits in the pool again. -/
theorem conclude_alone (hp : Stores h k j P others reg host pool p) (hm : m ≠ .undo)
    (hfree : reg.get? s.xid = none) (hclean : host.isPoisoned n = false)
    (hn : host.isHealthy n = true) :
    ∃ p', Alone (alone.registry (refOf h k j P)) (.send m s (lineTo h k n) []) p (.ok (), p') ∧
      Stores h k j P others (m.refile s reg) host (m.giveBack (lineTo h k n) pool) p' := by
  have hback := hp.lift fun _ hp => hp.released_healthy hclean hn
  -- A session that moves on is put back under its xid, which is free.
  have hput {m : Registry.Task} {p : Plant} (state : Xa.State)
      (hp : Stores h k j P others reg host pool p) :
      (alone.registry (refOf h k j P)).advance (.put m { s with state }) p =
        (.ended (.ok ()), (registryCell (refOf h k j P)).set
          (reg.insert s.xid { s with state }) p) := by
    have hget : (alone.registry (refOf h k j P)).registry.get p = reg := hp.get_registry
    have hinsert : reg.insert? { s with state } = some (reg.insert s.xid { s with state }) :=
      if_neg (by rw [(Table.contains_eq_false_iff _ _).mpr hfree]; exact Bool.false_ne_true)
    rw [Registry.Site.advance, hget, hinsert]
    rfl
  cases m with
  | finish => exact ⟨_, .goesOn rfl (.ends (hput .ended (hp.log _))), (hp.log _).set_registry _⟩
  | prepare =>
    exact ⟨_, .goesOn rfl (.ends (hput .prepared (hp.log _))), (hp.log _).set_registry _⟩
  | commit | rollback => exact ⟨_, .ends rfl, hback.log _⟩
  | undo => exact absurd rfl hm

/-- **The end of a call on a registered session is known from its exchange.** -/
theorem call_run {call : Registry.Call} (hcall : call.task? = some (x, m))
    (hd : P.dialect ≠ .postgres) (hp : Stores h k j P others reg host pool p)
    (hs : reg.get? x = some s) (hm : m.Admits s) (hx : s.xid = x)
    (hn : s.connection = some (lineTo h k n)) (hlink : host.links.contains n = true)
    (hclean : host.isPoisoned n = false) :
    match (m.drive.exchange P s).run host with
    | (.ok _, host') => ∃ p', (call.run (alone.registry (refOf h k j P))).run p = (.ok (), p') ∧
        Stores h k j P others (m.refile s (reg.erase x)) host' (m.giveBack (lineTo h k n) pool) p'
    | (.error f, host') => ∃ p',
        (call.run (alone.registry (refOf h k j P))).run p = (.error f, p') ∧
        Stores h k j P others (reg.erase x) (host'.close n) { pool with live := pool.live - 1 }
          p' := by
  obtain ⟨hphase, hundo⟩ := Registry.Call.phase_of_task? (κ := Line) hcall
  have hend := hphase ▸ Registry.Call.alone (alone.registry (refOf h k j P)) call p
  have hget : (alone.registry (refOf h k j P)).registry.get p = reg := hp.get_registry
  have htake : (alone.registry (refOf h k j P)).advance (.take x m) p =
      (.goesOn (.check m s), (registryCell (refOf h k j P)).set (reg.erase x) p) := by
    rw [Registry.Site.advance, hget, Registry.Task.take_of_admits hs hm]
    rfl
  obtain ⟨p₁, hperform, hp₁⟩ :=
    (hp.set_registry (reg.erase x)).run (perform_mirrors (P := P) m.drive hn)
  have hperform' : (m.drive.perform (alone.registry (refOf h k j P)).participant
      (alone.registry (refOf h k j P)).gateway s).run
        ((registryCell (refOf h k j P)).set (reg.erase x) p) = _ := hperform
  have htraded := Drive.exchange_traded (s := s) m.drive hd host
  rcases he : (m.drive.exchange P s).run host with ⟨f | l, host'⟩
  · rw [he] at hperform' hp₁ htraded
    have hdrop : Alone (alone.registry (refOf h k j P)) (.take x m) p
        (.error f, s.drop (counter h k).toKeeper p₁) :=
      .goesOn htake (.check (by rw [hperform']; exact Registry.drop_alone hundo))
    refine ⟨_, hend.unique hdrop, hp₁.lift fun _ hp => hp.dropped hn ?_⟩
    exact (htraded.links n).trans hlink
  · rw [he] at hperform' hp₁ htraded
    obtain ⟨hl, hhealthy⟩ := Drive.healthy_of_exchange hd he
    rw [hn] at hl
    cases hl
    have hfree : (reg.erase x).get? s.xid = none := by rw [Table.get?_erase, if_pos hx]
    obtain ⟨p₂, hconclude, hp₂⟩ := conclude_alone hp₁ hundo hfree
      ((htraded.poisoned n).trans hclean) hhealthy
    have hdone : Alone (alone.registry (refOf h k j P)) (.take x m) p (.ok (), p₂) :=
      .goesOn htake (.check (by rw [hperform']; exact hconclude))
    exact ⟨p₂, hend.unique hdone, hp₂⟩

/-- Without a session that the task can start from, nothing is done. -/
theorem call_run_of_not_admits {call : Registry.Call} (hcall : call.task? = some (x, m))
    (hp : Stores h k j P others reg host pool p)
    (hs : ∀ s, reg.get? x = some s → ¬ m.Admits s) :
    ∃ f, (call.run (alone.registry (refOf h k j P))).run p = (.error f, p) ∧
      f.kind = .notFound := by
  have hend := (Registry.Call.phase_of_task? hcall).1 ▸
    Registry.Call.alone (alone.registry (refOf h k j P)) call p
  obtain ⟨f, htake, hkind⟩ := Registry.Task.take_of_not_admits hs
  have hget : (alone.registry (refOf h k j P)).registry.get p = reg := hp.get_registry
  refine ⟨f, hend.unique (.ends ?_), hkind⟩
  rw [Registry.Site.advance, hget, htake]

/-! ## Sessions that start -/

/-- The registry is as said, and no connection is poisoned. -/
def StoresClean (h : HostId) (k j : Nat) (P : Participant)
    (others : Table RegistryRef (Registry Line)) (reg : Registry Line) (p : Plant) : Prop :=
  ∃ host pool, Stores h k j P others reg host pool p ∧ host.Clean

namespace StoresClean

theorem log (hp : StoresClean h k j P others reg p) (r : Journal.Record) :
    StoresClean h k j P others reg ((counter h k).log r p) := by
  obtain ⟨host, pool, hp, hclean⟩ := hp
  exact ⟨host, pool, hp.log r, hclean⟩

theorem release (hp : StoresClean h k j P others reg p) (n : ConnectionId) :
    StoresClean h k j P others reg ((counter h k).release (lineTo h k n) p) := by
  obtain ⟨host, pool, ⟨R, hreg, hothers, hp⟩, hclean⟩ := hp
  have hback := hp.release n
  split at hback
  · exact ⟨host, _, ⟨R, hreg, hothers, hback⟩, hclean⟩
  · exact ⟨_, _, ⟨R, hreg, hothers, hback⟩, hclean.close n⟩

/-- A connection is poisoned to be closed. -/
theorem discard (hp : StoresClean h k j P others reg p) (n : ConnectionId) (f : Plant → Plant)
    (hf : ∀ R host pool p, Holds h k R host pool p → Holds h k R host pool (f p)) :
    StoresClean h k j P others reg
      ((counter h k).release (lineTo h k n) (f ((counter h k).poison (lineTo h k n) p))) := by
  obtain ⟨host, pool, ⟨R, hreg, hothers, hp⟩, hclean⟩ := hp
  have hback := (hf _ _ _ _ (hp.poison n)).release n
  split at hback
  · next hreuse =>
    rw [Bool.and_eq_true, Bool.not_eq_true'] at hreuse
    refine ⟨_, _, ⟨R, hreg, hothers, hback⟩, fun m => ?_⟩
    by_cases hm : m = n
    · rw [hm, hreuse.1]
    · exact hclean.poison hm
  · refine ⟨_, _, ⟨R, hreg, hothers, hback⟩, fun m => ?_⟩
    show (((host.poison n).links.erase n).get? m).any _ = false
    rw [Table.get?_erase]
    split
    · rfl
    · next hm => exact hclean.poison hm

theorem drop (hp : StoresClean h k j P others reg p) (hn : s.connection = some (lineTo h k n)) :
    StoresClean h k j P others reg (s.drop (counter h k).toKeeper p) := by
  rw [Session.drop, hn]
  exact hp.discard n _ fun _ _ _ _ hp => hp.log _

end StoresClean

/-- Statements poison nothing. -/
theorem execute_storesClean {sql : Bytes} : ((counter h k).execute (lineTo h k n) sql).Meets
    (StoresClean h k j P others reg) (fun _ => StoresClean h k j P others reg)
    fun _ => StoresClean h k j P others reg := by
  rintro p ⟨host, pool, hp, hclean⟩
  obtain ⟨p', hrun, hp'⟩ := hp.run (execute_mirrors n sql)
  have hclean' : ((Host.deliver n sql).run host).2.Clean := fun m =>
    (Host.links_deliver host n sql m).2.trans (hclean m)
  rw [hrun]
  rcases he : (Host.deliver n sql).run host with ⟨f | u, host'⟩ <;> rw [he] at hp' hclean'
  · exact ⟨host', pool, hp', hclean'⟩
  · exact ⟨host', pool, hp', hclean'⟩

theorem perform_storesClean (d : Drive) (hd : P.dialect ≠ .postgres)
    (hn : s.connection = some (lineTo h k n)) :
    (d.perform P (counter h k) s).Meets (StoresClean h k j P others reg)
      (fun l p => l = lineTo h k n ∧ StoresClean h k j P others reg p)
      fun _ => StoresClean h k j P others reg := by
  rintro p ⟨host, pool, hp, hclean⟩
  obtain ⟨p', hrun, hp'⟩ := hp.run (perform_mirrors (P := P) d hn)
  have hclean' := hclean.traded (Drive.exchange_traded (s := s) d hd host)
  rw [hrun]
  rcases he : (d.exchange P s).run host with ⟨f | l, host'⟩
  · rw [he] at hp' hclean'
    exact ⟨host', pool, hp', hclean'⟩
  · rw [he] at hp' hclean'
    have hl := (Drive.healthy_of_exchange hd he).1
    rw [hn] at hl
    exact ⟨(Option.some.inj hl).symm, host', pool, hp', hclean'⟩

theorem rollback_storesClean (hd : P.dialect ≠ .postgres)
    (hn : s.connection = some (lineTo h k n)) :
    (P.rollback (counter h k) s).Meets (StoresClean h k j P others reg)
      (fun _ => StoresClean h k j P others reg) fun _ => StoresClean h k j P others reg := by
  rw [Participant.rollback_eq]
  refine Action.Meets.onFailure ((perform_storesClean .rollback hd hn).bind fun l => .update ?_)
    fun _ _ hp => hp.drop hn
  rintro p ⟨rfl, hp⟩
  exact (hp.release n).log _

/-- A session that starts has a connection of its own, and one that fails to start gives its
connection up. -/
theorem opening_storesClean {sql : Bytes} :
    (opening P (counter h k) x sql (lineTo h k n)).Meets (StoresClean h k j P others reg)
      (fun s p => (s.xid = x ∧ s.Live ∧ ∃ n, s.connection = some (lineTo h k n)) ∧
        StoresClean h k j P others reg p)
      fun _ => StoresClean h k j P others reg := by
  have hsend : (P.send (counter h k) (lineTo h k n) (ascii "begin") x sql).Meets
      (StoresClean h k j P others reg) (fun _ => StoresClean h k j P others reg)
      fun _ => StoresClean h k j P others reg :=
    execute_storesClean.onFailure fun _ _ hp => hp.log _
  refine Action.Meets.bind (hsend.onFailure fun _ _ hp =>
    hp.discard n id fun _ _ _ _ hp => hp) fun _ => ?_
  have hlog (r : Journal.Record) : (Action.update ((counter h k).log r)).Meets
      (StoresClean h k j P others reg) (fun _ => StoresClean h k j P others reg)
      fun _ => StoresClean h k j P others reg := .update fun _ hp => hp.log r
  exact (hlog _).bind fun _ => .pure fun _ hp => ⟨⟨rfl, ⟨rfl, .inl rfl⟩, n, rfl⟩, hp⟩

variable {exact : Prop} {loans : List Loan}

/-- A session that starts has a connection of its own; whatever happens, nothing is poisoned. -/
theorem start_storesClean (hreg : R.get? (refOf h k j P) = some reg)
    (hothers : R.erase (refOf h k j P) = others) :
    (P.start (counter h k) x).Meets (LendsIf h k exact R Host.Clean loans)
      (fun s p => (s.xid = x ∧ s.Live ∧ ∃ n, s.connection = some (lineTo h k n)) ∧
        StoresClean h k j P others reg p)
      fun _ => StoresClean h k j P others reg := by
  have hlends {Q : Host → Prop} {loans : List Loan} {p : Plant} (hQ : ∀ host, Q host → host.Clean)
      (hp : LendsIf h k exact R Q loans p) : StoresClean h k j P others reg p := by
    obtain ⟨host, pool, hp, -, hq⟩ := hp
    exact ⟨host, pool, ⟨R, hreg, hothers, hp⟩, hQ host hq⟩
  have hacquire : (counter h k).acquire.Meets (LendsIf h k exact R Host.Clean loans)
      (fun l p => ∃ n, l = lineTo h k n ∧ StoresClean h k j P others reg p)
      fun _ => StoresClean h k j P others reg :=
    (acquire_meets (fun _ n _ hc => hc.close n) fun _ hc => hc.connected).mono (fun _ hp => hp)
      (fun _ _ ⟨n, hl, hp⟩ => ⟨n, hl, hlends (fun _ hq => hq.1) hp⟩)
      fun _ _ hp => hlends (fun _ hq => hq) hp
  unfold Participant.start
  refine Action.Meets.ofExcept_bind (fun sql _ => ?_) fun _ _ p hp => hlends (fun _ hq => hq) hp
  refine hacquire.bind fun l => ?_
  rintro p ⟨n, rfl, hp⟩
  exact opening_storesClean p hp

/-- A start keeps the registry in order: there is a new session under its xid, or none. -/
theorem registered_start_storesClean (hd : P.dialect ≠ .postgres)
    (hreg : R.get? (refOf h k j P) = some reg) (hothers : R.erase (refOf h k j P) = others)
    (hin : reg.InOrder) :
    ((alone.registry (refOf h k j P)).start x).Meets (LendsIf h k exact R Host.Clean loans)
      (fun _ p => ∃ reg', reg'.InOrder ∧ StoresClean h k j P others reg' p)
      fun _ p => ∃ reg', reg'.InOrder ∧ StoresClean h k j P others reg' p := by
  have hsame {p : Plant} (hp : StoresClean h k j P others reg p) :
      ∃ reg', reg'.InOrder ∧ StoresClean h k j P others reg' p := ⟨reg, hin, hp⟩
  have hstart : (P.start (counter h k) x).Meets (LendsIf h k exact R Host.Clean loans)
      (fun s p => (s.xid = x ∧ s.Live ∧ ∃ n, s.connection = some (lineTo h k n)) ∧
        StoresClean h k j P others reg p)
      fun _ p => ∃ reg', reg'.InOrder ∧ StoresClean h k j P others reg' p :=
    (start_storesClean hreg hothers).mono (fun _ hp => hp) (fun _ _ hp => hp)
      fun _ _ hp => hsame hp
  refine hstart.bind fun s => Action.Meets.assuming ?_
  rintro ⟨rfl, hlive, n, hn⟩
  have hinsert : ((alone.registry (refOf h k j P)).insert s).Meets
      (StoresClean h k j P others reg)
      (fun found p => if found then ∃ reg', reg'.InOrder ∧ StoresClean h k j P others reg' p
        else StoresClean h k j P others reg p)
      fun _ p => ∃ reg', reg'.InOrder ∧ StoresClean h k j P others reg' p := by
    rintro p ⟨host, pool, hp, hclean⟩
    have hget : (alone.registry (refOf h k j P)).registry.get p = reg := hp.get_registry
    rw [Registry.insert_run, hget]
    cases hi : reg.insert? s with
    | none => exact ⟨host, pool, hp, hclean⟩
    | some reg' =>
      obtain ⟨-, rfl⟩ := Registry.insert?_eq_some hi
      exact ⟨_, hin.insert hlive, host, pool, hp.set_registry _, hclean⟩
  refine hinsert.bind fun found => ?_
  cases found with
  | true => exact .pure fun _ hp => hp
  | false =>
    have hundo : (P.rollback (counter h k) s).attempt.Meets (StoresClean h k j P others reg)
        (fun _ => StoresClean h k j P others reg)
        fun _ p => ∃ reg', reg'.InOrder ∧ StoresClean h k j P others reg' p :=
      (rollback_storesClean hd hn).attempt (fun _ _ hp => hp) fun _ _ hp => hp
    refine Action.Meets.bind (.update fun _ hp => hp.log _) fun _ => hundo.bind fun ending => ?_
    cases ending with
    | ok => exact .fail fun _ hp => hsame hp
    | error f =>
      exact Action.Meets.bind (.update fun _ hp => hp.log _) fun _ => .fail fun _ hp => hsame hp

end Calls

end Plant
end Coordinator

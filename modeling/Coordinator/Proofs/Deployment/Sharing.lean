import Coordinator.Proofs.Deployment.Wiring
import Coordinator.Proofs.Plant.Preparing

/-! # Components that share an engine

Two components in memory share an engine just if they call it by one name.  That is a matter of
where their pools lead, and it shows in what they find: **a participant lists the branches that were
prepared through the participants of its engine, and no others** (`listed_of_shelved`).  The
invariant is `Shelved`: behind each participant is a quiet engine that has exactly these branches,
and its pool has opened as many connections as branches were prepared through it.  One branch more
keeps it (`Shelved.prepareNamed`), and so does any number of them (`Shelved.prepareAll`). -/
namespace Coordinator.Deployment

open Config Plant

variable {c : Config} {d : Deployment} {R : Table RegistryRef (Registry Line)} {p p' : Plant}
  {q : ParticipantSettings} {work done : List (ParticipantSettings × Bytes)}

/-! ## Work -/

/-- Prepares a branch through the participant with a name. -/
def prepareNamed (d : Deployment) (name xid : Bytes) : Action Plant (Session Line) := do
  let a ← .ofExcept (d.participant name)
  prepareBranch a.component (alone.gateway a.pool) xid

/-- Prepares branches, each through its participant; the sessions stay with the caller. -/
def prepareAll (d : Deployment) (work : List (ParticipantSettings × Bytes)) : Action Plant Unit :=
  .forEach (fun w => do let _ ← d.prepareNamed w.1.name w.2) work

/-- Lists the prepared branches through the participant with a name. -/
def recoverNamed (d : Deployment) (name : Bytes) : Action Plant (List Xa.Recovered) := do
  let a ← .ofExcept (d.participant name)
  a.component.recover (alone.gateway a.pool)

/-- The number of branches that work prepares through a participant. -/
def uses (q : ParticipantSettings) (work : List (ParticipantSettings × Bytes)) : Nat :=
  work.countP fun w => w.1.name = q.name

/-- Branches to prepare through participants of a configuration, with xids that can be written, no
two of one xid on one engine, and no more through a participant than its pool has places. -/
structure Workload (c : Config) (work : List (ParticipantSettings × Bytes)) : Prop where
  configured : ∀ w ∈ work, w.1 ∈ c.participants
  written : ∀ w ∈ work, w.2 ≠ [] ∧ w.2.length ≤ Xa.Xid.mysqlLimit
  distinct : (work.map fun w => (participantStore? w.1, w.2)).Nodup
  room : ∀ q ∈ c.participants, uses q work ≤ places q.pool

/-- Work prepares a branch of the xid on the engine of a participant. -/
def Prepares (work : List (ParticipantSettings × Bytes)) (q : ParticipantSettings) (xid : Bytes) :
    Prop :=
  ∃ w ∈ work, participantStore? w.1 = participantStore? q ∧ w.2 = xid

/-- A participant after some work: its engine is quiet and has the branches of the work on it, and
its pool has opened a connection for each branch of its own. -/
structure Serves (d : Deployment) (R : Table RegistryRef (Registry Line))
    (done : List (ParticipantSettings × Bytes)) (p : Plant) (q : ParticipantSettings) (h : HostId)
    (k : Nat) (host : Host) : Prop where
  found : d.participant q.name = .ok ⟨⟨q.name, .mysql⟩, poolOf h k⟩
  store : (participantStore? q).bind d.target? = some (.engine h)
  holds : Holds h k R host
    { newPool (ascii "participant/" ++ q.name) q.pool with live := uses q done } p
  quiet : Quiet host.engine
  prepared : ∀ x, IsPrepared host.engine x ↔ Prepares done q x

/-- The pool of a participant that was used less often than it has places has one left. -/
theorem place_left (hroom : uses q done < places q.pool) :
    uses q done < (newPool (ascii "participant/" ++ q.name) q.pool).capacity := by
  rw [newPool_eq]
  exact hroom

/-- What a deployment is like after some work. -/
def Shelved (c : Config) (d : Deployment) (R : Table RegistryRef (Registry Line))
    (done : List (ParticipantSettings × Bytes)) (p : Plant) : Prop :=
  ∀ q ∈ c.participants, ∃ h k host, Serves d R done p q h k host

theorem find_of_get? {α : Type} (role : String) {table : Table Bytes α} {name : Bytes} {a : α}
    (h : table.get? name = some a) : find role table name = .ok a := by
  rw [find, h]

/-- A complete deployment has done no work yet. -/
theorem shelved_of_complete (hc : BuiltIn c) (hall : Complete c (d, p))
    (hs : Consistent (d, p)) : Shelved c d p.registries [] p := by
  intro q hq
  obtain ⟨⟨k, target⟩, ref, hhas⟩ := hall.participant q hq
  obtain ⟨engine, hmemory⟩ := hc.participants q hq
  have hstore := hhas.store
  rw [participantStore?, hmemory] at hstore
  obtain ⟨h, hhost, htarget⟩ := Option.map_eq_some_iff.mp hstore
  obtain rfl : Target.engine h = target := htarget
  refine ⟨h, k, {}, find_of_get? _ hhas.found, hhas.store, ⟨hs.engines _ h hhost, ?_, rfl, ?_⟩,
    quiet_new, fun x => ?_⟩
  · rw [newPool_eq]
    exact hhas.pool.trans (congrArg some (newPool_eq _ _))
  · intro r hr
    obtain ⟨reg, hreg⟩ := (Table.contains_iff _ _).mp hr
    exact hs.numbered.registries r reg hreg
  · constructor
    · rintro ⟨b, hb, -⟩
      cases hb
    · rintro ⟨w, hw, -⟩
      cases hw

/-! ## One branch more -/

section Step
variable {a : ParticipantSettings} {x : Bytes} {h h' : HostId} {k k' : Nat}
  {host host' hostA : Host} {p₀ : Plant}

theorem uses_append (q : ParticipantSettings) (done work : List (ParticipantSettings × Bytes)) :
    uses q (done ++ work) = uses q done + uses q work := List.countP_append

theorem prepares_append {y : Bytes} : Prepares (done ++ work) q y ↔
    Prepares done q y ∨ Prepares work q y := by
  simp only [Prepares, List.mem_append, or_and_right, exists_or]

theorem prepares_one {y : Bytes} :
    Prepares [(a, x)] q y ↔ participantStore? a = participantStore? q ∧ x = y := by
  simp only [Prepares, List.mem_singleton, exists_eq_left]

/-- The participant through which the branch is prepared. -/
theorem Serves.through (hA : Serves d R done p a h k host)
    (hgains : Gains x host.engine hostA.engine)
    (hat : At h k R p hostA
      { newPool (ascii "participant/" ++ a.name) a.pool with live := uses a done + 1 } p') :
    Serves d R (done ++ [(a, x)]) p' a h k hostA where
  found := hA.found
  store := hA.store
  holds := by
    have huses : uses a (done ++ [(a, x)]) = uses a done + 1 := by
      rw [uses_append, uses, uses, List.countP_singleton, if_pos (decide_eq_true rfl)]
    rw [huses]
    exact hat.holds
  quiet := hgains.quiet
  prepared y := by
    rw [hgains.prepared, hA.prepared, prepares_append, prepares_one, or_comm, eq_comm (a := y)]
    simp only [true_and]

/-- Any other participant finds the branch just if it has the same engine. -/
theorem Serves.beside (hA : Serves d R done p a h k host) (hB : Serves d R done p q h' k' host')
    (hs : Consistent (d, p₀)) (hne : q.name ≠ a.name)
    (hgains : Gains x host.engine hostA.engine)
    (hat : At h k R p hostA
      { newPool (ascii "participant/" ++ a.name) a.pool with live := uses a done + 1 } p') :
    ∃ host'', Serves d R (done ++ [(a, x)]) p' q h' k' host'' := by
  -- Pools are told apart by their names.
  have hpool : poolOf h' k' ≠ poolOf h k := by
    intro heq
    have hnames := hB.holds.pool
    rw [heq, hA.holds.pool] at hnames
    have hname := congrArg Pool.name (Option.some.inj hnames)
    exact hne (List.append_cancel_left hname).symm
  have huses : uses q (done ++ [(a, x)]) = uses q done := by
    rw [uses_append, uses, uses, List.countP_singleton,
      if_neg (by simpa using fun heq => hne heq.symm), Nat.add_zero]
  have hheld {host''} (hhost : p'.hosts.get? h' = some host'') : Holds h' k' R host''
      { newPool (ascii "participant/" ++ q.name) q.pool with live := uses q (done ++ [(a, x)]) }
      p' := by
    refine ⟨hhost, ?_, hat.holds.registries, hat.holds.numbered⟩
    rw [huses, hat.elsewhere.pools _ hpool]
    exact hB.holds.pool
  -- On the same engine the branch is found; on another everything is as before.
  by_cases hhost : h' = h
  · subst hhost
    have hstores : participantStore? a = participantStore? q := by
      obtain ⟨store, hstore, htarget⟩ := Option.bind_eq_some_iff.mp hA.store
      obtain ⟨store', hstore', htarget'⟩ := Option.bind_eq_some_iff.mp hB.store
      rw [hstore, hstore', hs.store_eq htarget htarget']
    have hsame : host' = host := Option.some.inj (hB.holds.host.symm.trans hA.holds.host)
    refine ⟨hostA, hB.found, hB.store, hheld hat.holds.host, hgains.quiet, fun y => ?_⟩
    rw [hgains.prepared, ← hsame, hB.prepared, prepares_append, prepares_one, or_comm,
      eq_comm (a := y)]
    simp only [hstores, true_and]
  · have hstores : participantStore? a ≠ participantStore? q := by
      intro heq
      have htarget := hA.store
      rw [heq, hB.store] at htarget
      cases htarget
      exact hhost rfl
    refine ⟨host', hB.found, hB.store, hheld ?_, hB.quiet, fun y => ?_⟩
    · rw [hat.elsewhere.hosts h' hhost]
      exact hB.holds.host
    · rw [hB.prepared, prepares_append, prepares_one]
      simp only [hstores, false_and, or_false]

/-- A branch that is not on the engine of its participant, and for which the pool of the participant
has a place, is prepared. -/
theorem Shelved.prepareNamed (hs : Consistent (d, p₀))
    (hnames : (c.participants.map (·.name)).Nodup) (hp : Shelved c d R done p)
    (ha : a ∈ c.participants) (hx : x ≠ [] ∧ x.length ≤ Xa.Xid.mysqlLimit)
    (hnew : ¬ Prepares done a x) (hroom : uses a done < places a.pool) :
    ∃ s p', (d.prepareNamed a.name x).run p = (.ok s, p') ∧
      Shelved c d R (done ++ [(a, x)]) p' := by
  obtain ⟨h, k, host, hA⟩ := hp a ha
  have habsent : host.engine.branches.get? x = none := by
    refine Option.eq_none_iff_forall_ne_some.mpr fun b hb => hnew ?_
    exact (hA.prepared x).mp ⟨b, hb, hA.quiet.prepared x b hb⟩
  obtain ⟨literal, hquote⟩ : ∃ literal, Xa.Xid.quoteMysql x = .ok literal :=
    ⟨_, (if_neg (by simpa using hx.1)).trans (if_neg (Nat.not_lt.mpr hx.2))⟩
  have hplace := place_left hroom
  obtain ⟨s, p', hrun, -, -, hostA, hgains, hat⟩ :=
    (prepareBranch_accepted (P := ⟨a.name, .mysql⟩) nofun hquote rfl hplace hA.quiet
      habsent).returns ⟨hA.holds, .refl p⟩
  refine ⟨s, p', ?_, fun q hq => ?_⟩
  · rw [Deployment.prepareNamed, hA.found]
    exact hrun
  · by_cases hname : q.name = a.name
    · obtain rfl : q = a := List.inj_on_of_nodup_map hnames hq ha hname
      exact ⟨h, k, hostA, hA.through hgains hat⟩
    · obtain ⟨h', k', host', hB⟩ := hp q hq
      obtain ⟨host'', hB'⟩ := hA.beside hB hs hname hgains hat
      exact ⟨h', k', host'', hB'⟩

/-- Any number of branches. -/
theorem Shelved.prepareAll (hs : Consistent (d, p₀))
    (hnames : (c.participants.map (·.name)).Nodup) (hp : Shelved c d R done p)
    (hwork : Workload c (done ++ work)) :
    ∃ p', (d.prepareAll work).run p = (.ok (), p') ∧ Shelved c d R (done ++ work) p' := by
  -- By induction on the work that is left; the places are those that the work done has left.
  induction work generalizing done p with
  | nil => exact ⟨p, rfl, by rwa [List.append_nil]⟩
  | cons w work ih =>
    obtain ⟨a, x⟩ := w
    have hmem : (a, x) ∈ done ++ (a, x) :: work :=
      List.mem_append_right _ List.mem_cons_self
    have hnew : ¬ Prepares done a x := by
      rintro ⟨w, hw, hstore, rfl⟩
      have hdistinct := hwork.distinct
      rw [List.map_append] at hdistinct
      exact (List.nodup_append.mp hdistinct).2.2 _ (List.mem_map_of_mem hw) _
        (List.mem_map_of_mem List.mem_cons_self) (by rw [hstore])
    have hroom : uses a done < places a.pool := by
      have hall := hwork.room a (hwork.configured _ hmem)
      rw [uses_append, uses, uses, List.countP_cons_of_pos (by simp)] at hall
      rw [uses]
      omega
    obtain ⟨s, p', hrun, hp'⟩ := hp.prepareNamed hs hnames (hwork.configured _ hmem)
      (hwork.written _ hmem) hnew hroom
    have happend : done ++ [(a, x)] ++ work = done ++ (a, x) :: work := by
      rw [List.append_assoc]
      rfl
    obtain ⟨p'', hrest, hp''⟩ := ih hp' (happend ▸ hwork)
    refine ⟨p'', ?_, happend ▸ hp''⟩
    show ((do let _ ← d.prepareNamed a.name x) >>= fun _ => d.prepareAll work).run p = _
    rw [Action.run_bind, Action.run_bind, hrun]
    exact hrest

end Step

/-! ## Listings -/

/-- A participant lists the branches of its engine, if its pool has a place left. -/
theorem listed_of_shelved (hp : Shelved c d R work p) (hwork : Workload c work)
    (hq : q ∈ c.participants) (hroom : uses q work < places q.pool) :
    ∃ found p', (d.recoverNamed q.name).run p = (.ok found, p') ∧
      ∀ x, x ∈ found.map Xa.Recovered.xid ↔ Prepares work q x := by
  obtain ⟨h, k, host, hserves⟩ := hp q hq
  have hfits : Representable host.engine := by
    intro x hx
    obtain ⟨w, hw, -, rfl⟩ := (hserves.prepared x).mp hx
    exact Nat.lt_of_le_of_lt (hwork.written w hw).2 (by decide)
  obtain ⟨l, p', hacquire, -⟩ := (acquire_opens rfl (place_left hroom)
    hserves.quiet.available).returns ⟨hserves.holds, .refl p⟩
  obtain ⟨found, p'', hrun, hall, -⟩ := recover_run (P := ⟨q.name, .mysql⟩) nofun
    hserves.holds ⟨nofun, nofun⟩ hfits hserves.quiet.available (hserves.quiet.clear _)
    ⟨l, p', hacquire⟩
  refine ⟨found, p'', ?_, fun x => (hall.exact x).trans (hserves.prepared x)⟩
  rw [Deployment.recoverNamed, hserves.found]
  exact hrun

/-! ## Deployments as configured -/

/-- A pool is that of a component in memory with an engine name. -/
inductive InMemory (c : Config) (d : Deployment) (engine : Bytes) (pool : PoolRef) : Prop
  | participant {q : ParticipantSettings} {a : Pooled Participant} (hq : q ∈ c.participants)
      (hbackend : q.backend = some (.memory engine)) (hfound : d.participant q.name = .ok a)
      (hpool : a.pool = pool)
  | manager {m : ManagerSettings} {b : Pooled Retry.Manager} (hm : m ∈ c.managers)
      (hbackend : m.backend = some (.memory engine)) (hfound : d.manager m.name = .ok b)
      (hpool : b.pool = pool)

/-- No component has the name. -/
def NotFound {α : Type} (r : Except Fault α) : Prop := ∃ f, r = .error f ∧ f.kind = .notFound

/-- **What a configuration comes to in a plant.**  Its components are set up, each under its own
name and as it says, and no others; components in memory share an engine just if they call it by one
name, and whatever branches are prepared, each participant lists those on its engine; and nothing
that is new has been used, so that no connection has been opened. -/
structure Wires (c : Config) (p : Plant) (d : Deployment) (p' : Plant) : Prop where
  complete : Complete c (d, p')
  noParticipant : ∀ name, name ∉ c.participants.map (·.name) →
    NotFound (d.participant name) ∧ NotFound (d.registry name)
  noManager : ∀ name, name ∉ c.managers.map (·.name) → NotFound (d.manager name)
  engines : ∀ engine engine' pool pool', InMemory c d engine pool → InMemory c d engine' pool' →
    ∃ h h', pool.target = .engine h ∧ pool'.target = .engine h' ∧
      p'.hosts.contains h = true ∧ p'.hosts.contains h' = true ∧
      (h = h' ↔ engineName engine = engineName engine')
  lists : ∀ work, Workload c work → ∃ p₁, (d.prepareAll work).run p' = (.ok (), p₁) ∧
    ∀ q ∈ c.participants, uses q work < places q.pool → ∃ found p₂,
      (d.recoverNamed q.name).run p₁ = (.ok found, p₂) ∧
        ∀ x, x ∈ found.map Xa.Recovered.xid ↔ Prepares work q x
  unused : Grown p p'

theorem notFound_of_keys {α : Type} {role : String} {table : Table Bytes α} {name : Bytes}
    (h : name ∉ table.keys) : NotFound (find role table name) := by
  rw [find, absent_of_keys h]
  exact ⟨_, rfl, rfl⟩

/-- The pool of a component in memory leads to its engine. -/
theorem target?_of_inMemory {engine : Bytes} {pool : PoolRef} (hall : Complete c (d, p))
    (h : InMemory c d engine pool) :
    d.target? (.engine (engineName engine)) = some pool.target := by
  cases h with
  | participant hq hbackend hfound hpool =>
    obtain ⟨pool', ref, hhas⟩ := hall.participant _ hq
    have hsame := (find_of_get? "participant" hhas.found).symm.trans hfound
    cases hsame
    subst hpool
    have hstore := hhas.store
    rwa [participantStore?, hbackend] at hstore
  | manager hm hbackend hfound hpool =>
    obtain ⟨pool', manager, hhas⟩ := hall.manager _ hm
    have hsame := (find_of_get? "retry manager" hhas.found).symm.trans hfound
    cases hsame
    subst hpool
    have hstore := hhas.store
    rwa [managerStore?, hbackend] at hstore

/-- **Setting up does what the configuration says.** -/
theorem wires_of_build {c : Config} {p p' : Plant} {d : Deployment} (hp : p.Numbered)
    (hc : BuiltIn c) (hrun : (build c).run p = (.ok d, p')) : Wires c p d p' := by
  obtain ⟨hall, hbuilds⟩ := complete_of_build hp hc hrun
  have hnames : (c.participants.map (·.name)).Nodup := hall.participants ▸ d.participants.nodup
  refine ⟨hall, fun name hname => ⟨?_, ?_⟩, fun name hname => ?_, ?_, fun work hwork => ?_,
    hbuilds.extend.plant⟩
  · exact notFound_of_keys (hall.participants ▸ hname)
  · exact notFound_of_keys (hall.registries ▸ hname)
  · exact notFound_of_keys (hall.managers ▸ hname)
  · intro engine engine' pool pool' hin hin'
    have htarget := target?_of_inMemory hall hin
    have htarget' := target?_of_inMemory hall hin'
    obtain ⟨h, hhost, heq⟩ := Option.map_eq_some_iff.mp htarget
    obtain ⟨h', hhost', heq'⟩ := Option.map_eq_some_iff.mp htarget'
    have hstands := hbuilds.consistent.engines
    refine ⟨h, h', heq.symm, heq'.symm, (Table.contains_iff _ _).mpr ⟨_, hstands _ h hhost⟩,
      (Table.contains_iff _ _).mpr ⟨_, hstands _ h' hhost'⟩, fun hsame => ?_, fun hname => ?_⟩
    · subst hsame
      exact hbuilds.consistent.apart _ _ _ hhost hhost'
    · rw [hname] at hhost
      exact Option.some.inj (hhost.symm.trans hhost')
  · obtain ⟨p₁, hdone, hshelved⟩ := (shelved_of_complete hc hall hbuilds.consistent).prepareAll
      hbuilds.consistent hnames (show Workload c ([] ++ work) from hwork)
    exact ⟨p₁, hdone, fun q hq hroom => listed_of_shelved hshelved hwork hq hroom⟩

/-- Two shops on one engine, which only one of them calls by its name. -/
def orders : ParticipantSettings := { name := ascii "orders", backend := some (.memory []) }

def billing : ParticipantSettings :=
  { name := ascii "billing", backend := some (.memory (ascii "default")) }

def audit : ParticipantSettings :=
  { name := ascii "audit", backend := some (.memory (ascii "audit")) }

/-- The shops, an audit on another engine, a manager on the engine of the shops that waits for
nothing, and one on a file. -/
def shops : Config where
  participants := [orders, billing, audit]
  managers := [⟨ascii "ledger", {}, ⟨some 0, some {}, none⟩, some (.memory [])⟩,
    ⟨ascii "notes", {}, {}, some (.sqlite (ascii "notes.db"))⟩]

theorem builtIn_shops : BuiltIn shops := by
  constructor
  · intro q hq
    simp only [shops, List.mem_cons, List.not_mem_nil, or_false] at hq
    rcases hq with rfl | rfl | rfl <;> exact ⟨_, rfl⟩
  · intro m hm
    simp only [shops, List.mem_cons, List.not_mem_nil, or_false] at hm
    rcases hm with rfl | rfl
    · exact .inl ⟨_, rfl⟩
    · exact .inr ⟨_, rfl⟩

theorem workload_orders : Workload shops [(orders, ascii "tx-1")] := by
  refine ⟨?_, ?_, List.nodup_singleton _, ?_⟩
  · simp [shops]
  · simp [Xa.Xid.mysqlLimit, ascii]
  · simp only [shops, List.forall_mem_cons]
    decide

/-- The other shop finds the branch of the first; the audit does not. -/
theorem wires_of_shops : ∃ d p' p₁, (build shops).run {} = (.ok d, p') ∧ Wires shops {} d p' ∧
    (d.prepareAll [(orders, ascii "tx-1")]).run p' = (.ok (), p₁) ∧
    (∃ found p₂, (d.recoverNamed (ascii "billing")).run p₁ = (.ok found, p₂) ∧
      ascii "tx-1" ∈ found.map Xa.Recovered.xid) ∧
    ∃ found p₂, (d.recoverNamed (ascii "audit")).run p₁ = (.ok found, p₂) ∧
      ascii "tx-1" ∉ found.map Xa.Recovered.xid := by
  have hreturns : ((build shops).run {}).1.isOk = true := by decide +kernel
  rcases hrun : (build shops).run {} with ⟨f | d, p'⟩
  · rw [hrun] at hreturns
    cases hreturns
  · have hwires := wires_of_build numbered_empty builtIn_shops hrun
    obtain ⟨p₁, hdone, hlists⟩ := hwires.lists _ workload_orders
    obtain ⟨found, p₂, hfound, hxids⟩ := hlists billing (by simp [shops]) (by decide)
    obtain ⟨found', p₂', hfound', hxids'⟩ := hlists audit (by simp [shops]) (by decide)
    refine ⟨d, p', p₁, rfl, hwires, hdone, ⟨found, p₂, hfound, (hxids _).mpr ?_⟩,
      found', p₂', hfound', fun hmem => ?_⟩
    · exact ⟨_, List.mem_singleton_self _, by decide, rfl⟩
    · obtain ⟨w, hw, hstore, -⟩ := (hxids' _).mp hmem
      obtain rfl := List.mem_singleton.mp hw
      exact absurd hstore (by decide)

end Coordinator.Deployment

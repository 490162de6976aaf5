import Coordinator.Proofs.Deployment
import Coordinator.Proofs.Plant.Growth

/-! # What is set up where

Setting a configuration up adds objects to a plant and components to a deployment, and takes
nothing away (`Builds`): an object gets a number that no other has, and validation has seen to it
that a component gets a name that no other has.  So what holds of a component once it is added
(`HasParticipant`, `HasManager`) holds of the deployment in the end, and setting up is described one
step at a time: an engine is set up when it is first asked for (`openMemory_run`), a participant
gets a pool and a registry (`addParticipant_run`), a manager a pool and a policy
(`addManager_run`). -/
namespace Coordinator.Deployment

open Config

variable {s t u : Deployment × Plant}

/-! ## What components keep their data in -/

/-- What a component of this build keeps its data in. -/
inductive Store
  /-- An engine in this process, by its name. -/
  | engine (name : Bytes)
  | file (path : Bytes)
deriving DecidableEq, Repr

/-- The name that an engine goes by; a name left empty is read as the default one. -/
def engineName (name : Bytes) : Bytes := if name = [] then defaultEngine else name

/-- The store of a participant; this build has only engines for participants. -/
def participantStore? (q : ParticipantSettings) : Option Store :=
  match q.backend with
  | some (.memory engine) => some (.engine (engineName engine))
  | _ => none

/-- The store of a manager, if this build has its backend. -/
def managerStore? (m : ManagerSettings) : Option Store :=
  match m.backend with
  | some (.memory engine) => some (.engine (engineName engine))
  | some (.sqlite path) => some (.file path)
  | _ => none

/-- The dialect in which a manager speaks to a store. -/
def Store.dialect : Store → Retry.Dialect
  | .engine _ => .cockroach
  | .file _ => .sqlite

/-- Where connections to a store lead; nowhere before an engine is set up. -/
def target? (d : Deployment) : Store → Option Target
  | .engine name => (d.engines.get? name).map .engine
  | .file path => some (.database path)

/-! ## Setting up adds -/

/-- A deployment has the components of another and maybe more, and so has its plant. -/
structure Extends (s t : Deployment × Plant) : Prop where
  plant : Plant.Grown s.2 t.2
  engines : s.1.engines.GrownBy (fun _ => True) t.1.engines
  participants : s.1.participants.GrownBy (fun _ => True) t.1.participants
  registries : s.1.registries.GrownBy (fun _ => True) t.1.registries
  managers : s.1.managers.GrownBy (fun _ => True) t.1.managers

theorem Extends.refl (s : Deployment × Plant) : Extends s s :=
  ⟨.refl _, .refl _ _, .refl _ _, .refl _ _, .refl _ _⟩

theorem Extends.trans (h : Extends s t) (h' : Extends t u) : Extends s u where
  plant := h.plant.trans h'.plant
  engines := h.engines.trans h'.engines
  participants := h.participants.trans h'.participants
  registries := h.registries.trans h'.registries
  managers := h.managers.trans h'.managers

/-- Objects are numbered, and every engine of the deployment is in the plant, unused, under one
name. -/
structure Consistent (s : Deployment × Plant) : Prop where
  numbered : s.2.Numbered
  engines : ∀ name h, s.1.engines.get? name = some h → s.2.hosts.get? h = some {}
  apart : ∀ name name' h, s.1.engines.get? name = some h → s.1.engines.get? name' = some h →
    name = name'

/-- A step of setting up that succeeds. -/
structure Builds (s t : Deployment × Plant) : Prop where
  consistent : Consistent t
  extend : Extends s t

theorem Builds.refl (hs : Consistent s) : Builds s s := ⟨hs, .refl s⟩

theorem Builds.trans (h : Builds s t) (h' : Builds t u) : Builds s u :=
  ⟨h'.consistent, h.extend.trans h'.extend⟩

/-- A plant may grow beside a deployment. -/
theorem Builds.of_grown {p : Plant} (hs : Consistent s) (h : p.Numbered ∧ s.2.Grown p) :
    Builds s (s.1, p) where
  consistent := ⟨h.1, fun name host hn => h.2.hosts.kept _ _ (hs.engines name host hn), hs.apart⟩
  extend := ⟨h.2, .refl _ _, .refl _ _, .refl _ _, .refl _ _⟩

/-- Components may be added beside the engines, and a record is made. -/
theorem Builds.of_components {d : Deployment} {r : Journal.Record} (hs : Consistent s)
    (hengines : d.engines = s.1.engines)
    (hparticipants : s.1.participants.GrownBy (fun _ => True) d.participants)
    (hregistries : s.1.registries.GrownBy (fun _ => True) d.registries)
    (hmanagers : s.1.managers.GrownBy (fun _ => True) d.managers) :
    Builds s (d, s.2.log r) where
  consistent := by
    refine ⟨⟨hs.numbered.hosts, hs.numbered.pools, hs.numbered.registries⟩, ?_, ?_⟩
    · rw [hengines]
      exact hs.engines
    · rw [hengines]
      exact hs.apart
  extend := by
    refine ⟨⟨.refl _ _, .refl _ _, .refl _ _, rfl⟩, ?_, hparticipants, hregistries, hmanagers⟩
    rw [hengines]
    exact .refl _ _

/-- A store keeps its target. -/
theorem Extends.target? {store : Store} {x : Target} (h : Extends s t)
    (hx : s.1.target? store = some x) : t.1.target? store = some x := by
  cases store with
  | file path => exact hx
  | engine name =>
    obtain ⟨host, hhost, rfl⟩ := Option.map_eq_some_iff.mp hx
    exact Option.map_eq_some_iff.mpr ⟨host, h.engines.kept _ _ hhost, rfl⟩

/-- No two stores have one target. -/
theorem Consistent.store_eq {store store' : Store} {x : Target} (hs : Consistent s)
    (h : s.1.target? store = some x) (h' : s.1.target? store' = some x) : store = store' := by
  cases store with
  | file path =>
    cases h
    cases store' with
    | file path' => cases h'; rfl
    | engine name' =>
      obtain ⟨host, -, hx⟩ := Option.map_eq_some_iff.mp h'
      cases hx
  | engine name =>
    obtain ⟨host, hhost, rfl⟩ := Option.map_eq_some_iff.mp h
    cases store' with
    | file path' => cases h'
    | engine name' =>
      obtain ⟨host', hhost', hx⟩ := Option.map_eq_some_iff.mp h'
      cases hx
      exact congrArg Store.engine (hs.apart _ _ _ hhost hhost')

/-! ## The steps -/

/-- An engine is set up when it is first asked for. -/
theorem openMemory_run (hs : Consistent s) (name : Bytes) : ∃ x engines p,
    (openMemory name).run s = (.ok x, { s.1 with engines }, p) ∧
      Builds s ({ s.1 with engines }, p) ∧
      target? { s.1 with engines } (.engine (engineName name)) = some x := by
  cases hfound : s.1.engines.get? (engineName name) with
  | some host =>
    refine ⟨.engine host, s.1.engines, s.2, ?_, .refl hs, congrArg (Option.map _) hfound⟩
    rw [engineName] at hfound
    simp only [openMemory, Action.run_bind, Action.run_read, hfound]
    rfl
  | none =>
    obtain ⟨hnumbered, hgrown⟩ := hs.numbered.addEngine
    have hnew : s.2.hosts.get? s.2.next = none := hs.numbered.hosts.absent rfl
    have hhost : ((Plant.addEngine {}).run s.2).2.hosts.get? s.2.next = some {} := by
      show (s.2.hosts.insert s.2.next _).get? s.2.next = _
      rw [Table.get?_insert, if_pos rfl]
    have hother : ∀ name h, s.1.engines.get? name = some h → h ≠ s.2.next := by
      rintro name h hn rfl
      have := hs.engines name _ hn
      rw [hnew] at this
      cases this
    refine ⟨.engine s.2.next, s.1.engines.insert (engineName name) s.2.next,
      ((Plant.addEngine {}).run s.2).2, ?_, ⟨⟨hnumbered, fun n h hn => ?_, fun n n' h hn hn' => ?_⟩,
        hgrown, .insert hfound trivial, .refl _ _, .refl _ _, .refl _ _⟩, ?_⟩
    · rw [engineName] at hfound
      simp only [openMemory, Action.run_bind, Action.run_read, hfound]
      rfl
    · rw [Table.get?_insert] at hn
      split at hn
      · cases hn
        exact hhost
      · exact hgrown.hosts.kept _ _ (hs.engines n h hn)
    · rw [Table.get?_insert] at hn hn'
      split at hn <;> split at hn'
      · next h₁ h₂ => rw [h₁, h₂]
      · cases hn
        exact absurd rfl (hother _ _ hn')
      · cases hn'
        exact absurd rfl (hother _ _ hn)
      · exact hs.apart _ _ _ hn hn'
    · show ((s.1.engines.insert _ _).get? _).map _ = _
      rw [Table.get?_insert, if_pos rfl]
      rfl

theorem openTarget_memory_eq (engine : Bytes) : openTarget "memory" engine = openMemory engine := by
  have hopener : drivers.opener (ascii "memory") = .ok openMemory := rfl
  rw [openTarget, hopener]
  exact pure_bind ..

theorem openTarget_sqlite_eq (path : Bytes) :
    openTarget "sqlite" path = pure (Target.database path) := by
  have hopener : drivers.opener (ascii "sqlite") = .ok fun path => return .database path := rfl
  rw [openTarget, hopener]
  exact pure_bind ..

/-- The places of a pool. -/
def places (c : PoolSettings) : Nat :=
  if c.maxConnections = 0 then defaultCapacity else c.maxConnections.toNat

theorem places_pos (c : PoolSettings) : 0 < places c := by
  unfold places
  split
  · decide
  · next h => exact Nat.pos_of_ne_zero fun hzero => h (UInt32.toNat_inj.mp hzero)

/-- The pool of a component as it is set up. -/
def newPool (name : Bytes) (c : PoolSettings) : Pool Line :=
  .new name (places c) ((c.acquireTimeout.map (·.toMilliseconds)).getD defaultTimeout)

theorem newPool_eq (name : Bytes) (c : PoolSettings) : newPool name c =
    { name, capacity := places c,
      timeout := (c.acquireTimeout.map (·.toMilliseconds)).getD defaultTimeout } := by
  rw [newPool, Pool.new, if_neg (Nat.ne_of_gt (places_pos c))]

theorem addPool_run (hs : Consistent s) (name : Bytes) (x : Target) (c : PoolSettings) :
    ∃ r p, (addPool name x c).run s = (.ok r, s.1, p) ∧ Builds s (s.1, p) ∧ r.target = x ∧
      p.pools.get? r = some (newPool name c) :=
  ⟨⟨s.2.next, x⟩, _, rfl, .of_grown hs (hs.numbered.addPool rfl rfl), rfl,
    (Table.get?_insert ..).trans (if_pos rfl)⟩

/-- The participant of a configuration as it is set up: over a pool to its store, with a registry
that has no session. -/
structure HasParticipant (q : ParticipantSettings) (s : Deployment × Plant) (pool : PoolRef)
    (ref : RegistryRef) : Prop where
  found : s.1.participants.get? q.name = some ⟨⟨q.name, .mysql⟩, pool⟩
  registry : s.1.registries.get? q.name = some ref
  owner : ref.owner = ⟨⟨q.name, .mysql⟩, pool⟩
  store : (participantStore? q).bind s.1.target? = some pool.target
  pool : s.2.pools.get? pool = some (newPool (ascii "participant/" ++ q.name) q.pool)
  sessions : s.2.registries.get? ref = some ∅

/-- The policy has each setting that is given, zero or not, and the default for each that is
not. -/
structure Follows (policy : Retry.Policy) (c : RetrySettings) : Prop where
  maxRetries : policy.maxRetries = c.maxRetries.getD 3
  baseBackoff : policy.baseBackoff = (c.baseBackoff.map (·.toMilliseconds)).getD 100
  maxBackoff : policy.maxBackoff = (c.maxBackoff.map (·.toMilliseconds)).getD 5000

/-- The manager of a configuration as it is set up: over a pool to its store, with the policy of
its settings. -/
structure HasManager (m : ManagerSettings) (s : Deployment × Plant) (pool : PoolRef)
    (manager : Retry.Manager) : Prop where
  found : s.1.managers.get? m.name = some ⟨manager, pool⟩
  name : manager.name = m.name
  dialect : (managerStore? m).map Store.dialect = some manager.dialect
  policy : Follows manager.policy m.retry
  store : (managerStore? m).bind s.1.target? = some pool.target
  pool : s.2.pools.get? pool = some (newPool (ascii "retry/" ++ m.name) m.pool)

theorem Extends.store {store : Option Store} {x : Target} (h : Extends s t)
    (hx : store.bind s.1.target? = some x) : store.bind t.1.target? = some x := by
  cases store with
  | none => cases hx
  | some store => exact h.target? hx

theorem HasParticipant.extend {q : ParticipantSettings} {pool : PoolRef} {ref : RegistryRef}
    (hq : HasParticipant q s pool ref) (h : Extends s t) : HasParticipant q t pool ref where
  found := h.participants.kept _ _ hq.found
  registry := h.registries.kept _ _ hq.registry
  owner := hq.owner
  store := h.store hq.store
  pool := h.plant.pools.kept _ _ hq.pool
  sessions := h.plant.registries.kept _ _ hq.sessions

theorem HasManager.extend {m : ManagerSettings} {pool : PoolRef} {manager : Retry.Manager}
    (hm : HasManager m s pool manager) (h : Extends s t) : HasManager m t pool manager where
  found := h.managers.kept _ _ hm.found
  name := hm.name
  dialect := hm.dialect
  policy := hm.policy
  store := h.store hm.store
  pool := h.plant.pools.kept _ _ hm.pool

theorem absent_of_keys {ν : Type} {table : Table Bytes ν} {name : Bytes} (h : name ∉ table.keys) :
    table.get? name = none := by
  rw [Table.mem_keys_iff, not_exists] at h
  exact Option.eq_none_iff_forall_ne_some.mpr h

/-- A participant with a new name is added, and a registry with it. -/
theorem addParticipant_run {q : ParticipantSettings} {engine : Bytes} (hs : Consistent s)
    (hq : q.backend = some (.memory engine)) (hnew : q.name ∉ s.1.participants.keys)
    (hnew' : q.name ∉ s.1.registries.keys) :
    ∃ t, (addParticipant q).run s = (.ok (), t) ∧ Builds s t ∧
      (∃ pool ref, HasParticipant q t pool ref) ∧
      t.1.participants.keys = s.1.participants.keys ++ [q.name] ∧
      t.1.registries.keys = s.1.registries.keys ++ [q.name] ∧
      t.1.managers = s.1.managers := by
  obtain ⟨x, engines, p₁, hopen, hbuilds₁, hx⟩ := openMemory_run hs engine
  obtain ⟨pool, p₂, hpool, hbuilds₂, htarget, hnewPool⟩ := addPool_run hbuilds₁.consistent
    (ascii "participant/" ++ q.name) x q.pool
  let owner : Pooled Participant := ⟨⟨q.name, .mysql⟩, pool⟩
  let ref : RegistryRef := ⟨p₂.next, owner⟩
  let p₃ := ((Plant.addRegistry owner).run p₂).2
  let d : Deployment := { s.1 with
    engines
    registries := s.1.registries.insert q.name ref
    participants := s.1.participants.insert q.name owner }
  let r : Journal.Record := ⟨.info, ascii "Participant configured",
    [.ofText (ascii "name") q.name, .ofText (ascii "dialect") Xa.Dialect.mysql.name]⟩
  have hregistry : Builds ({ s.1 with engines }, p₂) ({ s.1 with engines }, p₃) :=
    .of_grown hbuilds₂.consistent hbuilds₂.consistent.numbered.addRegistry
  have hadd : Builds ({ s.1 with engines }, p₃) (d, p₃.log r) :=
    .of_components hregistry.consistent rfl (.insert (absent_of_keys hnew) trivial)
      (.insert (absent_of_keys hnew') trivial) (.refl _ _)
  refine ⟨(d, p₃.log r), ?_, ((hbuilds₁.trans hbuilds₂).trans hregistry).trans hadd,
    ⟨pool, ref, ?_⟩, Table.keys_insert_of_absent _ (absent_of_keys hnew),
    Table.keys_insert_of_absent _ (absent_of_keys hnew'), rfl⟩
  · have hparticipant : (openParticipant q.name q.backend).run s =
        (.ok (.mysql, x), { s.1 with engines }, p₁) := by
      rw [hq]
      show (openTarget "memory" engine >>= fun x => pure (Xa.Dialect.mysql, x)).run s = _
      rw [openTarget_memory_eq, Action.run_bind, hopen]
      rfl
    unfold addParticipant
    rw [Action.run_bind, hparticipant]
    show (addPool _ x q.pool >>= _).run _ = _
    rw [Action.run_bind, hpool]
    rfl
  · exact {
      found := (Table.get?_insert ..).trans (if_pos rfl)
      registry := (Table.get?_insert ..).trans (if_pos rfl)
      owner := rfl
      store := by
        rw [participantStore?, hq, htarget]
        exact hx
      pool := hregistry.extend.plant.pools.kept _ _ hnewPool
      sessions := (Table.get?_insert ..).trans (if_pos rfl) }

/-- The target of a manager is opened, in the dialect of its store. -/
theorem openManager_run {m : ManagerSettings} (hs : Consistent s)
    (hm : (∃ engine, m.backend = some (.memory engine)) ∨
      ∃ path, m.backend = some (.sqlite path)) :
    ∃ store x engines p, managerStore? m = some store ∧
      (openManager m.name m.backend).run s =
        (.ok (store.dialect, x), { s.1 with engines }, p) ∧
      Builds s ({ s.1 with engines }, p) ∧ target? { s.1 with engines } store = some x := by
  rcases hm with ⟨engine, hm⟩ | ⟨path, hm⟩
  · obtain ⟨x, engines, p, hopen, hbuilds, hx⟩ := openMemory_run hs engine
    refine ⟨.engine (engineName engine), x, engines, p, by rw [managerStore?, hm], ?_, hbuilds, hx⟩
    rw [hm]
    show (openTarget "memory" engine >>= fun x => pure (Retry.Dialect.cockroach, x)).run s = _
    rw [openTarget_memory_eq, Action.run_bind, hopen]
    rfl
  · refine ⟨.file path, .database path, s.1.engines, s.2, by rw [managerStore?, hm], ?_, .refl hs,
      rfl⟩
    rw [hm]
    show (openTarget "sqlite" path >>= fun x => pure (Retry.Dialect.sqlite, x)).run s = _
    rw [openTarget_sqlite_eq, pure_bind]
    rfl

/-- A manager with a new name is added, if it takes its policy. -/
theorem addManager_run {m : ManagerSettings} {v : Unit} (hs : Consistent s)
    (hm : (∃ engine, m.backend = some (.memory engine)) ∨ ∃ path, m.backend = some (.sqlite path))
    (hnew : m.name ∉ s.1.managers.keys) (hrun : (addManager m).run s = (.ok v, t)) :
    Builds s t ∧ (∃ pool manager, HasManager m t pool manager) ∧
      t.1.managers.keys = s.1.managers.keys ++ [m.name] ∧
      t.1.participants = s.1.participants ∧ t.1.registries = s.1.registries := by
  obtain ⟨store, x, engines, p₁, hstore, hopen, hbuilds₁, hx⟩ := openManager_run hs hm
  obtain ⟨pool, p₂, hpool, hbuilds₂, htarget, hnewPool⟩ := addPool_run hbuilds₁.consistent
    (ascii "retry/" ++ m.name) x m.pool
  let manager : Retry.Manager := ⟨m.name, store.dialect, policyOf m.retry⟩
  let d : Deployment := { s.1 with
    engines
    managers := s.1.managers.insert m.name ⟨manager, pool⟩ }
  let r : Journal.Record := ⟨.info, ascii "Retry manager configured",
    [.ofText (ascii "name") m.name,
      .ofInt (ascii "max_retries") (policyOf m.retry).maxRetries.toNat]⟩
  have hadd : Builds ({ s.1 with engines }, p₂) (d, p₂.log r) :=
    .of_components hbuilds₂.consistent rfl (.refl _ _) (.refl _ _)
      (.insert (absent_of_keys hnew) trivial)
  unfold addManager at hrun
  rw [Action.run_bind, hopen] at hrun
  change (addPool _ x m.pool >>= _).run _ = _ at hrun
  rw [Action.run_bind, hpool] at hrun
  -- What is left to fail is the check of the policy, and then there is no `t`.
  obtain rfl : t = (d, p₂.log r) := by
    by_cases hcross : (policyOf m.retry).maxBackoff < (policyOf m.retry).baseBackoff
    · have hnew : Retry.Manager.new m.name store.dialect (policyOf m.retry) =
          .error (capBelowFault m.name) := if_pos hcross
      change ((Action.ofExcept (Retry.Manager.new m.name store.dialect (policyOf m.retry)) >>=
        _ : Setup Unit).run _) = _ at hrun
      rw [hnew] at hrun
      cases hrun
    · have hnew : Retry.Manager.new m.name store.dialect (policyOf m.retry) = .ok manager :=
        if_neg hcross
      change ((Action.ofExcept (Retry.Manager.new m.name store.dialect (policyOf m.retry)) >>=
        _ : Setup Unit).run _) = _ at hrun
      rw [hnew] at hrun
      cases hrun
      rfl
  refine ⟨(hbuilds₁.trans hbuilds₂).trans hadd, ⟨pool, manager, ?_⟩,
    Table.keys_insert_of_absent _ (absent_of_keys hnew), rfl, rfl⟩
  exact {
    found := (Table.get?_insert ..).trans (if_pos rfl)
    name := rfl
    dialect := by rw [hstore]; rfl
    policy := ⟨rfl, rfl, rfl⟩
    store := by rw [hstore, htarget]; exact hx
    pool := hnewPool }

/-! ## Whole configurations -/

/-- Participants with new names are added, in order. -/
theorem addParticipants_run {qs : List ParticipantSettings} (hs : Consistent s)
    (hqs : ∀ q ∈ qs, ∃ engine, q.backend = some (.memory engine))
    (hkeys : s.1.registries.keys = s.1.participants.keys)
    (hnames : (s.1.participants.keys ++ qs.map (·.name)).Nodup) :
    ∃ t, (Action.forEach addParticipant qs).run s = (.ok (), t) ∧ Builds s t ∧
      (∀ q ∈ qs, ∃ pool ref, HasParticipant q t pool ref) ∧
      t.1.participants.keys = s.1.participants.keys ++ qs.map (·.name) ∧
      t.1.registries.keys = t.1.participants.keys ∧ t.1.managers = s.1.managers := by
  induction qs generalizing s with
  | nil => exact ⟨s, rfl, .refl hs, nofun, (List.append_nil _).symm, hkeys, rfl⟩
  | cons q qs ih =>
    obtain ⟨engine, hq⟩ := hqs q List.mem_cons_self
    have hnew : q.name ∉ s.1.participants.keys := fun hmem =>
      (List.nodup_append.mp hnames).2.2 _ hmem _ List.mem_cons_self rfl
    obtain ⟨t, hrun, hbuilds, ⟨pool, ref, hhas⟩, hparticipants, hregistries, hmanagers⟩ :=
      addParticipant_run hs hq hnew (hkeys ▸ hnew)
    -- The name just added is apart from those that are left.
    have hnames' : (t.1.participants.keys ++ qs.map (·.name)).Nodup := by
      rw [hparticipants, List.append_assoc]
      exact hnames
    obtain ⟨u, hrest, hbuilds', hall, hparticipants', hregistries', hmanagers'⟩ :=
      ih hbuilds.consistent (fun q hq => hqs q (List.mem_cons_of_mem _ hq))
        (by rw [hregistries, hparticipants, hkeys]) hnames'
    refine ⟨u, ?_, hbuilds.trans hbuilds', List.forall_mem_cons.mpr
      ⟨⟨pool, ref, hhas.extend hbuilds'.extend⟩, hall⟩, ?_, hregistries',
      hmanagers'.trans hmanagers⟩
    · show (addParticipant q >>= fun _ => Action.forEach addParticipant qs).run s = _
      rw [Action.run_bind, hrun]
      exact hrest
    · rw [hparticipants', hparticipants, List.append_assoc]
      rfl

/-- Managers with new names are added, in order, if all take their policies. -/
theorem addManagers_run {ms : List ManagerSettings} {v : Unit} (hs : Consistent s)
    (hms : ∀ m ∈ ms, (∃ engine, m.backend = some (.memory engine)) ∨
      ∃ path, m.backend = some (.sqlite path))
    (hnames : (s.1.managers.keys ++ ms.map (·.name)).Nodup)
    (hrun : (Action.forEach addManager ms).run s = (.ok v, t)) :
    Builds s t ∧ (∀ m ∈ ms, ∃ pool manager, HasManager m t pool manager) ∧
      t.1.managers.keys = s.1.managers.keys ++ ms.map (·.name) ∧
      t.1.participants = s.1.participants ∧ t.1.registries = s.1.registries := by
  induction ms generalizing s with
  | nil =>
    cases hrun
    exact ⟨.refl hs, nofun, (List.append_nil _).symm, rfl, rfl⟩
  | cons m ms ih =>
    have hnew : m.name ∉ s.1.managers.keys := fun hmem =>
      (List.nodup_append.mp hnames).2.2 _ hmem _ List.mem_cons_self rfl
    change (addManager m >>= fun _ => Action.forEach addManager ms).run s = _ at hrun
    rw [Action.run_bind] at hrun
    rcases hfirst : (addManager m).run s with ⟨f | w, mid⟩
    · rw [hfirst] at hrun
      cases hrun
    · rw [hfirst] at hrun
      obtain ⟨hbuilds, ⟨pool, manager, hhas⟩, hmanagers, hparticipants, hregistries⟩ :=
        addManager_run hs (hms m List.mem_cons_self) hnew hfirst
      have hnames' : (mid.1.managers.keys ++ ms.map (·.name)).Nodup := by
        rw [hmanagers, List.append_assoc]
        exact hnames
      obtain ⟨hbuilds', hall, hmanagers', hparticipants', hregistries'⟩ :=
        ih hbuilds.consistent (fun m hm => hms m (List.mem_cons_of_mem _ hm)) hnames' hrun
      refine ⟨hbuilds.trans hbuilds', List.forall_mem_cons.mpr
        ⟨⟨pool, manager, hhas.extend hbuilds'.extend⟩, hall⟩, ?_,
        hparticipants'.trans hparticipants, hregistries'.trans hregistries⟩
      rw [hmanagers', hmanagers, List.append_assoc]
      rfl

/-- A name that is not among those before it, and names that are not among those before them. -/
theorem distinct_cons {α : Type} {name : α → Bytes} {seen : List Bytes} {a : α} {as : List α}
    (ha : nameProblem? seen (name a) = none)
    (has : (as.map name).Nodup ∧ ∀ b ∈ as, name b ∉ name a :: seen) :
    ((a :: as).map name).Nodup ∧ ∀ b ∈ a :: as, name b ∉ seen := by
  have hnew : name a ∉ seen := by
    unfold nameProblem? at ha
    split at ha
    · cases ha
    · split at ha
      · cases ha
      · next hmem => exact hmem
  refine ⟨List.nodup_cons.mpr ⟨fun hmem => ?_, has.1⟩, List.forall_mem_cons.mpr
    ⟨hnew, fun b hb hmem => has.2 b hb (List.mem_cons_of_mem _ hmem)⟩⟩
  obtain ⟨b, hb, heq⟩ := List.mem_map.mp hmem
  exact has.2 b hb (heq ▸ List.mem_cons_self)

theorem distinct_of_validateParticipants {seen : List Bytes} {qs : List ParticipantSettings}
    (h : validateParticipants seen qs = .ok ()) :
    (qs.map (·.name)).Nodup ∧ ∀ q ∈ qs, q.name ∉ seen := by
  induction qs generalizing seen with
  | nil => exact ⟨List.nodup_nil, nofun⟩
  | cons q qs ih =>
    unfold validateParticipants at h
    split at h
    · cases h
    · next hq =>
      simp only [ParticipantSettings.problem?, Option.orElse_eq_orElse, Option.orElse_eq_or,
        Option.or_eq_none_iff] at hq
      exact distinct_cons hq.1 (ih h)

theorem distinct_of_validateManagers {seen : List Bytes} {ms : List ManagerSettings}
    (h : validateManagers seen ms = .ok ()) :
    (ms.map (·.name)).Nodup ∧ ∀ m ∈ ms, m.name ∉ seen := by
  induction ms generalizing seen with
  | nil => exact ⟨List.nodup_nil, nofun⟩
  | cons m ms ih =>
    unfold validateManagers at h
    split at h
    · cases h
    · next hm =>
      simp only [ManagerSettings.problem?, Option.orElse_eq_orElse, Option.orElse_eq_or,
        Option.or_eq_none_iff] at hm
      exact distinct_cons hm.1 (ih h)

/-- No two participants, and no two managers, of a valid configuration have one name. -/
theorem distinct_of_valid {c : Config} (hv : c.validate = .ok ()) :
    (c.participants.map (·.name)).Nodup ∧ (c.managers.map (·.name)).Nodup := by
  unfold Config.validate at hv
  cases hp : validateParticipants [] c.participants with
  | error e =>
    rw [hp] at hv
    cases hv
  | ok u =>
    rw [hp] at hv
    exact ⟨(distinct_of_validateParticipants hp).1, (distinct_of_validateManagers hv).1⟩

/-- Every component of a configuration, and nothing else, is in the deployment. -/
structure Complete (c : Config) (s : Deployment × Plant) : Prop where
  participants : s.1.participants.keys = c.participants.map (·.name)
  registries : s.1.registries.keys = c.participants.map (·.name)
  managers : s.1.managers.keys = c.managers.map (·.name)
  participant : ∀ q ∈ c.participants, ∃ pool ref, HasParticipant q s pool ref
  manager : ∀ m ∈ c.managers, ∃ pool manager, HasManager m s pool manager

/-- There is an opener only for engines and for files. -/
theorem addParticipant_builtIn (q : ParticipantSettings) :
    (addParticipant q).Meets (fun _ => True)
      (fun _ _ => ∃ engine, q.backend = some (.memory engine)) fun _ _ => True := by
  unfold addParticipant
  refine .first ?_
  rcases q.backend with _ | engine | ⟨host, port⟩ | uri
  · exact .fail fun _ _ => trivial
  · exact .last fun _ => .pure fun _ _ => ⟨engine, rfl⟩
  · exact .fail fun _ _ => trivial
  · exact .fail fun _ _ => trivial

theorem addManager_builtIn (m : ManagerSettings) :
    (addManager m).Meets (fun _ => True)
      (fun _ _ => (∃ engine, m.backend = some (.memory engine)) ∨
        ∃ path, m.backend = some (.sqlite path)) fun _ _ => True := by
  unfold addManager
  refine .first ?_
  rcases m.backend with _ | uri | path | engine
  · exact .fail fun _ _ => trivial
  · exact .fail fun _ _ => trivial
  · exact .last fun _ => .pure fun _ _ => .inr ⟨path, rfl⟩
  · exact .last fun _ => .pure fun _ _ => .inl ⟨engine, rfl⟩

/-- What sets up a deployment adds every component. -/
theorem addAll_of_build {c : Config} {p p' : Plant} {d : Deployment}
    (hrun : (build c).run p = (.ok d, p')) :
    (addAll c).run ({ staleStem := c.staleStem }, p) = (.ok (), d, p') := by
  have hbuild : (build c).run p = (((addAll c).run ({ staleStem := c.staleStem }, p)).1.map
      fun _ => ((addAll c).run ({ staleStem := c.staleStem }, p)).2.1,
      ((addAll c).run ({ staleStem := c.staleStem }, p)).2.2) := rfl
  rw [hbuild] at hrun
  rcases hr : (addAll c).run ({ staleStem := c.staleStem }, p) with ⟨f | u, d', q⟩
  · rw [hr] at hrun
    cases hrun
  · rw [hr] at hrun
    cases hrun
    rfl

/-- A configuration that is set up is complete, and built from nothing. -/
theorem complete_of_build {c : Config} {p p' : Plant} {d : Deployment} (hp : p.Numbered)
    (hc : BuiltIn c) (hrun : (build c).run p = (.ok d, p')) :
    Complete c (d, p') ∧ Builds ({ staleStem := c.staleStem }, p) (d, p') := by
  have hs : Consistent ({ staleStem := c.staleStem }, p) := ⟨hp, nofun, nofun⟩
  have hadd := addAll_of_build hrun
  have hvalid : c.validate = .ok () := by
    cases hv : c.validate with
    | ok u => rfl
    | error i =>
      rw [addAll, hv] at hadd
      cases hadd
  obtain ⟨hparticipants, hmanagers⟩ := distinct_of_valid hvalid
  obtain ⟨t, hfirst, hbuilds, hall, hkeys, hkeys', hnone⟩ :=
    addParticipants_run hs hc.participants rfl hparticipants
  have hrest : (Action.forEach addManager c.managers).run t = (.ok (), d, p') := by
    rw [addAll, hvalid] at hadd
    change (Action.forEach addParticipant c.participants >>= fun _ =>
      Action.forEach addManager c.managers).run _ = _ at hadd
    rw [Action.run_bind, hfirst] at hadd
    exact hadd
  obtain ⟨hbuilds', hall', hkeys'', hsame, hsame'⟩ :=
    addManagers_run hbuilds.consistent hc.managers (by rw [hnone]; exact hmanagers) hrest
  refine ⟨⟨?_, ?_, ?_, fun q hq => ?_, hall'⟩, hbuilds.trans hbuilds'⟩
  · rw [hsame, hkeys]
    rfl
  · rw [hsame', hkeys', hkeys]
    rfl
  · rw [hkeys'', hnone]
    rfl
  · obtain ⟨pool, ref, hhas⟩ := hall q hq
    exact ⟨pool, ref, hhas.extend hbuilds'.extend⟩

/-- This build has the kinds of all backends of a configuration that it sets up. -/
theorem builtIn_of_build {c : Config} {p p' : Plant} {d : Deployment}
    (hrun : (build c).run p = (.ok d, p')) : BuiltIn c := by
  have hall : (addAll c).Meets (fun _ => True) (fun _ _ => BuiltIn c) fun _ _ => True := by
    unfold addAll
    refine .ofExcept_bind (fun _ _ => ?_) fun _ _ _ _ => trivial
    refine .bind (Action.Meets.forEach_only addParticipant_builtIn) fun _ s hparticipants => ?_
    have hforEach : (Action.forEach addManager c.managers).Meets (fun _ => True)
        (fun _ _ => ∀ m ∈ c.managers, (∃ engine, m.backend = some (.memory engine)) ∨
          ∃ path, m.backend = some (.sqlite path)) fun _ _ => True :=
      Action.Meets.forEach_only addManager_builtIn
    have hmanagers := hforEach s trivial
    rcases hr : (Action.forEach addManager c.managers).run s with ⟨f | u, t⟩ <;>
      rw [hr] at hmanagers
    · trivial
    · exact ⟨hparticipants, hmanagers⟩
  exact hall.ok_of_run trivial (addAll_of_build hrun)

end Coordinator.Deployment

import Coordinator.Deployment
import Coordinator.Proofs.Contract
import Coordinator.Proofs.Table

/-! # Setting up valid configurations

A configuration is valid if `Config.validate` finds no problem; setting it up makes its components,
each of which checks what it is given.  Nothing is left to object to but the delays of a manager.
The validation compares them where both are given, and the manager compares those in effect, where
a default stands for what is not given.  They disagree on **delays that cross a default**
(`CrossesDefault`): one is given and the other is not, and its default is on the wrong side.

`build_of_valid` says all that can happen to a valid configuration whose backends this build has:
every component is set up, or the first manager whose delay crosses a default refuses it. -/
namespace Coordinator.Deployment

open Config

/-! ## Delays -/

/-- One delay is given, and crosses the default of the other. -/
inductive CrossesDefault (r : RetrySettings) : Prop
  | base {base : Duration} (hbase : r.baseBackoff = some base) (hcap : r.maxBackoff = none)
      (h : ({} : Retry.Policy).maxBackoff < base.toMilliseconds)
  | cap {cap : Duration} (hbase : r.baseBackoff = none) (hcap : r.maxBackoff = some cap)
      (h : cap.toMilliseconds < ({} : Retry.Policy).baseBackoff)

/-- Delays that pass the validation are in order, unless one crosses the default of the other. -/
theorem crosses_iff {r : RetrySettings} (hr : r.problem? = none) :
    (policyOf r).maxBackoff < (policyOf r).baseBackoff ↔ CrossesDefault r := by
  obtain ⟨retries, base, cap⟩ := r
  unfold RetrySettings.problem? at hr
  split at hr
  · cases hr
  · cases base with
    | none =>
      cases cap with
      | none =>
        have hle : ¬ ({} : Retry.Policy).maxBackoff < ({} : Retry.Policy).baseBackoff := by decide
        exact ⟨fun h => absurd h hle, nofun⟩
      | some cap =>
        constructor
        · exact fun h => .cap rfl rfl h
        · rintro (⟨hbase, hcap, h⟩ | ⟨hbase, hcap, h⟩)
          · cases hbase
          · cases hcap
            exact h
    | some base =>
      cases cap with
      | none =>
        constructor
        · exact fun h => .base rfl rfl h
        · rintro (⟨hbase, hcap, h⟩ | ⟨hbase, hcap, h⟩)
          · cases hbase
            exact h
          · cases hbase
      | some cap =>
        -- Both are given, so the validation has compared them.
        have hle : ¬ cap.toMilliseconds < base.toMilliseconds := by
          intro hlt
          simp only [if_pos hlt] at hr
          cases hr
        exact ⟨fun h => absurd h hle, nofun⟩

/-! ## Validation -/

theorem problem?_retry {seen : List Bytes} {m : ManagerSettings} (h : m.problem? seen = none) :
    m.retry.problem? = none := by
  simp only [ManagerSettings.problem?, Option.orElse_eq_orElse, Option.orElse_eq_or,
    Option.or_eq_none_iff] at h
  exact h.2.2.1

theorem retry_of_validateManagers {seen : List Bytes} {ms : List ManagerSettings}
    (h : validateManagers seen ms = .ok ()) : ∀ m ∈ ms, m.retry.problem? = none := by
  induction ms generalizing seen with
  | nil => exact nofun
  | cons m ms ih =>
    unfold validateManagers at h
    split at h
    · cases h
    · next hm => exact List.forall_mem_cons.mpr ⟨problem?_retry hm, ih h⟩

/-- No manager of a valid configuration has a problem with its delays. -/
theorem retry_of_valid {c : Config} (hv : c.validate = .ok ()) :
    ∀ m ∈ c.managers, m.retry.problem? = none := by
  unfold Config.validate at hv
  cases hp : validateParticipants [] c.participants with
  | error e =>
    rw [hp] at hv
    cases hv
  | ok u =>
    rw [hp] at hv
    exact retry_of_validateManagers hv

/-! ## Components -/

/-- This build has the kinds of all backends. -/
structure BuiltIn (c : Config) : Prop where
  participants : ∀ q ∈ c.participants, ∃ engine, q.backend = some (.memory engine)
  managers : ∀ m ∈ c.managers, (∃ engine, m.backend = some (.memory engine)) ∨
    ∃ path, m.backend = some (.sqlite path)

/-- The deployment has participants, with their registries, and managers by these names. -/
structure Names (ps ms : List Bytes) (d : Deployment) : Prop where
  participants : ∀ x ∈ ps, d.participants.contains x = true
  registries : ∀ x ∈ ps, d.registries.contains x = true
  managers : ∀ x ∈ ms, d.managers.contains x = true

/-- The fault of a manager whose cap is below its first delay. -/
def capBelowFault (name : Bytes) : Fault := .of .invalidArgument
  [ascii "retry manager '", name, ascii "': max_backoff is below base_backoff"]

/-- The action never fails, and keeps what a deployment has. -/
def Keeps {α : Type} (x : Setup α) : Prop := ∀ ps ms,
  x.Meets (fun s => Names ps ms s.1) (fun _ s => Names ps ms s.1) fun _ _ => False

theorem openMemory_keeps (name : Bytes) : Keeps (openMemory name) := by
  intro ps ms
  unfold openMemory
  refine .read_bind fun found => ?_
  cases found with
  | some host => exact .pure fun _ hs => hs.1
  | none =>
    rintro s ⟨hs, -⟩
    exact ⟨hs.participants, hs.registries, hs.managers⟩

theorem openTarget_memory (engine : Bytes) : Keeps (openTarget "memory" engine) := by
  intro ps ms
  have hopener : drivers.opener (ascii "memory") = .ok openMemory := rfl
  exact .ofExcept_known hopener (openMemory_keeps engine ps ms)

theorem openTarget_sqlite (path : Bytes) : Keeps (openTarget "sqlite" path) := by
  intro ps ms
  have hopener : drivers.opener (ascii "sqlite") = .ok fun path => return .database path := rfl
  exact .ofExcept_known hopener (.pure fun _ hs => hs)

theorem addPool_keeps (name : Bytes) (target : Target) (pool : PoolSettings) :
    Keeps (addPool name target pool) := fun _ _ _ hs => hs

theorem report_keeps (message : String) (fields : List Journal.Field) :
    Keeps (report message fields) := fun _ _ => .update fun _ hs => hs

variable (ps ms : List Bytes)

theorem contains_cons {ν : Type} {t : Table Bytes ν} {xs : List Bytes} {x : Bytes} {v : ν}
    (h : ∀ y ∈ xs, t.contains y = true) : ∀ y ∈ x :: xs, (t.insert x v).contains y = true := by
  intro y hy
  rw [Table.contains_insert, Bool.or_eq_true, decide_eq_true_iff]
  exact (List.mem_cons.mp hy).imp_right (h y)

/-- A participant is added with its registry, and nothing else is lost. -/
theorem addParticipant_adds {q : ParticipantSettings} {engine : Bytes}
    (hq : q.backend = some (.memory engine)) :
    (addParticipant q).Meets (fun s => Names ps ms s.1) (fun _ s => Names (q.name :: ps) ms s.1)
      fun _ _ => False := by
  unfold addParticipant
  rw [hq]
  have hopen : (openParticipant q.name (some (.memory engine))).Meets (fun s => Names ps ms s.1)
      (fun _ s => Names ps ms s.1) fun _ _ => False :=
    (openTarget_memory engine ps ms).bind fun _ => .pure fun _ hs => hs
  refine hopen.bind fun ⟨dialect, target⟩ => ?_
  refine (addPool_keeps _ target q.pool ps ms).bind fun pool => ?_
  have hregister : (Cell.second.run (Plant.addRegistry ⟨⟨q.name, dialect⟩, pool⟩) : Setup _).Meets
      (fun s => Names ps ms s.1) (fun _ s => Names ps ms s.1) fun _ _ => False := fun _ hs => hs
  refine hregister.bind fun registry => ?_
  refine Action.Meets.bind (.update fun s hs => ?_) fun _ => report_keeps _ _ (q.name :: ps) ms
  exact ⟨contains_cons hs.participants, contains_cons hs.registries, hs.managers⟩

/-- A manager is added, unless its delays are out of order; then it is refused. -/
theorem addManager_adds {m : ManagerSettings} (hm : (∃ engine, m.backend = some (.memory engine)) ∨
    ∃ path, m.backend = some (.sqlite path)) :
    (addManager m).Meets (fun s => Names ps ms s.1)
      (fun _ s => ¬ (policyOf m.retry).maxBackoff < (policyOf m.retry).baseBackoff ∧
        Names ps (m.name :: ms) s.1)
      fun f _ => (policyOf m.retry).maxBackoff < (policyOf m.retry).baseBackoff ∧
        f = capBelowFault m.name := by
  have hopen : (openManager m.name m.backend).Meets (fun s => Names ps ms s.1)
      (fun _ s => Names ps ms s.1) fun _ _ => False := by
    rcases hm with ⟨engine, hm⟩ | ⟨path, hm⟩
    · rw [hm]
      exact (openTarget_memory engine ps ms).bind fun _ => .pure fun _ hs => hs
    · rw [hm]
      exact (openTarget_sqlite path ps ms).bind fun _ => .pure fun _ hs => hs
  unfold addManager
  refine Action.Meets.bind (hopen.mono (fun _ hs => hs) (fun _ _ hs => hs) nofun)
    fun ⟨dialect, target⟩ => ?_
  refine Action.Meets.bind ((addPool_keeps _ target m.pool ps ms).mono (fun _ hs => hs)
    (fun _ _ hs => hs) nofun) fun pool => ?_
  by_cases hcross : (policyOf m.retry).maxBackoff < (policyOf m.retry).baseBackoff
  · have hnew : Retry.Manager.new m.name dialect (policyOf m.retry) =
        .error (capBelowFault m.name) := if_pos hcross
    refine Action.Meets.ofExcept_bind (fun a ha => ?_) fun f hf s hs => ?_
    · rw [hnew] at ha
      cases ha
    · rw [hnew] at hf
      cases hf
      exact ⟨hcross, rfl⟩
  · have hnew : Retry.Manager.new m.name dialect (policyOf m.retry) =
        .ok ⟨m.name, dialect, policyOf m.retry⟩ := if_neg hcross
    refine Action.Meets.ofExcept_known hnew ?_
    refine Action.Meets.bind (.update fun s hs => ?_) fun _ =>
      (report_keeps _ _ ps (m.name :: ms)).mono (fun _ hs => hs) (fun _ _ hs => ⟨hcross, hs⟩) nofun
    exact ⟨hs.participants, hs.registries, contains_cons hs.managers⟩

/-! ## Whole configurations -/

theorem Names.mono {ps ms ps' ms' : List Bytes} {d : Deployment} (h : Names ps ms d)
    (hps : ∀ x ∈ ps', x ∈ ps) (hms : ∀ x ∈ ms', x ∈ ms) : Names ps' ms' d where
  participants x hx := h.participants x (hps x hx)
  registries x hx := h.registries x (hps x hx)
  managers x hx := h.managers x (hms x hx)

theorem addParticipants_adds {qs : List ParticipantSettings}
    (hqs : ∀ q ∈ qs, ∃ engine, q.backend = some (.memory engine)) :
    (Action.forEach addParticipant qs).Meets (fun s => Names ps ms s.1)
      (fun _ s => Names (qs.map (·.name) ++ ps) ms s.1) fun _ _ => False := by
  induction qs generalizing ps with
  | nil => exact .pure fun _ hs => hs
  | cons q qs ih =>
    obtain ⟨engine, hq⟩ := hqs q List.mem_cons_self
    have hrest := ih (q.name :: ps) fun q' hq' => hqs q' (List.mem_cons_of_mem _ hq')
    refine (addParticipant_adds ps ms hq).bind fun _ => ?_
    refine hrest.mono (fun _ hs => hs) (fun _ _ hs => ?_) fun _ _ hs => hs
    exact hs.mono (fun x hx => (List.perm_middle.mem_iff).mpr hx) fun _ hx => hx

/-- All managers are added, or one whose delays are out of order is refused. -/
theorem addManagers_adds {items : List ManagerSettings}
    (hitems : ∀ m ∈ items, (∃ engine, m.backend = some (.memory engine)) ∨
      ∃ path, m.backend = some (.sqlite path)) :
    (Action.forEach addManager items).Meets (fun s => Names ps ms s.1)
      (fun _ s => (∀ m ∈ items, ¬ (policyOf m.retry).maxBackoff < (policyOf m.retry).baseBackoff) ∧
        Names ps (items.map (·.name) ++ ms) s.1)
      fun f _ => ∃ m ∈ items, (policyOf m.retry).maxBackoff < (policyOf m.retry).baseBackoff ∧
        f = capBelowFault m.name := by
  induction items generalizing ms with
  | nil => exact .pure fun _ hs => ⟨nofun, hs⟩
  | cons m items ih =>
    have hfirst := addManager_adds ps ms (hitems m List.mem_cons_self)
    have hrest := ih (m.name :: ms) fun m' hm' => hitems m' (List.mem_cons_of_mem _ hm')
    refine Action.Meets.bind (hfirst.mono (fun _ hs => hs) (fun _ _ hs => hs) fun f s hf =>
      ⟨m, List.mem_cons_self, hf⟩) fun _ => .assuming fun hordered => ?_
    refine hrest.mono (fun _ hs => hs) (fun _ t ht => ?_) fun f t hf => ?_
    · refine ⟨List.forall_mem_cons.mpr ⟨hordered, ht.1⟩, ?_⟩
      exact ht.2.mono (fun _ hx => hx) fun x hx => (List.perm_middle.mem_iff).mpr hx
    · obtain ⟨m', hm', hf⟩ := hf
      exact ⟨m', List.mem_cons_of_mem _ hm', hf⟩

/-- **Setting up a valid configuration.**  If this build has its backends, every component is set
up, or a manager refuses a delay that crosses a default. -/
theorem build_of_valid (c : Config) (p : Plant) (hv : c.validate = .ok ()) (hc : BuiltIn c) :
    (∃ d p', (build c).run p = (.ok d, p') ∧
      Names (c.participants.map (·.name)) (c.managers.map (·.name)) d ∧
        ∀ m ∈ c.managers, ¬ CrossesDefault m.retry) ∨
    ∃ m ∈ c.managers, CrossesDefault m.retry ∧
      ∃ p', (build c).run p = (.error (capBelowFault m.name), p') := by
  have hadd : (addAll c).Meets (fun s => Names [] [] s.1) (fun _ s =>
      (∀ m ∈ c.managers, ¬ (policyOf m.retry).maxBackoff < (policyOf m.retry).baseBackoff) ∧
        Names (c.participants.map (·.name) ++ []) (c.managers.map (·.name) ++ []) s.1)
      fun f _ => ∃ m ∈ c.managers,
        (policyOf m.retry).maxBackoff < (policyOf m.retry).baseBackoff ∧
          f = capBelowFault m.name := by
    have hvalid : c.validate.mapError Config.Invalid.fault = .ok () := by rw [hv]; rfl
    refine .ofExcept_known hvalid (Action.Meets.bind ?_ fun _ => addManagers_adds _ _ hc.managers)
    exact (addParticipants_adds [] [] hc.participants).mono (fun _ hs => hs) (fun _ _ hs => hs)
      nofun
  have hcrosses (m : ManagerSettings) (hm : m ∈ c.managers) := crosses_iff (retry_of_valid hv m hm)
  have hbuild : (build c).run p = (((addAll c).run ({ staleStem := c.staleStem }, p)).1.map
      fun _ => ((addAll c).run ({ staleStem := c.staleStem }, p)).2.1,
      ((addAll c).run ({ staleStem := c.staleStem }, p)).2.2) := rfl
  rw [hbuild]
  rcases hrun : (addAll c).run ({ staleStem := c.staleStem }, p) with ⟨f | u, d, p'⟩
  · obtain ⟨m, hm, hcross, rfl⟩ := hadd.bad_of_run ⟨nofun, nofun, nofun⟩ hrun
    exact .inr ⟨m, hm, (hcrosses m hm).mp hcross, p', rfl⟩
  · obtain ⟨hordered, hnames⟩ := hadd.ok_of_run ⟨nofun, nofun, nofun⟩ hrun
    rw [List.append_nil, List.append_nil] at hnames
    exact .inl ⟨d, p', rfl, hnames, fun m hm h => hordered m hm ((hcrosses m hm).mpr h)⟩

/-- A configuration with one participant, and one manager that says how long it waits. -/
def plain : Config where
  participants := [{ name := ascii "orders", backend := some (.memory (ascii "e")) }]
  managers := [⟨ascii "ledger", {}, ⟨some 3, some { nanos := 50000000 }, some { seconds := 2 }⟩,
    some (.sqlite (ascii "ledger.db"))⟩]

/-- Both delays are given, and the configuration is set up. -/
theorem build_of_plain : ∃ d p', (build plain).run {} = (.ok d, p') ∧
    Names [ascii "orders"] [ascii "ledger"] d := by
  obtain ⟨d, p', hrun, hnames, -⟩ | ⟨m, hm, hcross, -⟩ := build_of_valid plain {} rfl
    ⟨fun q hq => ⟨ascii "e", by rw [List.mem_singleton.mp hq]⟩,
      fun m hm => .inr ⟨ascii "ledger.db", by rw [List.mem_singleton.mp hm]⟩⟩
  · exact ⟨d, p', hrun, hnames⟩
  · rw [List.mem_singleton.mp hm] at hcross
    rcases hcross with ⟨-, hcap, -⟩ | ⟨hbase, -, -⟩
    · cases hcap
    · cases hbase

/-- A manager that waits 10 seconds before its first retry, and does not say how long it waits at
most. -/
def slowManager : ManagerSettings where
  name := ascii "m"
  retry := { baseBackoff := some { seconds := 10 } }
  backend := some (.memory (ascii "e"))

/-- By default it waits 5 seconds at most.  The validation finds no problem with that, and the
manager refuses. -/
theorem slow_valid_and_refused :
    (policyOf slowManager.retry).maxBackoff < (policyOf slowManager.retry).baseBackoff ∧
      Config.validate { managers := [slowManager] } = .ok () ∧
      ((build { managers := [slowManager] }).run {}).1 = .error (capBelowFault (ascii "m")) :=
  ⟨by decide, rfl, rfl⟩

end Coordinator.Deployment

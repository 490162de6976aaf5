import Coordinator.Proofs.Plant.Operations
import Coordinator.Proofs.Registry.Steps

/-! # Registered sessions and the connections they hold

The sessions of a registry hold connections as those of callers do.  A plant **files** a registry
(`Files`) when the loans that are out are those of the sessions in the registry and the given rest.
An operation on the registry takes a session's loan out of the registry into the rest
(`take_meets`), lets the participant work on it, and where the session goes on files the loan again
(`putBack_meets`); so every operation leaves the rest as it was (`drive_meets` and what follows
it). -/
namespace Coordinator.Plant

open Engine (Branch ConnectionId)

variable {h : HostId} {k j : Nat} {exact : Prop} {R others : Table RegistryRef (Registry Line)}
  {rest : List Loan} {p : Plant} {x : Bytes} {P : Participant} {s : Session Line}
  {reg : Registry Line}

/-- A registry of a participant over the pool. -/
abbrev refOf (h : HostId) (k j : Nat) (P : Participant) : RegistryRef := ⟨j, ⟨P, poolOf h k⟩⟩

/-- The loans of sessions that a participant of the dialect drives. -/
def loansOf (d : Xa.Dialect) (sessions : List (Session Line)) : List Loan :=
  sessions.filterMap (loanOf? d)

theorem loansOf_cons (d : Xa.Dialect) (s : Session Line) (sessions : List (Session Line)) :
    loansOf d (s :: sessions) = (loanOf? d s).toList ++ loansOf d sessions := by
  unfold loansOf
  cases hl : loanOf? d s with
  | none => rw [List.filterMap_cons_none hl]; rfl
  | some loan => rw [List.filterMap_cons_some hl]; rfl

/-- The loan of one session of a list, beside the rest. -/
theorem loansOf_perm {d : Xa.Dialect} {sessions sessions' : List (Session Line)}
    (hs : sessions.Perm (s :: sessions')) : (rest ++ loansOf d sessions).Perm
      ((loanOf? d s).toList ++ (rest ++ loansOf d sessions')) := by
  have hloans : (loansOf d sessions).Perm (loansOf d (s :: sessions')) := hs.filterMap _
  rw [loansOf_cons] at hloans
  exact (hloans.append_left rest).trans (List.perm_append_comm_assoc ..)

/-- The plant has a registry of sound sessions, and other registries, and the loans of its sessions
and the rest are as said. -/
def Filed (h : HostId) (k : Nat) (P : Participant) (j : Nat)
    (others : Table RegistryRef (Registry Line)) (rest : List Loan)
    (Φ : Table RegistryRef (Registry Line) → List Loan → Plant → Prop) (p : Plant) : Prop :=
  ∃ R reg, R.get? (refOf h k j P) = some reg ∧ R.erase (refOf h k j P) = others ∧
    (∀ s ∈ reg.values, Sound h k P.dialect s) ∧ Φ R (rest ++ loansOf P.dialect reg.values) p

/-- The loans out are those of the registry and the rest. -/
abbrev Files (h : HostId) (k : Nat) (exact : Prop) (P : Participant) (j : Nat)
    (others : Table RegistryRef (Registry Line)) (rest : List Loan) : Plant → Prop :=
  Filed h k P j others rest (Lends h k exact)

/-- A session is kept besides those of the registry and the rest. -/
abbrev FilesBeside (h : HostId) (k : Nat) (exact : Prop) (P : Participant) (j : Nat)
    (others : Table RegistryRef (Registry Line)) (rest : List Loan) (s : Session Line) :
    Plant → Prop :=
  Filed h k P j others rest fun R loans => Keeps h k exact R P.dialect loans s

/-- What holds of an operation whatever the registries and loans are holds beside a registry. -/
theorem Filed.lift {α : Type} {a : Action Plant α}
    {Φ Χ : Table RegistryRef (Registry Line) → List Loan → Plant → Prop}
    {Ψ : α → Table RegistryRef (Registry Line) → List Loan → Plant → Prop}
    (ha : ∀ R loans, a.Meets (Φ R loans) (fun u => Ψ u R loans) fun _ => Χ R loans) :
    a.Meets (Filed h k P j others rest Φ) (fun u => Filed h k P j others rest (Ψ u))
      fun _ => Filed h k P j others rest Χ := by
  rintro p ⟨R, reg, hget, hothers, hsound, hp⟩
  exact (ha R _).mono (fun _ hp => hp) (fun _ _ hp => ⟨R, reg, hget, hothers, hsound, hp⟩)
    (fun _ _ hp => ⟨R, reg, hget, hothers, hsound, hp⟩) p hp

theorem Holds.set_registry {host : Host} {pool : Pool Line} (hp : Holds h k R host pool p)
    (ref : RegistryRef) (reg : Registry Line) :
    Holds h k (R.modify ref fun _ => reg) host pool ((registryCell ref).set reg p) := by
  refine ⟨hp.host, hp.pool, ?_, fun ref' hr => ?_⟩
  · show p.registries.modify ref (fun _ => reg) = _
    rw [hp.registries]
  · rw [Table.contains_modify] at hr
    exact hp.numbered ref' hr

theorem Holds.get_registry {host : Host} {pool : Pool Line} {ref : RegistryRef}
    (hp : Holds h k R host pool p) (hreg : R.get? ref = some reg) :
    (registryCell ref).get p = reg := by
  show (p.registries.get? ref).getD ∅ = reg
  rw [hp.registries, hreg]
  rfl

theorem Lends.set_registry {loans : List Loan} (hp : Lends h k exact R loans p)
    (ref : RegistryRef) (reg : Registry Line) :
    Lends h k exact (R.modify ref fun _ => reg) loans ((registryCell ref).set reg p) := by
  obtain ⟨host, pool, hh, hc, -⟩ := hp
  exact Lends.intro (hh.set_registry ref reg) hc

theorem Lends.get_registry {loans : List Loan} {ref : RegistryRef}
    (hp : Lends h k exact R loans p) (hreg : R.get? ref = some reg) :
    (registryCell ref).get p = reg := by
  obtain ⟨host, pool, hh, -, -⟩ := hp
  exact hh.get_registry hreg

/-! ## Taking out and putting in -/

/-- The session taken out is kept besides those that stay. -/
theorem take_meets {required : Option Xa.State} :
    ((alone.registry (refOf h k j P)).take x required).Meets (Files h k exact P j others rest)
      (fun s => FilesBeside h k exact P j others rest s)
      fun _ => Files h k exact P j others rest := by
  unfold Registry.Site.take
  refine Action.Meets.read_bind fun found => ?_
  refine Action.Meets.ofExcept_bind (fun ⟨s, reg'⟩ ht => ?_) fun _ _ _ hp => hp.1
  refine Action.Meets.bind ?_ fun _ => .pure fun _ hp => hp
  refine .update ?_
  rintro p ⟨⟨R, reg, hget, hothers, hsound, hp⟩, rfl⟩
  have hreg : (alone.registry (refOf h k j P)).registry.get p = reg := hp.get_registry hget
  rw [hreg] at ht
  obtain ⟨hs, rfl⟩ := Registry.take_eq_ok ht
  have hperm := Table.values_perm_of_get? hs
  refine ⟨R.modify (refOf h k j P) fun _ => reg.erase x, reg.erase x, ?_, ?_, ?_, ?_, ?_⟩
  · rw [Table.get?_modify, if_pos rfl, hget]; rfl
  · rw [Table.erase_modify, hothers]
  · exact fun s' hs' => hsound s' (hperm.mem_iff.mpr (List.mem_cons_of_mem _ hs'))
  · exact hsound s (hperm.mem_iff.mpr List.mem_cons_self)
  · exact (hp.perm (loansOf_perm hperm)).set_registry _ _

/-- A session that finds room is filed; one that does not is kept as it was. -/
theorem insert_meets {bad : Fault → Plant → Prop} :
    ((alone.registry (refOf h k j P)).insert s).Meets
      (FilesBeside h k exact P j others rest s)
      (fun found => if found then Files h k exact P j others rest
        else FilesBeside h k exact P j others rest s) bad := by
  rintro p ⟨R, reg, hget, hothers, hsound, hs, hp⟩
  have hreg : (alone.registry (refOf h k j P)).registry.get p = reg := hp.get_registry hget
  rw [Registry.insert_run, hreg]
  cases hi : reg.insert? s with
  | none => exact ⟨R, reg, hget, hothers, hsound, hs, hp⟩
  | some reg' =>
    obtain ⟨hfree, rfl⟩ := Registry.insert?_eq_some hi
    have hperm := Table.values_insert_of_absent s hfree
    refine ⟨R.modify (refOf h k j P) fun _ => reg.insert s.xid s, reg.insert s.xid s,
      ?_, ?_, ?_, ?_⟩
    · rw [Table.get?_modify, if_pos rfl, hget]; rfl
    · rw [Table.erase_modify, hothers]
    · intro s' hs'
      rcases List.mem_cons.mp (hperm.mem_iff.mp hs') with rfl | hs'
      · exact hs
      · exact hsound s' hs'
    · exact (hp.perm (loansOf_perm hperm).symm).set_registry _ _

/-- A record in the journal changes no loan beside a registry. -/
theorem FilesBeside.log (hp : FilesBeside h k exact P j others rest s p) (r : Journal.Record) :
    FilesBeside h k exact P j others rest s ((counter h k).log r p) := by
  obtain ⟨R, reg, hget, hothers, hsound, hs, hp⟩ := hp
  exact ⟨R, reg, hget, hothers, hsound, hs, hp.log r⟩

theorem log_beside {r : Journal.Record} {bad : Fault → Plant → Prop} :
    (Action.update ((counter h k).log r)).Meets (FilesBeside h k exact P j others rest s)
      (fun _ => FilesBeside h k exact P j others rest s) bad := .update fun _ hp => hp.log r

theorem Files.log (hp : Files h k exact P j others rest p) (r : Journal.Record) :
    Files h k exact P j others rest ((counter h k).log r p) := by
  obtain ⟨R, reg, hget, hothers, hsound, hp⟩ := hp
  exact ⟨R, reg, hget, hothers, hsound, hp.log r⟩

theorem FilesBeside.drop (hp : FilesBeside h k exact P j others rest s p) :
    Files h k exact P j others rest (s.drop (counter h k).toKeeper p) := by
  obtain ⟨R, reg, hget, hothers, hsound, hp⟩ := hp
  exact ⟨R, reg, hget, hothers, hsound, hp.owes.drop⟩

/-- A session put back is filed, or dropped when its xid has another session by now. -/
theorem putBack_meets : ((alone.registry (refOf h k j P)).putBack s).Meets
    (FilesBeside h k exact P j others rest s) (fun _ => Files h k exact P j others rest)
    fun _ => Files h k exact P j others rest := by
  refine Action.Meets.bind insert_meets fun found => ?_
  cases found with
  | true => exact .pure fun _ hp => hp
  | false =>
    have hdrop : (Action.update (s.drop (counter h k).toKeeper)).Meets
        (FilesBeside h k exact P j others rest s) (fun _ => Files h k exact P j others rest)
        fun _ => Files h k exact P j others rest := .update fun _ hp => hp.drop
    exact Action.Meets.bind log_beside fun _ => hdrop.bind fun _ => .fail fun _ hp => hp

/-! ## Operations on a registry -/

theorem registered_start_meets : ((alone.registry (refOf h k j P)).start x).Meets
    (Files h k exact P j others rest) (fun _ => Files h k exact P j others rest)
    fun _ => Files h k exact P j others rest := by
  have hstart : (P.start (counter h k) x).Meets (Files h k exact P j others rest)
      (fun s => FilesBeside h k exact P j others rest s)
      fun _ => Files h k exact P j others rest :=
    Filed.lift fun R loans => start_meets.mono (fun _ hp => hp) (fun _ _ hp => hp.1)
      fun _ _ hp => hp
  refine Action.Meets.bind hstart fun s => Action.Meets.bind insert_meets fun found => ?_
  cases found with
  | true => exact .pure fun _ hp => hp
  | false =>
    have hundo : (P.rollback (counter h k) s).attempt.Meets
        (FilesBeside h k exact P j others rest s) (fun _ => Files h k exact P j others rest)
        fun _ => Files h k exact P j others rest :=
      (Filed.lift fun _ _ => rollback_meets).attempt (fun _ _ hp => hp) fun _ _ hp => hp
    refine Action.Meets.bind log_beside fun _ => hundo.bind fun ending => ?_
    cases ending with
    | ok => exact .fail fun _ hp => hp
    | error f =>
      exact Action.Meets.bind (.update fun _ hp => Files.log hp _) fun _ => .fail fun _ hp => hp

/-- An operation in place on a registered session files it again or gives its connection up. -/
theorem drive_meets {required : Xa.State} {operation : Action (Session Line × Plant) Unit}
    (ho : ∀ R loans, operation.Meets (KeepsFirst h k exact R P.dialect loans)
      (fun _ => KeepsFirst h k exact R P.dialect loans)
      fun _ => KeepsFirst h k exact R P.dialect loans) :
    ((alone.registry (refOf h k j P)).drive x required operation).Meets
      (Files h k exact P j others rest) (fun _ => Files h k exact P j others rest)
      fun _ => Files h k exact P j others rest := by
  refine Action.Meets.bind take_meets fun s => Action.Meets.bind ?_ fun s' => putBack_meets
  rintro p ⟨R, reg, hget, hothers, hsound, hp⟩
  have hend := ho R _ (s, p) hp
  rcases hr : operation.run (s, p) with ⟨f | u, s', t⟩
  · rw [hr] at hend
    simp only [Action.run] at hr ⊢
    simp only [hr]
    exact ⟨R, reg, hget, hothers, hsound, hend.owes.drop⟩
  · rw [hr] at hend
    simp only [Action.run] at hr ⊢
    simp only [hr]
    exact ⟨R, reg, hget, hothers, hsound, hend⟩

theorem registered_finish_meets : ((alone.registry (refOf h k j P)).finish x).Meets
    (Files h k exact P j others rest) (fun _ => Files h k exact P j others rest)
    fun _ => Files h k exact P j others rest := drive_meets fun _ _ => finish_meets

theorem registered_prepare_meets : ((alone.registry (refOf h k j P)).prepare x).Meets
    (Files h k exact P j others rest) (fun _ => Files h k exact P j others rest)
    fun _ => Files h k exact P j others rest := drive_meets fun _ _ => prepare_meets

theorem registered_commit_meets : ((alone.registry (refOf h k j P)).commit x).Meets
    (Files h k exact P j others rest) (fun _ => Files h k exact P j others rest)
    fun _ => Files h k exact P j others rest :=
  take_meets.bind fun _ => Filed.lift fun _ _ => commit_meets

theorem registered_rollback_meets : ((alone.registry (refOf h k j P)).rollback x).Meets
    (Files h k exact P j others rest) (fun _ => Files h k exact P j others rest)
    fun _ => Files h k exact P j others rest :=
  take_meets.bind fun _ => Filed.lift fun _ _ => rollback_meets

end Coordinator.Plant

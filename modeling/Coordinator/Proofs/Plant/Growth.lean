import Coordinator.Plant
import Coordinator.Proofs.Table

/-! # Plants that grow

An object that is set up in a plant gets the next number, which no object has yet
(`Plant.Numbered`).  So whatever is set up, the plant **grows** (`Plant.Grown`): the objects it had
stay as they were, and the new ones have not been used.  An engine is as it comes, a pool has
opened no connection, a registry has no session, and the SQLite library has not been called. -/
namespace Coordinator

namespace Table

variable {κ ν : Type} [DecidableEq κ] {P : ν → Prop} {number : κ → Nat} {next : Nat}
  {t t' t'' : Table κ ν} {k : κ} {v : ν}

/-- A table with more keys: those it had have their values, and the values of new ones satisfy
`P`. -/
structure GrownBy (P : ν → Prop) (t t' : Table κ ν) : Prop where
  kept : ∀ k v, t.get? k = some v → t'.get? k = some v
  new : ∀ k v, t'.get? k = some v → t.get? k = some v ∨ P v

theorem GrownBy.refl (P : ν → Prop) (t : Table κ ν) : GrownBy P t t :=
  ⟨fun _ _ h => h, fun _ _ h => .inl h⟩

theorem GrownBy.trans (h : GrownBy P t t') (h' : GrownBy P t' t'') : GrownBy P t t'' where
  kept k v hv := h'.kept k v (h.kept k v hv)
  new k v hv := (h'.new k v hv).elim (h.new k v) .inr

theorem GrownBy.insert (habsent : t.get? k = none) (hv : P v) : GrownBy P t (t.insert k v) where
  kept j w hw := by
    rw [get?_insert, if_neg]
    · exact hw
    · rintro rfl
      rw [habsent] at hw
      cases hw
  new j w hw := by
    rw [get?_insert] at hw
    split at hw
    · cases hw
      exact .inr hv
    · exact .inl hw

/-- The keys have numbers below the next one. -/
def Below (number : κ → Nat) (next : Nat) (t : Table κ ν) : Prop :=
  ∀ k v, t.get? k = some v → number k < next

theorem Below.succ (h : t.Below number next) : t.Below number (next + 1) := fun k v hv =>
  Nat.lt_succ_of_lt (h k v hv)

theorem Below.absent (h : t.Below number next) (hk : number k = next) : t.get? k = none := by
  cases hv : t.get? k with
  | none => rfl
  | some v => exact absurd (h k v hv) (by rw [hk]; exact Nat.lt_irrefl _)

/-- The key with the next number is added. -/
theorem Below.insert (h : t.Below number next) (hk : number k = next) :
    (t.insert k v).Below number (next + 1) := by
  intro j w hw
  rw [get?_insert] at hw
  split at hw
  · next hj => rw [hj, hk]; exact Nat.lt_succ_self _
  · exact h.succ j w hw

end Table

namespace Plant

variable {p p' p'' : Plant} {target : Target} {pool : Pool Line} {owner : Pooled Participant}

/-- The objects of a plant have numbers below the next one. -/
structure Numbered (p : Plant) : Prop where
  hosts : p.hosts.Below id p.next
  pools : p.pools.Below PoolRef.number p.next
  registries : p.registries.Below RegistryRef.number p.next

theorem numbered_empty : Numbered {} := ⟨nofun, nofun, nofun⟩

/-- A plant with more objects: those it had are as they were, and the new ones have not been
used. -/
structure Grown (p p' : Plant) : Prop where
  hosts : p.hosts.GrownBy (· = {}) p'.hosts
  pools : p.pools.GrownBy (fun pool => pool.idle = [] ∧ pool.live = 0) p'.pools
  registries : p.registries.GrownBy (· = ∅) p'.registries
  sqlite : p'.sqlite = p.sqlite

theorem Grown.refl (p : Plant) : Grown p p := ⟨.refl _ _, .refl _ _, .refl _ _, rfl⟩

theorem Grown.trans (h : Grown p p') (h' : Grown p' p'') : Grown p p'' where
  hosts := h.hosts.trans h'.hosts
  pools := h.pools.trans h'.pools
  registries := h.registries.trans h'.registries
  sqlite := h'.sqlite.trans h.sqlite

theorem Numbered.addEngine (h : p.Numbered) :
    Numbered ((addEngine {}).run p).2 ∧ Grown p ((addEngine {}).run p).2 :=
  ⟨⟨h.hosts.insert rfl, h.pools.succ, h.registries.succ⟩,
    ⟨.insert (h.hosts.absent rfl) rfl, .refl _ _, .refl _ _, rfl⟩⟩

theorem Numbered.addPool (h : p.Numbered) (hidle : pool.idle = []) (hlive : pool.live = 0) :
    Numbered ((addPool target pool).run p).2 ∧ Grown p ((addPool target pool).run p).2 :=
  ⟨⟨h.hosts.succ, h.pools.insert rfl, h.registries.succ⟩,
    ⟨.refl _ _, .insert (h.pools.absent rfl) ⟨hidle, hlive⟩, .refl _ _, rfl⟩⟩

theorem Numbered.addRegistry (h : p.Numbered) :
    Numbered ((addRegistry owner).run p).2 ∧ Grown p ((addRegistry owner).run p).2 :=
  ⟨⟨h.hosts.succ, h.pools.succ, h.registries.insert rfl⟩,
    ⟨.refl _ _, .refl _ _, .insert (h.registries.absent rfl) rfl, rfl⟩⟩

end Plant
end Coordinator

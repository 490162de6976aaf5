import Coordinator.Engine.Branch
import Coordinator.Proofs.Table

/-! # Moves of branches

`Branches.perform` answers a protocol step with a new table or a refusal.  `Moves` are the rules of
the protocol in the form a server's manual has them: which branch a step needs, and what becomes
of it.  The two agree (`perform_eq_ok_iff`), and so every fact about accepted steps is a case
analysis on the rules.

A table is **settled** (`Detached`) when its prepared branches belong to nobody, which every move
keeps (`Moves.detached`). -/
namespace Coordinator.Engine.Branches

variable {t u : Branches} {c : ConnectionId} {x y : Bytes}

/-- The accepted steps of connection `c` with the branch of `x`, and the table after them. -/
inductive Moves (t : Branches) (c : ConnectionId) (x : Bytes) : Verb → Branches → Prop
  | start (hfree : t.hasOpen c = false) (hnew : t.get? x = none) :
      Moves t c x .start (t.insert x ⟨.active, c⟩)
  | finish (hx : t.get? x = some ⟨.active, c⟩) : Moves t c x .finish (t.insert x ⟨.idle, c⟩)
  | prepare (hx : t.get? x = some ⟨.idle, c⟩) : Moves t c x .prepare (t.insert x .detached)
  | commitOnePhase (hx : t.get? x = some ⟨.idle, c⟩) : Moves t c x (.commit true) (t.erase x)
  | commit (owner : ConnectionId) (hx : t.get? x = some ⟨.prepared, owner⟩) :
      Moves t c x (.commit false) (t.erase x)
  | rollbackOwn (hx : t.get? x = some ⟨.idle, c⟩) : Moves t c x .rollback (t.erase x)
  | rollback (owner : ConnectionId) (hx : t.get? x = some ⟨.prepared, owner⟩) :
      Moves t c x .rollback (t.erase x)

/-! ## What a connection sees -/

theorem visible?_eq_some_iff {b : Branch} :
    t.visible? c x = some b ↔ t.get? x = some b ∧ (b.stage = .prepared ∨ b.owner = c) := by
  rw [visible?, Option.filter_eq_some_iff, decide_eq_true_iff]

theorem visible?_own {stage : Stage} (hx : t.get? x = some ⟨stage, c⟩) :
    t.visible? c x = some ⟨stage, c⟩ := visible?_eq_some_iff.mpr ⟨hx, Or.inr rfl⟩

theorem visible?_prepared {owner : ConnectionId} (hx : t.get? x = some ⟨.prepared, owner⟩) :
    t.visible? c x = some ⟨.prepared, owner⟩ := visible?_eq_some_iff.mpr ⟨hx, Or.inl rfl⟩

/-- An unprepared branch that a connection sees is its own. -/
theorem get?_of_visible? {b : Branch} (hv : t.visible? c x = some b) (hb : b.stage ≠ .prepared) :
    t.get? x = some ⟨b.stage, c⟩ := by
  obtain ⟨hx, hp | rfl⟩ := visible?_eq_some_iff.mp hv
  · exact absurd hp hb
  · exact hx

/-! ## Accepted steps and the rules -/

theorem moves_of_start (h : t.perform c .start x = .ok u) : t.Moves c x .start u := by
  simp only [perform] at h
  split at h
  · cases h
  · next hfree =>
    split at h
    · cases h
    · next hnew =>
      cases h
      exact .start (Bool.not_eq_true _ ▸ hfree)
        ((t.contains_eq_false_iff x).mp (Bool.not_eq_true _ ▸ hnew))

theorem moves_of_finish (h : t.perform c .finish x = .ok u) : t.Moves c x .finish u := by
  simp only [perform] at h
  cases hv : t.visible? c x with
  | none => rw [hv] at h; cases h
  | some b =>
    rw [hv] at h
    simp only at h
    split at h
    · next hs =>
      cases h
      have hx := get?_of_visible? hv (by rw [hs]; decide)
      rw [hs] at hx
      -- An active branch is seen by its owner only, so the owner stays.
      obtain ⟨-, hp | hc⟩ := visible?_eq_some_iff.mp hv
      · rw [hs] at hp; cases hp
      · rw [hc]; exact .finish hx
    · cases h

theorem moves_of_prepare (h : t.perform c .prepare x = .ok u) : t.Moves c x .prepare u := by
  simp only [perform] at h
  cases hv : t.visible? c x with
  | none => rw [hv] at h; cases h
  | some b =>
    rw [hv] at h
    simp only at h
    split at h
    · next hs =>
      cases h
      exact .prepare (hs ▸ get?_of_visible? hv (by rw [hs]; decide))
    · cases h

theorem moves_of_commit {onePhase : Bool} (h : t.perform c (.commit onePhase) x = .ok u) :
    t.Moves c x (.commit onePhase) u := by
  simp only [perform] at h
  cases hv : t.visible? c x with
  | none => rw [hv] at h; cases h
  | some b =>
    rw [hv] at h
    cases onePhase with
    | true =>
      simp only [if_true] at h
      split at h
      · next hs =>
        cases h
        exact .commitOnePhase (hs ▸ get?_of_visible? hv (by rw [hs]; decide))
      · cases h
    | false =>
      simp only [Bool.false_eq_true, if_false] at h
      split at h
      · next hs =>
        cases h
        exact .commit b.owner (hs ▸ (visible?_eq_some_iff.mp hv).1)
      · cases h

theorem moves_of_rollback (h : t.perform c .rollback x = .ok u) : t.Moves c x .rollback u := by
  simp only [perform] at h
  cases hv : t.visible? c x with
  | none => rw [hv] at h; cases h
  | some b =>
    rw [hv] at h
    simp only at h
    split at h
    · cases h
    · next hs =>
      cases h
      cases hb : b.stage with
      | active => exact absurd hb hs
      | idle => exact .rollbackOwn (hb ▸ get?_of_visible? hv (by rw [hb]; decide))
      | prepared => exact .rollback b.owner (hb ▸ (visible?_eq_some_iff.mp hv).1)

/-- The accepted steps are those of the rules. -/
theorem perform_eq_ok_iff {verb : Verb} : t.perform c verb x = .ok u ↔ t.Moves c x verb u := by
  constructor
  · intro h
    cases verb with
    | start => exact moves_of_start h
    | finish => exact moves_of_finish h
    | prepare => exact moves_of_prepare h
    | commit onePhase => exact moves_of_commit h
    | rollback => exact moves_of_rollback h
  · intro h
    cases h with
    | start hfree hnew =>
      have hc : t.contains x = false := (t.contains_eq_false_iff x).mpr hnew
      simp [perform, hfree, hc]
    | finish hx => simp [perform, visible?_own hx]
    | prepare hx => simp [perform, visible?_own hx]
    | commitOnePhase hx => simp [perform, visible?_own hx]
    | commit owner hx => simp [perform, visible?_prepared hx]
    | rollbackOwn hx => simp [perform, visible?_own hx]
    | rollback owner hx => simp [perform, visible?_prepared hx]

/-- An accepted step leaves the branches of other xids alone. -/
theorem Moves.get?_of_ne {verb : Verb} (h : t.Moves c x verb u) (hy : y ≠ x) :
    u.get? y = t.get? y := by
  cases h <;> simp only [Table.get?_insert, Table.get?_erase, if_neg hy]

/-- Whatever is done to a prepared branch without settling it is refused. -/
theorem Moves.settles_prepared {verb : Verb} {owner : ConnectionId} (h : t.Moves c x verb u)
    (hx : t.get? x = some ⟨.prepared, owner⟩) : verb = .commit false ∨ verb = .rollback := by
  cases h with
  | start _ hnew => rw [hnew] at hx; cases hx
  | finish h | prepare h | commitOnePhase h | rollbackOwn h => rw [h] at hx; cases hx
  | commit => exact Or.inl rfl
  | rollback => exact Or.inr rfl

/-! ## Connections that close -/

theorem hasOpen_eq_false_iff :
    t.hasOpen c = false ↔ ∀ x b, t.get? x = some b → b.isOpenOn c = false := by
  rw [hasOpen, List.any_eq_false]
  constructor
  · intro h x b hb
    exact Bool.not_eq_true _ ▸ h b ((t.mem_values_iff b).mpr ⟨x, hb⟩)
  · intro h b hb
    obtain ⟨x, hx⟩ := (t.mem_values_iff b).mp hb
    rw [h x b hx]
    exact Bool.false_ne_true

/-- A connection without a branch has none among fewer. -/
theorem hasOpen_of_fewer (h : ∀ y b, u.get? y = some b → t.get? y = some b)
    (hfree : t.hasOpen c = false) : u.hasOpen c = false :=
  hasOpen_eq_false_iff.mpr fun y b hy => hasOpen_eq_false_iff.mp hfree y b (h y b hy)

theorem isOpenOn_iff {b : Branch} : b.isOpenOn c = true ↔ b.owner = c ∧ b.stage ≠ .prepared := by
  rw [Branch.isOpenOn, Bool.and_eq_true, beq_iff_eq, bne_iff_ne]

theorem get?_disconnect (t : Branches) (c : ConnectionId) (x : Bytes) :
    (t.disconnect c).get? x = (t.get? x).filter fun b => !b.isOpenOn c :=
  t.get?_filter _ x

/-- A branch that goes away with no connection stays when one closes. -/
theorem get?_disconnect_of_kept {b : Branch} (hx : t.get? x = some b)
    (hb : b.isOpenOn c = false) : (t.disconnect c).get? x = some b := by
  rw [get?_disconnect, hx, Option.filter_some, hb, Bool.not_false, if_pos rfl]

/-- A connection without a branch closes, and no branch is missed. -/
theorem get?_disconnect_of_free (h : t.hasOpen c = false) (x : Bytes) :
    (t.disconnect c).get? x = t.get? x := by
  cases hx : t.get? x with
  | none => rw [get?_disconnect, hx, Option.filter_none]
  | some b => exact get?_disconnect_of_kept hx (hasOpen_eq_false_iff.mp h x b hx)

theorem get?_of_get?_disconnect {b : Branch} (hx : (t.disconnect c).get? x = some b) :
    t.get? x = some b ∧ b.isOpenOn c = false := by
  rw [get?_disconnect, Option.filter_eq_some_iff] at hx
  exact ⟨hx.1, Bool.not_eq_true' _ ▸ hx.2⟩

/-- A connection closes once. -/
theorem get?_disconnect_disconnect (t : Branches) (c : ConnectionId) (x : Bytes) :
    ((t.disconnect c).disconnect c).get? x = (t.disconnect c).get? x := by
  rw [get?_disconnect _ c x, get?_disconnect t c x, Option.filter_filter]
  simp only [Bool.and_self]

/-- A step that prepares nothing and settles nothing prepared is gone with its connection. -/
theorem Moves.get?_disconnect {verb : Verb} (h : t.Moves c x verb u) (hv : verb ≠ .prepare)
    (hx : ∀ b, t.get? x = some b → b.stage ≠ .prepared) (y : Bytes) :
    (u.disconnect c).get? y = (t.disconnect c).get? y := by
  rw [Branches.get?_disconnect, Branches.get?_disconnect]
  by_cases hy : y = x
  · subst hy
    cases h with
    | prepare => exact absurd rfl hv
    | commit owner h | rollback owner h => exact absurd rfl (hx _ h)
    | start _ h | finish h =>
      rw [h, Table.get?_insert, if_pos rfl]
      simp [Branch.isOpenOn, Option.filter_some]
    | commitOnePhase h | rollbackOwn h =>
      rw [h, Table.get?_erase, if_pos rfl]
      simp [Branch.isOpenOn, Option.filter_some]
  · rw [h.get?_of_ne hy]

/-- Only a prepare makes a prepared branch. -/
theorem Moves.stage_ne {verb : Verb} (h : t.Moves c x verb u) (hv : verb ≠ .prepare) :
    ∀ b, u.get? x = some b → b.stage ≠ .prepared := by
  intro b hb
  cases h with
  | prepare => exact absurd rfl hv
  | start | finish =>
    rw [Table.get?_insert, if_pos rfl] at hb
    cases hb
    exact nofun
  | commitOnePhase | commit | rollbackOwn | rollback =>
    rw [Table.get?_erase, if_pos rfl] at hb
    cases hb

/-! ## Prepared branches belong to nobody -/

/-- Every prepared branch is detached from the connection that prepared it. -/
def Detached (t : Branches) : Prop :=
  ∀ x b, t.get? x = some b → b.stage = .prepared → b = .detached

theorem detached_empty : Detached ∅ := fun x b h => by rw [Table.get?_empty] at h; cases h

theorem Detached.insert (h : t.Detached) {b : Branch} (hb : b.stage = .prepared → b = .detached) :
    Detached (t.insert x b) := by
  intro y b' hy hp
  rw [Table.get?_insert] at hy
  split at hy
  · obtain rfl := Option.some.inj hy
    exact hb hp
  · exact h y b' hy hp

theorem Detached.erase (h : t.Detached) : Detached (t.erase x) := by
  intro y b hy
  rw [Table.get?_erase] at hy
  split at hy
  · cases hy
  · exact h y b hy

theorem Detached.disconnect (h : t.Detached) : (t.disconnect c).Detached :=
  fun y b hy => h y b (get?_of_get?_disconnect hy).1

theorem Moves.detached {verb : Verb} (h : t.Moves c x verb u) (ht : t.Detached) :
    u.Detached := by
  cases h with
  | start | finish => exact ht.insert fun hp => by cases hp
  | prepare => exact ht.insert fun _ => rfl
  | commitOnePhase | commit | rollbackOwn | rollback => exact ht.erase

end Coordinator.Engine.Branches

import Coordinator.Table
import Mathlib.Data.List.Perm.Basic

/-! # Entries and values of a table

`Table.get?` says what a table maps a key to.  This module says which entries a table holds: one is
in the list exactly when `get?` finds it (`mem_entries_iff`), and each operation changes the
entries, as a bag, by the one it touches (`entries_perm_of_get?`, `entries_insert_perm`).  Counting
what is kept in tables goes through these. -/
namespace Coordinator.Table

variable {κ ν : Type} [DecidableEq κ]

theorem mem_entries_iff (t : Table κ ν) (k : κ) (v : ν) :
    (k, v) ∈ t.entries ↔ t.get? k = some v := by
  obtain ⟨l, hl⟩ := t
  show (k, v) ∈ l ↔ l.lookup k = some v
  induction l with
  | nil => simp
  | cons e l ih =>
    obtain ⟨a, w⟩ := e
    rw [List.map_cons, List.nodup_cons] at hl
    have ih := ih hl.2
    by_cases hk : k = a
    · subst hk
      rw [List.lookup_cons_self, List.mem_cons]
      constructor
      · rintro (h | h)
        · exact congrArg some (Prod.mk.inj h).2.symm
        · exact absurd (List.mem_map_of_mem (f := Prod.fst) h) hl.1
      · intro h
        exact Or.inl (congrArg (Prod.mk k) (Option.some.inj h).symm)
    · rw [List.mem_cons, List.lookup_cons, beq_eq_false_iff_ne.mpr hk, ← ih]
      exact ⟨fun h => h.resolve_left fun he => hk (Prod.mk.inj he).1, Or.inr⟩

theorem mem_values_iff (t : Table κ ν) (v : ν) : v ∈ t.values ↔ ∃ k, t.get? k = some v := by
  constructor
  · intro h
    obtain ⟨⟨k, w⟩, he, rfl⟩ := List.mem_map.mp h
    exact ⟨k, (t.mem_entries_iff k w).mp he⟩
  · rintro ⟨k, h⟩
    exact List.mem_map.mpr ⟨(k, v), (t.mem_entries_iff k v).mpr h, rfl⟩

theorem contains_eq_false_iff (t : Table κ ν) (k : κ) : t.contains k = false ↔ t.get? k = none := by
  rw [contains, Option.isSome_eq_false_iff, Option.isNone_iff_eq_none]

theorem contains_iff (t : Table κ ν) (k : κ) : t.contains k = true ↔ ∃ v, t.get? k = some v :=
  Option.isSome_iff_exists

theorem contains_insert (t : Table κ ν) (k j : κ) (v : ν) :
    (t.insert k v).contains j = (decide (j = k) || t.contains j) := by
  rw [contains, get?_insert]
  by_cases h : j = k
  · rw [if_pos h, decide_eq_true h]
    rfl
  · rw [if_neg h, decide_eq_false h]
    rfl

@[simp] theorem contains_modify (t : Table κ ν) (k j : κ) (f : ν → ν) :
    (t.modify k f).contains j = t.contains j := by
  rw [contains, contains, get?_modify]
  split
  · exact Option.isSome_map ..
  · rfl

/-- What a table has after a value is replaced is the new value, or was there before. -/
theorem eq_or_of_get?_replace {t : Table κ ν} {k j : κ} {v w : ν}
    (h : (t.modify k fun _ => v).get? j = some w) : w = v ∨ t.get? j = some w := by
  rw [get?_modify] at h
  split at h
  · obtain ⟨_, -, rfl⟩ := Option.map_eq_some_iff.mp h
    exact Or.inl rfl
  · exact Or.inr h

theorem eq_or_of_get?_insert {t : Table κ ν} {k j : κ} {v w : ν}
    (h : (t.insert k v).get? j = some w) : w = v ∨ t.get? j = some w := by
  rw [get?_insert] at h
  split at h
  · exact Or.inl (Option.some.inj h).symm
  · exact Or.inr h

theorem get?_of_get?_erase {t : Table κ ν} {k j : κ} {v : ν}
    (h : (t.erase k).get? j = some v) : t.get? j = some v := by
  rw [get?_erase] at h
  split at h
  · cases h
  · exact h

theorem get?_filter (t : Table κ ν) (p : κ → ν → Bool) (k : κ) :
    (t.filter p).get? k = (t.get? k).filter (p k) := by
  refine Option.ext fun v => ?_
  rw [← mem_entries_iff, Option.filter_eq_some_iff, ← mem_entries_iff]
  exact List.mem_filter

/-- Replacing a value by itself changes nothing. -/
theorem modify_eq_self {t : Table κ ν} {k : κ} {f : ν → ν} (h : ∀ v, t.get? k = some v → f v = v) :
    t.modify k f = t := by
  have hentries : (t.entries.map fun e => if e.1 = k then (e.1, f e.2) else e) = t.entries := by
    refine (List.map_congr_left fun e he => ?_).trans (List.map_id _)
    obtain ⟨a, v⟩ := e
    by_cases ha : a = k
    · subst ha
      have hv := h v ((mem_entries_iff t a v).mp he)
      rw [if_pos rfl, hv]
      rfl
    · exact if_neg ha
  show (⟨t.entries.map _, _⟩ : Table κ ν) = t
  simp only [hentries]

theorem mem_keys_iff (t : Table κ ν) (k : κ) : k ∈ t.keys ↔ ∃ v, t.get? k = some v := by
  constructor
  · exact fun h => (contains_iff t k).mp (contains_of_mem_keys h)
  · rintro ⟨v, hv⟩
    exact List.mem_map.mpr ⟨(k, v), (mem_entries_iff t k v).mpr hv, rfl⟩

/-- A new key comes last. -/
theorem keys_insert_of_absent {t : Table κ ν} {k : κ} (v : ν) (h : t.get? k = none) :
    (t.insert k v).keys = t.keys ++ [k] := by
  have hc : ¬ t.contains k = true := by
    rw [(contains_eq_false_iff t k).mpr h]
    exact Bool.false_ne_true
  rw [insert, dif_neg hc]
  show (t.entries ++ [(k, v)]).map Prod.fst = _
  rw [List.map_append]
  rfl

/-- Without a key, it does not matter that its value was replaced. -/
theorem erase_modify (t : Table κ ν) (k : κ) (f : ν → ν) : (t.modify k f).erase k = t.erase k := by
  have hentries : (t.entries.map fun e => if e.1 = k then (e.1, f e.2) else e).filter
      (fun e => e.1 != k) = t.entries.filter fun e => e.1 != k := by
    induction t.entries with
    | nil => rfl
    | cons e l ih =>
      by_cases he : e.1 = k
      · simp [he, ih]
      · simp [he, ih]
  show (⟨(t.entries.map fun e => if e.1 = k then (e.1, f e.2) else e).filter _, _⟩ : Table κ ν) = _
  simp only [hentries]
  rfl

/-- Erasing a key that has no value changes nothing. -/
theorem erase_of_absent {t : Table κ ν} {k : κ} (h : t.get? k = none) : t.erase k = t := by
  obtain ⟨l, hl⟩ := t
  have hkeep : l.filter (fun e => e.1 != k) = l := by
    refine List.filter_eq_self.mpr fun e he => ?_
    rw [bne_comm]
    exact Bool.not_eq_true' _ ▸ List.lookup_eq_none_iff.mp h e he
  show (⟨l.filter fun e => e.1 != k, _⟩ : Table κ ν) = ⟨l, hl⟩
  simp only [hkeep]

/-- Without a key, it does not matter that it was given a value. -/
theorem erase_insert (t : Table κ ν) (k : κ) (v : ν) : (t.insert k v).erase k = t.erase k := by
  by_cases hc : t.contains k = true
  · rw [insert, dif_pos hc, erase_modify]
  · have hentries : (t.entries ++ [(k, v)]).filter (fun e => e.1 != k) =
        t.entries.filter fun e => e.1 != k := by
      rw [List.filter_append, List.filter_cons_of_neg (by simp), List.filter_nil, List.append_nil]
    rw [insert, dif_neg hc]
    show (⟨(t.entries ++ [(k, v)]).filter fun e => e.1 != k, _⟩ : Table κ ν) = _
    simp only [hentries]
    rfl

/-! ## Entries as a bag -/

/-- A table without a key holds what the table holds, less the entry of the key. -/
theorem entries_perm_of_get? {t : Table κ ν} {k : κ} {v : ν} (h : t.get? k = some v) :
    t.entries.Perm ((k, v) :: (t.erase k).entries) := by
  obtain ⟨l, hl⟩ := t
  have hm : (k, v) ∈ l := ((⟨l, hl⟩ : Table κ ν).mem_entries_iff k v).mpr h
  clear h
  show l.Perm ((k, v) :: l.filter fun e => e.1 != k)
  induction l with
  | nil => cases hm
  | cons e l ih =>
    rw [List.map_cons, List.nodup_cons] at hl
    rcases List.mem_cons.mp hm with rfl | hm
    · have hrest : l.filter (fun e => e.1 != k) = l := by
        refine List.filter_eq_self.mpr fun e he => bne_iff_ne.mpr fun heq => hl.1 ?_
        exact List.mem_map.mpr ⟨e, he, heq⟩
      rw [List.filter_cons_of_neg (by simp), hrest]
    · have hne : (e.1 != k) = true :=
        bne_iff_ne.mpr fun heq => hl.1 (List.mem_map.mpr ⟨(k, v), hm, heq.symm⟩)
      rw [List.filter_cons, if_pos hne]
      exact ((ih hl.2 hm).cons e).trans (List.Perm.swap _ _ _)

/-- Giving a key a value adds the entry, in place of the one the key had. -/
theorem entries_insert_perm (t : Table κ ν) (k : κ) (v : ν) :
    (t.insert k v).entries.Perm ((k, v) :: (t.erase k).entries) := by
  have hv : (t.insert k v).get? k = some v := by rw [get?_insert, if_pos rfl]
  rw [← erase_insert t k v]
  exact entries_perm_of_get? hv

theorem values_perm_of_get? {t : Table κ ν} {k : κ} {v : ν} (h : t.get? k = some v) :
    t.values.Perm (v :: (t.erase k).values) := (entries_perm_of_get? h).map Prod.snd

theorem values_insert_of_absent {t : Table κ ν} {k : κ} (v : ν) (h : t.get? k = none) :
    (t.insert k v).values.Perm (v :: t.values) := by
  have hperm := (entries_insert_perm t k v).map Prod.snd
  rw [erase_of_absent h] at hperm
  exact hperm

/-! ## What the values carry

A value may carry an item, such as a connection. -/

variable {α : Type} {f : ν → Option α}

/-- The items of a table: that of one key, and those of the others. -/
theorem items_perm_of_get? {t : Table κ ν} {k : κ} {v : ν} (h : t.get? k = some v) :
    (t.values.filterMap f).Perm ((f v).toList ++ (t.erase k).values.filterMap f) := by
  refine ((values_perm_of_get? h).filterMap f).trans ?_
  cases hv : f v with
  | none => rw [List.filterMap_cons_none hv]; exact .refl _
  | some a => rw [List.filterMap_cons_some hv]; exact .refl _

theorem items_insert_perm (t : Table κ ν) (k : κ) (v : ν) :
    ((t.insert k v).values.filterMap f).Perm ((f v).toList ++ (t.erase k).values.filterMap f) := by
  have hv : (t.insert k v).get? k = some v := by rw [get?_insert, if_pos rfl]
  rw [← erase_insert t k v]
  exact items_perm_of_get? hv

theorem mem_items_iff (t : Table κ ν) (a : α) :
    a ∈ t.values.filterMap f ↔ ∃ k v, t.get? k = some v ∧ f v = some a := by
  rw [List.mem_filterMap]
  constructor
  · rintro ⟨v, hv, ha⟩
    obtain ⟨k, hk⟩ := (mem_values_iff t v).mp hv
    exact ⟨k, v, hk, ha⟩
  · rintro ⟨k, v, hk, ha⟩
    exact ⟨v, (mem_values_iff t v).mpr ⟨k, hk⟩, ha⟩

/-- An item that is there once has one key. -/
theorem key_unique {t : Table κ ν} (hn : (t.values.filterMap f).Nodup) {j k : κ} {v w : ν} {a : α}
    (hj : t.get? j = some v) (hv : f v = some a) (hk : t.get? k = some w) (hw : f w = some a) :
    j = k := by
  by_contra hne
  have hperm := items_perm_of_get? (f := f) hj
  rw [hperm.nodup_iff, hv] at hn
  refine (List.nodup_cons.mp hn).1 ((mem_items_iff _ a).mpr ⟨k, w, ?_, hw⟩)
  rw [get?_erase, if_neg (Ne.symm hne), hk]

end Coordinator.Table

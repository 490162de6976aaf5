/-! # Finite tables

A `Table` maps keys to values.  Its entries are kept in a list, each key at most once; `get?` is
the view through which every operation is described. -/
namespace Coordinator

/-- A finite map. -/
structure Table (κ ν : Type) where
  entries : List (κ × ν)
  nodup : (entries.map Prod.fst).Nodup

namespace Table

variable {κ ν : Type} [DecidableEq κ]

/-- The table without entries. -/
def empty : Table κ ν := ⟨[], List.nodup_nil⟩

instance : EmptyCollection (Table κ ν) := ⟨empty⟩

instance : Inhabited (Table κ ν) := ⟨empty⟩

instance [DecidableEq ν] : DecidableEq (Table κ ν) := fun a b =>
  decidable_of_iff (a.entries = b.entries)
    ⟨fun h => by cases a; cases b; simp_all, fun h => h ▸ rfl⟩

/-- The value of a key. -/
def get? (t : Table κ ν) (k : κ) : Option ν := t.entries.lookup k

def contains (t : Table κ ν) (k : κ) : Bool := (t.get? k).isSome

def keys (t : Table κ ν) : List κ := t.entries.map Prod.fst

def values (t : Table κ ν) : List ν := t.entries.map Prod.snd

def size (t : Table κ ν) : Nat := t.entries.length

/-- The entries that satisfy a test. -/
def filter (t : Table κ ν) (p : κ → ν → Bool) : Table κ ν where
  entries := t.entries.filter fun e => p e.1 e.2
  nodup := t.nodup.sublist (List.filter_sublist.map _)

/-- The table without a key. -/
def erase (t : Table κ ν) (k : κ) : Table κ ν := t.filter fun a _ => a != k

/-- The table in which the value of a key, if it has one, is replaced by a function of it. -/
def modify (t : Table κ ν) (k : κ) (f : ν → ν) : Table κ ν where
  entries := t.entries.map fun e => if e.1 = k then (e.1, f e.2) else e
  nodup := by
    rw [List.map_map]
    have : (Prod.fst ∘ fun e : κ × ν => if e.1 = k then (e.1, f e.2) else e) = Prod.fst := by
      funext e; simp only [Function.comp]; split <;> rfl
    rw [this]
    exact t.nodup

theorem contains_of_mem_keys {t : Table κ ν} {k : κ} (h : k ∈ t.keys) : t.contains k = true := by
  obtain ⟨e, he, rfl⟩ := List.mem_map.mp h
  unfold contains get?
  rw [Option.isSome_iff_ne_none]
  intro hn
  have := List.lookup_eq_none_iff.mp hn e he
  simp at this

/-- The table in which a key has a given value.  A key that had a value keeps its place; a new one
comes last. -/
def insert (t : Table κ ν) (k : κ) (v : ν) : Table κ ν :=
  if h : t.contains k then t.modify k fun _ => v
  else
    { entries := t.entries ++ [(k, v)]
      nodup := by
        rw [List.map_append, List.nodup_append]
        refine ⟨t.nodup, by simp, ?_⟩
        rintro a ha b hb rfl
        obtain rfl : a = k := by simpa using hb
        exact h (contains_of_mem_keys ha) }

/-! ## The view -/

@[simp] theorem get?_empty (k : κ) : (∅ : Table κ ν).get? k = none := rfl

theorem lookup_filter_ne (l : List (κ × ν)) (k j : κ) :
    (l.filter fun e => e.1 != k).lookup j = if j = k then none else l.lookup j := by
  induction l with
  | nil => simp
  | cons e l ih =>
    obtain ⟨a, v⟩ := e
    by_cases ha : a = k
    · subst ha
      by_cases hj : j = a
      · subst hj; simp [ih]
      · simp [ih, hj, List.lookup_cons, beq_eq_false_iff_ne.mpr hj]
    · by_cases hj : j = a
      · subst hj; simp [ha]
      · simp [ha, List.lookup_cons, beq_eq_false_iff_ne.mpr hj, ih]

@[simp] theorem get?_erase (t : Table κ ν) (k j : κ) :
    (t.erase k).get? j = if j = k then none else t.get? j := lookup_filter_ne t.entries k j

@[simp] theorem get?_modify (t : Table κ ν) (k j : κ) (f : ν → ν) :
    (t.modify k f).get? j = if j = k then (t.get? j).map f else t.get? j := by
  unfold get? modify
  simp only
  induction t.entries with
  | nil => simp
  | cons e l ih =>
    obtain ⟨a, v⟩ := e
    by_cases ha : a = k <;> by_cases hj : j = a
    · subst hj; subst ha; simp
    · subst ha; simp [List.lookup_cons, beq_eq_false_iff_ne.mpr hj, hj] at ih ⊢; exact ih
    · subst hj; simp [ha]
    · simp [ha, List.lookup_cons, beq_eq_false_iff_ne.mpr hj, ih]

@[simp] theorem get?_insert (t : Table κ ν) (k j : κ) (v : ν) :
    (t.insert k v).get? j = if j = k then some v else t.get? j := by
  unfold insert
  split
  · next h =>
    rw [get?_modify]
    split
    · next hj =>
      subst hj
      obtain ⟨w, hw⟩ := Option.isSome_iff_exists.mp h
      rw [hw]
      rfl
    · rfl
  · next h =>
    have hk : t.entries.lookup k = none := Option.not_isSome_iff_eq_none.mp h
    simp only [get?, List.lookup_append]
    by_cases hj : j = k
    · subst hj; simp [hk]
    · simp [hj, List.lookup_cons, beq_eq_false_iff_ne.mpr hj]

end Table
end Coordinator

import Coordinator.Bytes
import Mathlib.Data.List.TakeWhile

/-! # Text without the blanks around it

A text is blanks, a core that neither starts nor ends with one, and blanks again (`Trims`).  There
is one such core, and trimming finds it (`trims_trim`, `Trims.trim_eq`). -/
namespace Coordinator.Bytes

variable {s core : Bytes}

/-- The text `core` is `s` without the blanks at both ends. -/
structure Trims (s core : Bytes) : Prop where
  split : ∃ lead tail, s = lead ++ core ++ tail ∧ (∀ b ∈ lead, Byte.isBlank b = true) ∧
    ∀ b ∈ tail, Byte.isBlank b = true
  head : ∀ b, core.head? = some b → Byte.isBlank b = false
  last : ∀ b, core.getLast? = some b → Byte.isBlank b = false

/-- What is between the blanks has no blanks around it. -/
theorem Trims.self (h : Trims s core) : Trims core core :=
  ⟨⟨[], [], (List.append_nil core).symm, nofun, nofun⟩, h.head, h.last⟩

/-- What is left behind the bytes of a class starts with a byte of another. -/
theorem not_of_head?_dropWhile {p : UInt8 → Bool} {b : UInt8}
    (h : (s.dropWhile p).head? = some b) : p b = false := by
  have hnot := List.head?_dropWhile_not p s
  rw [h] at hnot
  exact hnot

/-- Of blanks and what follows them, the latter is left. -/
theorem dropWhile_blanks {blanks : Bytes} (hblanks : ∀ b ∈ blanks, Byte.isBlank b = true)
    (hcore : ∀ b, core.head? = some b → Byte.isBlank b = false) :
    (blanks ++ core).dropWhile Byte.isBlank = core := by
  rw [List.dropWhile_append_of_pos hblanks]
  cases core with
  | nil => rfl
  | cons b core => rw [List.dropWhile_cons_of_neg (by simp [hcore b rfl])]

/-- There is one text between the blanks. -/
theorem Trims.trim_eq (h : Trims s core) : s.trim = core := by
  obtain ⟨lead, tail, rfl, hlead, htail⟩ := h.split
  have hright : (core ++ tail).trimRight = core := by
    have hdrop : (core ++ tail).reverse.dropWhile Byte.isBlank = core.reverse := by
      rw [List.reverse_append]
      refine dropWhile_blanks (fun b hb => htail b (List.mem_reverse.mp hb)) fun b hb => ?_
      rw [List.head?_reverse] at hb
      exact h.last b hb
    rw [trimRight, dropTailWhile, hdrop, List.reverse_reverse]
  rw [trim, trimLeft, List.append_assoc, List.dropWhile_append_of_pos hlead]
  cases core with
  | nil =>
    -- All of the text is blank, and goes from the left already.
    rw [List.nil_append, List.dropWhile_eq_nil_iff.mpr htail]
    rfl
  | cons b core =>
    rw [List.cons_append, List.dropWhile_cons_of_neg (by simp [h.head b rfl]), ← List.cons_append,
      hright]

theorem exists_trimRight (s : Bytes) :
    ∃ blanks, s = trimRight s ++ blanks ∧ ∀ b ∈ blanks, Byte.isBlank b = true := by
  refine ⟨(s.reverse.takeWhile Byte.isBlank).reverse, ?_, fun b hb => ?_⟩
  · rw [trimRight, dropTailWhile, ← List.reverse_append, List.takeWhile_append_dropWhile,
      List.reverse_reverse]
  · exact List.mem_takeWhile_imp (List.mem_reverse.mp hb)

theorem trims_trim (s : Bytes) : Trims s s.trim := by
  have hfront : s.takeWhile Byte.isBlank ++ trimLeft s = s := List.takeWhile_append_dropWhile
  obtain ⟨tail, hback, htail⟩ := exists_trimRight (trimLeft s)
  refine ⟨⟨s.takeWhile Byte.isBlank, tail, ?_, fun b hb => List.mem_takeWhile_imp hb, htail⟩,
    fun b hb => ?_, fun b hb => ?_⟩
  · rw [trim, List.append_assoc, ← hback, hfront]
  · -- The first byte of what is left is the first one behind the blanks in front.
    have hfirst : (s.dropWhile Byte.isBlank).head? = some b := by
      rw [← trimLeft, hback, List.head?_append, ← trim, hb]
      rfl
    exact not_of_head?_dropWhile hfirst
  · rw [trim, trimRight, dropTailWhile, List.getLast?_reverse] at hb
    exact not_of_head?_dropWhile hb

/-- Nothing is left of a blank text, and of no other. -/
theorem trim_eq_nil_iff (s : Bytes) : s.trim = [] ↔ ∀ b ∈ s, Byte.isBlank b = true := by
  constructor
  · intro h
    have htrims := trims_trim s
    rw [h] at htrims
    obtain ⟨lead, tail, rfl, hlead, htail⟩ := htrims.split
    rw [List.append_nil]
    exact fun b hb => (List.mem_append.mp hb).elim (hlead b) (htail b)
  · intro h
    exact Trims.trim_eq ⟨⟨s, [], by simp, h, nofun⟩, nofun, nofun⟩

end Coordinator.Bytes

import Coordinator.Proofs.Retry.Placement
import Coordinator.Proofs.Sql.Literal

/-! # The operand of the clause

An interval becomes the operand of `AS OF SYSTEM TIME`.  What counts is its core, the text between
the blanks around it (`Bytes.Trims`).  A blank interval has none, and is refused.  A core that is a
literal or an expression already is the operand itself; any other core is written as a standard
literal.

So **an operand is one literal of the core, unless the core goes through as it is** (`formatted`).
Either way it starts and ends with bytes of its own: it has no blanks around it, and it would go
through as it is.  The operand of an operand is that operand again. -/
namespace Coordinator.Retry.AsOf

open Bytes (Trims trims_trim trim_eq_nil_iff)
open Sql.Literal

variable {interval core op : Bytes}

/-- What starts with a quote is taken for a literal, and what has an opening parenthesis for an
expression: they go through as they are. -/
def GoesThrough (core : Bytes) : Prop := core.head? = some 39 ∨ 40 ∈ core

theorem ClauseFault.kind_fault (e : ClauseFault) : e.fault.kind = .invalidArgument := by
  cases e <;> rfl

theorem operand_of_goesThrough (hne : interval.trim ≠ []) (h : GoesThrough interval.trim) :
    operand interval = .ok interval.trim := by
  unfold operand
  rw [if_neg (by simpa using hne), if_pos (by simpa [GoesThrough] using h)]

theorem isBare_of_not_goesThrough (hne : interval.trim ≠ []) (h : ¬ GoesThrough interval.trim) :
    IsBare interval :=
  ⟨hne, fun hhead => h (.inl hhead), fun hparen => h (.inr hparen)⟩

/-- An operand has no blanks around it, and goes through as it is. -/
theorem settled_of_operand (h : operand interval = .ok op) :
    Trims op op ∧ op ≠ [] ∧ GoesThrough op := by
  have hne : interval.trim ≠ [] := fun hblank => by
    cases h.symm.trans (operand_eq_error_iff.mpr ⟨rfl, hblank⟩)
  by_cases hthrough : GoesThrough interval.trim
  · cases h.symm.trans (operand_of_goesThrough hne hthrough)
    exact ⟨(trims_trim interval).self, hne, hthrough⟩
  · cases h.symm.trans (operand_of_isBare (isBare_of_not_goesThrough hne hthrough))
    -- The literal starts and ends with its quotes.
    refine ⟨⟨⟨[], [], (List.append_nil _).symm, nofun, nofun⟩, ?_, ?_⟩, List.cons_ne_nil _ _,
      Or.inl rfl⟩
    · intro b hb
      cases hb
      rfl
    · intro b hb
      rw [List.getLast?_concat] at hb
      cases hb
      rfl

/-- How an interval with this core becomes an operand. -/
structure Formatted (interval core : Bytes) : Prop where
  trims : Trims interval core
  refused : (∃ e, operand interval = .error e) ↔ ∀ b ∈ interval, Byte.isBlank b = true
  invalid : ∀ e, operand interval = .error e → e.fault.kind = .invalidArgument
  through : core ≠ [] → GoesThrough core → operand interval = .ok core
  /-- The reader of standard literals reads the whole operand, as the core. -/
  literal : core ≠ [] → ¬ GoesThrough core →
    ∃ op, operand interval = .ok op ∧ Standard.read? op = some (core, [])
  /-- There is an operand, and it is its own operand. -/
  again : core ≠ [] → ∃ op, operand interval = .ok op ∧ operand op = .ok op

/-- **The operand of an interval is one literal of its core, or the core itself.** -/
theorem formatted (interval : Bytes) : Formatted interval interval.trim where
  trims := trims_trim interval
  refused := by
    rw [← trim_eq_nil_iff]
    exact ⟨fun ⟨_, he⟩ => (operand_eq_error_iff.mp he).2,
      fun hblank => ⟨_, operand_eq_error_iff.mpr ⟨rfl, hblank⟩⟩⟩
  invalid e _ := e.kind_fault
  through := operand_of_goesThrough
  literal hne hthrough := by
    refine ⟨_, operand_of_isBare (isBare_of_not_goesThrough hne hthrough), ?_⟩
    exact Standard.read?_eq_some_iff.mpr ⟨rfl, nofun⟩
  again hcore := by
    cases hop : operand interval with
    | error e => exact absurd (operand_eq_error_iff.mp hop).2 hcore
    | ok op =>
      obtain ⟨htrims, hne, hthrough⟩ := settled_of_operand hop
      have htrim : op.trim = op := htrims.trim_eq
      exact ⟨op, rfl,
        by rw [operand_of_goesThrough (htrim.symm ▸ hne) (htrim.symm ▸ hthrough), htrim]⟩

/-- A quote at the end of an interval is doubled before the one that closes the literal. -/
example : operand (ascii " 5'\n") = .ok (ascii "'5'''") := by decide

end Coordinator.Retry.AsOf

import Coordinator.Proofs.Sql.Literal
import Coordinator.Xa.Dialect
import Mathlib.Tactic.ByContra

/-! # Xids in the statements of PostgreSQL

A PostgreSQL server reads literals by the standard rule: between single quotes, only a doubled quote
is special, and a backslash is a byte like any other.  **The literal of an xid is read as just that
xid** (`spelled`), and an xid has a literal unless it is empty, longer than 199 bytes or holds NUL.

So the statements that carry a literal, the one that prepares a transaction and those that settle it
later, name one xid each.  The statement that starts the transaction carries none, but is refused
for the same xids, with the same fault, as the others. -/
namespace Coordinator.Xa

open Sql.Literal

variable {x y q sql : Bytes}

/-! ## The literal -/

namespace Xid

theorem QuoteFault.kind_fault (f : QuoteFault) : f.fault.kind = .protocol := by cases f <;> rfl

theorem quotePostgres_eq_ok_iff : quotePostgres x = .ok q ↔
    (x ≠ [] ∧ x.length ≤ 199 ∧ (0 : UInt8) ∉ x) ∧ q = enclose (x.flatMap postgresByte) := by
  have hempty : x.isEmpty = true ↔ x = [] := List.isEmpty_iff
  have hnul : x.contains 0 = true ↔ (0 : UInt8) ∈ x := List.contains_iff_mem
  unfold quotePostgres postgresLimit
  simp only [hempty, hnul]
  split
  · next h => exact iff_of_false nofun fun hx => hx.1.1 h
  split
  · next h => exact iff_of_false nofun fun hx => Nat.not_le_of_lt h hx.1.2.1
  split
  · next h => exact iff_of_false nofun fun hx => hx.1.2.2 h
  · next h₁ h₂ h₃ =>
    rw [Except.ok.injEq, eq_comm]
    exact (and_iff_right ⟨h₁, Nat.le_of_not_lt h₂, h₃⟩).symm

theorem exists_error_iff : (∃ f, quotePostgres x = .error f) ↔
    x = [] ∨ 199 < x.length ∨ (0 : UInt8) ∈ x := by
  constructor
  · rintro ⟨f, hf⟩
    by_contra hnone
    rw [not_or, not_or, Nat.not_lt] at hnone
    have hok := quotePostgres_eq_ok_iff.mpr ⟨hnone, rfl⟩
    rw [hf] at hok
    cases hok
  · intro h
    cases hq : quotePostgres x with
    | error f => exact ⟨f, rfl⟩
    | ok q =>
      obtain ⟨⟨hempty, hlen, hnul⟩, -⟩ := quotePostgres_eq_ok_iff.mp hq
      rcases h with h | h | h
      · exact absurd h hempty
      · exact absurd h (Nat.not_lt_of_le hlen)
      · exact absurd h hnul

/-- The literal is read as the xid, whatever follows it but a quote. -/
theorem read_quotePostgres (hq : quotePostgres x = .ok q) {rest : Bytes}
    (hrest : rest.head? ≠ some 39) : Standard.read? (q ++ rest) = some (x, rest) := by
  obtain ⟨-, rfl⟩ := quotePostgres_eq_ok_iff.mp hq
  refine Standard.read?_eq_some_iff.mpr ⟨?_, hrest⟩
  show 39 :: x.flatMap postgresByte ++ [39] ++ rest = _
  rw [List.append_assoc]
  rfl

end Xid

/-! ## The statements -/

namespace Dialect

theorem start_postgres (x : Bytes) :
    postgres.start x = (Xid.quotePostgres x).map fun _ => ascii "BEGIN" := by
  simp only [start, quote]
  cases Xid.quotePostgres x <;> rfl

theorem prepare_postgres (x : Bytes) :
    postgres.prepare x = (Xid.quotePostgres x).map (ascii "PREPARE TRANSACTION " ++ ·) := by
  simp only [prepare, quote]
  cases Xid.quotePostgres x <;> rfl

theorem commit_postgres (x : Bytes) :
    postgres.commit x = (Xid.quotePostgres x).map (ascii "COMMIT PREPARED " ++ ·) := by
  simp only [commit, quote]
  cases Xid.quotePostgres x <;> rfl

theorem rollback_postgres (x : Bytes) : postgres.rollback x .prepared =
    (Xid.quotePostgres x).map fun q => [ascii "ROLLBACK PREPARED " ++ q] := by
  simp only [rollback, quote, if_true]
  cases Xid.quotePostgres x <;> rfl

end Dialect

/-- A statement with the literal of an xid: it prepares the transaction, or commits or rolls back
the prepared one. -/
inductive Carries (x : Bytes) : Bytes → Prop
  | prepare {sql : Bytes} (h : Dialect.postgres.prepare x = .ok sql) : Carries x sql
  | commit {sql : Bytes} (h : Dialect.postgres.commit x = .ok sql) : Carries x sql
  | rollback {sql : Bytes} (h : Dialect.postgres.rollback x .prepared = .ok [sql]) : Carries x sql

/-- What stands before the literal holds no quote. -/
theorem Carries.exists_front (h : Carries x sql) :
    ∃ front q, (39 : UInt8) ∉ front ∧ Xid.quotePostgres x = .ok q ∧ sql = front ++ q := by
  cases h with
  | prepare h =>
    rw [Dialect.prepare_postgres] at h
    obtain ⟨q, hq, rfl⟩ := ok_of_map h
    exact ⟨_, q, by decide, hq, rfl⟩
  | commit h =>
    rw [Dialect.commit_postgres] at h
    obtain ⟨q, hq, rfl⟩ := ok_of_map h
    exact ⟨_, q, by decide, hq, rfl⟩
  | rollback h =>
    rw [Dialect.rollback_postgres] at h
    obtain ⟨q, hq, hsql⟩ := ok_of_map h
    obtain rfl := (List.cons.inj hsql).1
    exact ⟨_, q, by decide, hq, rfl⟩

/-- The first quote of the statement starts the literal. -/
theorem dropWhile_front {front : Bytes} (hfront : (39 : UInt8) ∉ front)
    (hq : Xid.quotePostgres x = .ok q) : (front ++ q).dropWhile (· != 39) = q := by
  obtain ⟨-, rfl⟩ := Xid.quotePostgres_eq_ok_iff.mp hq
  have hskip : ∀ b ∈ front, (b != 39) = true := fun b hb =>
    bne_iff_ne.mpr fun h => hfront (h ▸ hb)
  rw [List.dropWhile_append_of_pos hskip]
  rfl

/-- A statement carries one xid. -/
theorem Carries.unique (h : Carries x sql) (h' : Carries y sql) : x = y := by
  obtain ⟨front, q, hfront, hq, rfl⟩ := h.exists_front
  obtain ⟨front', q', hfront', hq', hsql⟩ := h'.exists_front
  have hliteral : q = q' := by
    rw [← dropWhile_front hfront hq, hsql, dropWhile_front hfront' hq']
  subst hliteral
  have hnone : ([] : Bytes).head? ≠ some 39 := by decide
  have hread := Xid.read_quotePostgres hq hnone
  rw [Xid.read_quotePostgres hq' hnone] at hread
  exact (congrArg Prod.fst (Option.some.inj hread)).symm

/-- How an xid is spelled for PostgreSQL. -/
structure Spelled (x : Bytes) : Prop where
  refused : (∃ f, Xid.quotePostgres x = .error f) ↔
    x = [] ∨ 199 < x.length ∨ (0 : UInt8) ∈ x
  protocol : ∀ f, Xid.quotePostgres x = .error f → f.fault.kind = .protocol
  read : ∀ q, Xid.quotePostgres x = .ok q → ∀ rest : Bytes, rest.head? ≠ some 39 →
    Standard.read? (q ++ rest) = some (x, rest)
  own : ∀ y sql, Carries x sql → Carries y sql → x = y
  /-- The start is refused as the prepare is. -/
  upFront : ∀ f, Dialect.postgres.start x = .error f ↔ Dialect.postgres.prepare x = .error f

/-- **An xid is spelled as itself.**  For every string of bytes: it has a literal, or the fault is
one of the protocol; its literal is read back whole, and no more than it; no statement carries it
and another xid; and a start is refused exactly if a later prepare would be. -/
theorem spelled (x : Bytes) : Spelled x where
  refused := Xid.exists_error_iff
  protocol f _ := f.kind_fault
  read _ hq _ := Xid.read_quotePostgres hq
  own _ _ := Carries.unique
  upFront f := by
    rw [Dialect.start_postgres, Dialect.prepare_postgres]
    cases Xid.quotePostgres x with
    | error f' => exact Iff.rfl
    | ok q => exact iff_of_false nofun nofun

end Coordinator.Xa

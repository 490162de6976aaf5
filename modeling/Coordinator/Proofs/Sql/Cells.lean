import Coordinator.Proofs.Decimal
import Coordinator.Sql.Literal
import Coordinator.Sql.Param
import Coordinator.Sql.Row
import Mathlib.Algebra.Group.Int.Defs
import Mathlib.Data.Int.Order.Basic

/-! # Integers in cells

A cell holds an integer as its decimal text, which is also the text that a parameter has inside a
statement.  A getter reads the text as a word of 64 bits with a sign, and makes a word of its own
type of that one.  So there are two ranges of integers in play, and **a getter is exact where they
agree, and nowhere else** (`reads_of_cell`): it returns the integer in the cell if its type holds
it, and fails if not.  Of an integer that only the word of 64 bits holds it makes another integer,
and one that only its own type holds it cannot read.  Parameters with a sign are read back whatever
they are; those without one, up to half their range. -/
namespace Coordinator.Sql.Row

/-! ## Types of words -/

/-- The integers of a word of 32 bits with a sign. -/
def Signed32 (n : Int) : Prop := -2 ^ 31 ≤ n ∧ n < 2 ^ 31

/-- The integers of a word of 64 bits with a sign. -/
def Signed64 (n : Int) : Prop := -2 ^ 63 ≤ n ∧ n < 2 ^ 63

/-- The integers of a word of 64 bits without a sign. -/
def Unsigned64 (n : Int) : Prop := 0 ≤ n ∧ n < 2 ^ 64

theorem toInt_toInt32 {w : Int64} (h : Signed32 w.toInt) : w.toInt32.toInt = w.toInt := by
  obtain ⟨hlower, hupper⟩ := h
  rw [Int64.toInt_toInt32]
  exact Int.bmod_eq_of_le (by omega) (by omega)

theorem toNat_toUInt64 {w : Int64} (h : Unsigned64 w.toInt) :
    (w.toUInt64.toNat : Int) = w.toInt := by
  have hbits : w.toInt = Int.bmod w.toUInt64.toNat (2 ^ 64) :=
    BitVec.toInt_eq_toNat_bmod w.toBitVec
  have hword := w.toUInt64.toNat_lt
  obtain ⟨hlower, -⟩ := h
  rw [Int.bmod_def] at hbits
  split at hbits <;> omega

/-! ## What the getters read -/

variable {row : Row} {k : Nat} {n : Int} {α : Type}

theorem CellFault.kind_fault (f : CellFault) : f.fault.kind = .fatal := by cases f <;> rfl

theorem cell_of_getElem? {c : Option Bytes} (h : row[k]? = some c) : row.cell k = .ok c := by
  rw [cell, if_neg (by omega), Int.toNat_natCast, h]

theorem int64_of_signed64 (h : row[k]? = some (some (Decimal.ofInt n))) (hn : Signed64 n) :
    row.int64 k = .ok (Int64.ofInt n) := by
  have hread : Decimal.readInt64? (Decimal.ofInt n) = some (Int64.ofInt n) := by
    rw [Decimal.readInt64?_ofInt]
    exact if_pos hn
  simp only [int64, cell_of_getElem? h, bind, Except.bind, hread, pure, Except.pure]

theorem int64_of_not_signed64 (h : row[k]? = some (some (Decimal.ofInt n)))
    (hn : ¬ Signed64 n) : row.int64 k = .error (.notInteger k (Decimal.ofInt n)) := by
  have hread : Decimal.readInt64? (Decimal.ofInt n) = none := by
    rw [Decimal.readInt64?_ofInt]
    exact if_neg hn
  simp only [int64, cell_of_getElem? h, bind, Except.bind, hread, throw, throwThe,
    MonadExceptOf.throw]

theorem int32_eq_map (row : Row) (column : Int) :
    row.int32 column = (row.int64 column).map Int64.toInt32 := by
  unfold int32
  cases row.int64 column <;> rfl

theorem uint64_eq_map (row : Row) (column : Int) :
    row.uint64 column = (row.int64 column).map Int64.toUInt64 := by
  unfold uint64
  cases row.int64 column <;> rfl

/-! ## Exact getters -/

/-- What is read of a cell of `n` is exact: the word of `n` if the type of the getter holds `n`, and
a fatal fault if not. -/
structure Exact (result : Except CellFault α) (toInt : α → Int) (holds : Int → Prop) (n : Int) :
    Prop where
  value : holds n → ∃ w, result = .ok w ∧ toInt w = n
  fault : ¬ holds n → ∃ f, result = .error f ∧ f.fault.kind = .fatal

/-- A getter that makes its word of one of 64 bits is exact where both types hold the integer, and
where neither does. -/
theorem exact_map_iff {cast : Int64 → α} {toInt : α → Int} {holds : Int → Prop}
    (hcast : ∀ w, holds w.toInt → toInt (cast w) = w.toInt)
    (h : row[k]? = some (some (Decimal.ofInt n))) :
    Exact ((row.int64 k).map cast) toInt holds n ↔ (Signed64 n ↔ holds n) := by
  by_cases hn : Signed64 n
  · have hword : (Int64.ofInt n).toInt = n := Int64.toInt_ofInt_of_le hn.1 hn.2
    rw [int64_of_signed64 h hn]
    constructor
    · intro hexact
      refine iff_of_true hn ?_
      by_contra hheld
      obtain ⟨f, hf, -⟩ := hexact.fault hheld
      cases hf
    · intro hagree
      have hheld : holds n := hagree.mp hn
      refine ⟨fun _ => ⟨_, rfl, ?_⟩, fun hnot => absurd hheld hnot⟩
      rw [hcast _ (hword.symm ▸ hheld), hword]
  · rw [int64_of_not_signed64 h hn]
    constructor
    · intro hexact
      refine iff_of_false hn fun hheld => ?_
      obtain ⟨w, hw, -⟩ := hexact.value hheld
      cases hw
    · intro hagree
      exact ⟨fun hheld => absurd (hagree.mpr hheld) hn,
        fun _ => ⟨_, rfl, CellFault.kind_fault _⟩⟩

/-- What the getters make of a cell of `n`. -/
structure Reads (row : Row) (k : Nat) (n : Int) : Prop where
  int64 : Exact (row.int64 k) Int64.toInt Signed64 n
  int32 : Exact (row.int32 k) Int32.toInt Signed32 n ↔ (Signed64 n ↔ Signed32 n)
  uint64 : Exact (row.uint64 k) (fun w => w.toNat) Unsigned64 n ↔ (Signed64 n ↔ Unsigned64 n)

/-- What the getters make of a cell that holds a parameter as it is rendered. -/
structure ReadsParam (row : Row) (k : Nat) (quote : Bytes → Bytes) : Prop where
  int32 : ∀ w, row[k]? = some (some ((Param.int32 w).render quote)) → row.int32 k = .ok w
  int64 : ∀ w, row[k]? = some (some ((Param.int64 w).render quote)) → row.int64 k = .ok w
  /-- Half of the parameters without a sign are read back. -/
  uint64 : ∀ w, row[k]? = some (some ((Param.uint64 w).render quote)) →
    (row.uint64 k = .ok w ↔ w.toNat < 2 ^ 63)

theorem reads_of_decimal (h : row[k]? = some (some (Decimal.ofInt n))) : Reads row k n where
  int64 := by
    have hexact : Exact ((row.int64 k).map id) Int64.toInt Signed64 n :=
      (exact_map_iff (fun _ _ => rfl) h).mpr Iff.rfl
    rwa [Except.map_id] at hexact
  int32 := by
    rw [int32_eq_map]
    exact exact_map_iff (fun _ => toInt_toInt32) h
  uint64 := by
    rw [uint64_eq_map]
    exact exact_map_iff (fun _ => toNat_toUInt64) h

theorem readsParam (row : Row) (k : Nat) (quote : Bytes → Bytes) : ReadsParam row k quote where
  int32 w h := by
    have hlower := w.le_toInt
    have hupper := w.toInt_lt
    have hsmall : Signed32 w.toInt := ⟨hlower, hupper⟩
    have hword : Signed64 w.toInt := ⟨by omega, by omega⟩
    obtain ⟨w', hw', hvalue⟩ :=
      ((reads_of_decimal h).int32.mpr (iff_of_true hword hsmall)).value hsmall
    rw [hw', Int32.toInt_inj.mp hvalue]
  int64 w h := by
    rw [int64_of_signed64 h ⟨w.le_toInt, w.toInt_lt⟩, Int64.ofInt_toInt]
  uint64 w h := by
    have hcell : row[k]? = some (some (Decimal.ofInt w.toNat)) := h
    have hheld : Unsigned64 w.toNat := ⟨Int.natCast_nonneg _, by exact_mod_cast w.toNat_lt⟩
    constructor
    · intro hw
      by_contra hlarge
      have hnot : ¬ Signed64 w.toNat := fun hs => hlarge (by exact_mod_cast hs.2)
      rw [uint64_eq_map, int64_of_not_signed64 hcell hnot] at hw
      cases hw
    · intro hsmall
      have hword : Signed64 w.toNat := ⟨by omega, by exact_mod_cast hsmall⟩
      obtain ⟨w', hw', hvalue⟩ :=
        ((reads_of_decimal hcell).uint64.mpr (iff_of_true hword hheld)).value hheld
      have heq : w'.toNat = w.toNat := by exact_mod_cast hvalue
      rw [hw', UInt64.toNat_inj.mp heq]

/-- **Integers are read back where the types of words agree.**  Of a cell that holds the text of an
integer, the getter of 64 bits with a sign is exact; the other two are exact if and only if this
type and their own either both hold the integer or both do not.  So every parameter with a sign is
read back by its getter, and one without a sign if it is less than `2 ^ 63`. -/
theorem reads_of_cell (quote : Bytes → Bytes)
    (h : row[k]? = some (some (Decimal.ofInt n))) : Reads row k n ∧ ReadsParam row k quote :=
  ⟨reads_of_decimal h, readsParam row k quote⟩

/-- The least integer of 32 bits is read exactly by the getters with a sign. -/
theorem reads_lowest : Reads [none, some (ascii "-2147483648")] 1 (-2147483648) ∧
    ReadsParam [none, some (ascii "-2147483648")] 1 Literal.quote :=
  reads_of_cell (n := -2147483648) Literal.quote (by decide +kernel)

/-- **Getters are not exact on all integers that their types hold, nor on those they do not.**  The
largest parameter without a sign cannot be read back; a number beyond 32 bits loses its upper bits,
and one below zero its sign, without a fault. -/
theorem getters_inexact :
    (Param.uint64 18446744073709551615).render Literal.quote = ascii "18446744073709551615" ∧
      uint64 [some (ascii "18446744073709551615")] 0 =
        .error (.notInteger 0 (ascii "18446744073709551615")) ∧
      int32 [some (ascii "4294967296")] 0 = .ok 0 ∧
      uint64 [some (ascii "-1")] 0 = .ok 18446744073709551615 :=
  ⟨by decide +kernel, rfl, rfl, rfl⟩

end Coordinator.Sql.Row

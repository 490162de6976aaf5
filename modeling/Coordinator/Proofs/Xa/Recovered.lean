import Coordinator.Proofs.Sql.Cells
import Coordinator.Xa.Recovered

/-! # Rows of recovered branches

A recovery query may answer with rows of any shape.  A row describes a branch if it has four cells
or more and the first three are integers of 64 bits with a sign, in decimal, or null.  Any other row
is `Malformed`, and is refused with a fatal fault.

**A row is read as what its cells say** (`decoded`): the three numbers, the data, and as the xid
that part of the data which the length of the global part tells.  The length is a number like any
other.  A negative one is taken for none, and one beyond the data for all of the data, so that the
xid is always an initial part of the data. -/
namespace Coordinator

open Decimal (Denotes)

/-! ## Integers in cells -/

namespace Sql.Row

/-- The integer that a cell stands for; a null cell stands for zero. -/
inductive Means : Option Bytes → Int → Prop
  | null : Means none 0
  | text {s : Bytes} {n : Int} (h : Denotes s n) : Means (some s) n

/-- A cell with a text that is no integer of 64 bits with a sign. -/
def NotInteger (c : Option Bytes) : Prop :=
  ∃ s, c = some s ∧ ∀ n, Denotes s n → ¬ Signed64 n

/-- The word that a cell is read as. -/
def word? : Option Bytes → Option Int64
  | none => some 0
  | some s => Decimal.readInt64? s

variable {row : Row} {k : Nat} {c : Option Bytes} {w : Int64}

theorem word?_eq_some_iff : word? c = some w ↔ Means c w.toInt := by
  cases c with
  | none =>
    constructor
    · intro h
      cases h
      exact .null
    · intro h
      generalize hn : w.toInt = n at h
      cases h
      have hzero : w = 0 := Int64.toInt_inj.mp (hn.trans Int64.toInt_zero.symm)
      rw [hzero]
      rfl
  | some s =>
    rw [word?, Decimal.readInt64?_eq_some_iff]
    exact ⟨.text, fun h => by cases h with | text hs => exact hs⟩

/-- A cell has a word unless its text is no integer. -/
theorem exists_word?_iff : (∃ w, word? c = some w) ↔ ¬ NotInteger c := by
  constructor
  · rintro ⟨w, hw⟩ ⟨s, rfl, hnone⟩
    cases word?_eq_some_iff.mp hw with
    | text hs => exact hnone _ hs ⟨w.le_toInt, w.toInt_lt⟩
  · intro h
    cases c with
    | none => exact ⟨0, rfl⟩
    | some s =>
      by_contra hnone
      refine h ⟨s, rfl, fun n hn hfits => hnone ⟨Int64.ofInt n, word?_eq_some_iff.mpr ?_⟩⟩
      rw [Int64.toInt_ofInt_of_le hfits.1 hfits.2]
      exact .text hn

theorem int64_eq_ok_iff (h : row[k]? = some c) : row.int64 k = .ok w ↔ word? c = some w := by
  rw [int64, cell_of_getElem? h]
  cases c with
  | none =>
    constructor
    · intro hw
      cases hw
      rfl
    · intro hw
      cases hw
      rfl
  | some s =>
    cases hread : Decimal.readInt64? s with
    | none =>
      simp only [bind, Except.bind, hread, word?]
      constructor
      · intro hw
        cases hw
      · intro hw
        cases hw
    | some w' =>
      simp only [bind, Except.bind, hread, word?, pure, Except.pure, Except.ok.injEq,
        Option.some.injEq]

theorem text_eq (h : row[k]? = some c) : row.text k = .ok (c.getD []) := by
  rw [text, cell_of_getElem? h]
  rfl

end Sql.Row

/-! ## Rows -/

namespace Xa.Recovered

open Sql.Row

variable {row : Sql.Row} {r : Recovered}

/-- A row that describes no branch. -/
def Malformed (row : Sql.Row) : Prop :=
  row.length < 4 ∨ ∃ k < 3, ∃ c, row[k]? = some c ∧ NotInteger c

/-- What a row says of a branch. -/
structure Describes (row : Sql.Row) (r : Recovered) : Prop where
  formatId : ∃ c, row[0]? = some c ∧ Means c r.formatId.toInt
  globalLength : ∃ c, row[1]? = some c ∧ Means c r.globalLength.toInt
  qualifierLength : ∃ c, row[2]? = some c ∧ Means c r.qualifierLength.toInt
  data : ∃ c, row[3]? = some c ∧ r.data = c.getD []
  xid : r.xid <+: r.data
  length : (r.xid.length : Int) = min (max r.globalLength.toInt 0) r.data.length

theorem RowFault.kind_fault (f : RowFault) : f.fault.kind = .fatal := by
  cases f with
  | tooFewColumns => rfl
  | cell cause => exact cause.kind_fault

theorem ofRow_of_short (h : row.length < 4) : ofRow row = .error (.tooFewColumns row.length) := by
  unfold ofRow
  rw [if_pos h]
  rfl

/-- A row with four cells is read cell by cell. -/
theorem ofRow_eq_ok_iff (h : 4 ≤ row.length) : ofRow row = .ok r ↔
    row.int64 0 = .ok r.formatId ∧ row.int64 1 = .ok r.globalLength ∧
      row.int64 2 = .ok r.qualifierLength ∧ row.text 3 = .ok r.data ∧
      r.xid = r.data.take r.globalLength.toInt.toNat := by
  unfold ofRow
  rw [if_neg (Nat.not_lt_of_le h)]
  cases row.int64 0 with
  | error f => exact iff_of_false nofun fun hr => by cases hr.1
  | ok formatId =>
    cases row.int64 1 with
    | error f => exact iff_of_false nofun fun hr => by cases hr.2.1
    | ok globalLength =>
      cases row.int64 2 with
      | error f => exact iff_of_false nofun fun hr => by cases hr.2.2.1
      | ok qualifierLength =>
        cases row.text 3 with
        | error f => exact iff_of_false nofun fun hr => by cases hr.2.2.2.1
        | ok data =>
          constructor
          · intro hr
            cases hr
            exact ⟨rfl, rfl, rfl, rfl, rfl⟩
          · rintro ⟨hformat, hglobal, hqualifier, hdata, hxid⟩
            cases hformat
            cases hglobal
            cases hqualifier
            cases hdata
            show Except.ok (⟨r.formatId, r.globalLength, r.qualifierLength, r.data,
              r.data.take r.globalLength.toInt.toNat⟩ : Recovered) = .ok r
            rw [← hxid]

theorem length_of_ok (h : ofRow row = .ok r) : 4 ≤ row.length := by
  by_contra hshort
  rw [ofRow_of_short (Nat.lt_of_not_le hshort)] at h
  cases h

theorem exists_cell (hlen : 4 ≤ row.length) {k : Nat} (hk : k < 4) : ∃ c, row[k]? = some c :=
  ⟨row[k], List.getElem?_eq_getElem (Nat.lt_of_lt_of_le hk hlen)⟩

/-- A row that describes a branch is read. -/
theorem exists_of_not_malformed (h : ¬ Malformed row) : ∃ r, ofRow row = .ok r := by
  have hlen : 4 ≤ row.length := Nat.le_of_not_lt fun hshort => h (.inl hshort)
  have hnumber (k : Nat) (hk : k < 3) : ∃ w, row.int64 k = .ok w := by
    obtain ⟨c, hc⟩ := exists_cell hlen (Nat.lt_succ_of_lt hk)
    obtain ⟨w, hw⟩ := exists_word?_iff.mpr fun hnot => h (.inr ⟨k, hk, c, hc, hnot⟩)
    exact ⟨w, (int64_eq_ok_iff hc).mpr hw⟩
  obtain ⟨formatId, hformat⟩ := hnumber 0 (by decide)
  obtain ⟨globalLength, hglobal⟩ := hnumber 1 (by decide)
  obtain ⟨qualifierLength, hqualifier⟩ := hnumber 2 (by decide)
  obtain ⟨c, hc⟩ := exists_cell hlen (k := 3) (by decide)
  exact ⟨⟨formatId, globalLength, qualifierLength, c.getD [],
      (c.getD []).take globalLength.toInt.toNat⟩,
    (ofRow_eq_ok_iff hlen).mpr ⟨hformat, hglobal, hqualifier, text_eq hc, rfl⟩⟩

/-- A row that is read describes a branch. -/
theorem not_malformed_of_ok (h : ofRow row = .ok r) : ¬ Malformed row := by
  have hlen := length_of_ok h
  obtain ⟨hformat, hglobal, hqualifier, -, -⟩ := (ofRow_eq_ok_iff hlen).mp h
  rintro (hshort | ⟨k, hk, c, hc, hnot⟩)
  · exact Nat.not_lt_of_le hlen hshort
  · have hread : ∃ w, row.int64 k = .ok w := by
      match k, hk with
      | 0, _ => exact ⟨_, hformat⟩
      | 1, _ => exact ⟨_, hglobal⟩
      | 2, _ => exact ⟨_, hqualifier⟩
    obtain ⟨w, hw⟩ := hread
    exact exists_word?_iff.mp ⟨w, (int64_eq_ok_iff hc).mp hw⟩ hnot

theorem describes_of_ok (h : ofRow row = .ok r) : Describes row r := by
  have hlen := length_of_ok h
  obtain ⟨hformat, hglobal, hqualifier, hdata, hxid⟩ := (ofRow_eq_ok_iff hlen).mp h
  have hmeans {k : Nat} {w : Int64} (hk : k < 4) (hw : row.int64 k = .ok w) :
      ∃ c, row[k]? = some c ∧ Means c w.toInt := by
    obtain ⟨c, hc⟩ := exists_cell hlen hk
    exact ⟨c, hc, word?_eq_some_iff.mp ((int64_eq_ok_iff hc).mp hw)⟩
  refine ⟨hmeans (by decide) hformat, hmeans (by decide) hglobal, hmeans (by decide) hqualifier,
    ?_, ?_, ?_⟩
  · obtain ⟨c, hc⟩ := exists_cell hlen (k := 3) (by decide)
    exact ⟨c, hc, Except.ok.inj (hdata.symm.trans (text_eq hc))⟩
  · rw [hxid]
    exact List.take_prefix _ _
  · rw [hxid, List.length_take]
    omega

/-- How rows are read. -/
structure Decoded (row : Sql.Row) : Prop where
  refused : (∃ f, ofRow row = .error f) ↔ Malformed row
  fatal : ∀ f, ofRow row = .error f → f.fault.kind = .fatal
  described : ¬ Malformed row → ∃ r, ofRow row = .ok r ∧ Describes row r

/-- Null cells, a minus sign before zeros, and a length far beyond the data. -/
example : ofRow [none, some (ascii "9223372036854775807"), some (ascii "-007"), some (ascii "x")] =
    .ok ⟨0, 9223372036854775807, -7, ascii "x", ascii "x"⟩ := by rfl

end Xa.Recovered

end Coordinator

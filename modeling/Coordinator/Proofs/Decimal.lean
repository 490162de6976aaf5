import Coordinator.Decimal
import Mathlib.Algebra.Group.Int.Defs
import Mathlib.Algebra.Group.Nat.Defs
import Mathlib.Data.Nat.Digits.Defs
import Mathlib.Tactic.Ring

/-! # Decimal text, read back

The text of a natural number is made of digits (`isDigit_of_mem_ofNat`).  The text of an integer
denotes it (`readInt?_ofInt`), and where a word is asked for, it is read if there is a word for it
(`readInt64?_ofInt`).

Which texts denote an integer at all is a grammar of its own (`Denotes`), with the value of the
digits by their places.  A text is read as a word exactly if it denotes the integer of that word
(`readInt64?_eq_some_iff`). -/
namespace Coordinator.Decimal

theorem isDigit_digit : ∀ d < 10, Byte.isDigit (48 + d.toUInt8) = true := by decide

theorem value_digit : ∀ d < 10, (48 + d.toUInt8 - 48).toNat = d := by decide

theorem isDigit_of_mem_ofNat (n : Nat) : ∀ b ∈ ofNat n, Byte.isDigit b = true := by
  fun_induction ofNat n with
  | case1 n h =>
    intro b hb
    rw [List.mem_singleton.mp hb]
    exact isDigit_digit n h
  | case2 n h ih =>
    intro b hb
    rcases List.mem_append.mp hb with hb | hb
    · exact ih b hb
    · rw [List.mem_singleton.mp hb]
      exact isDigit_digit _ (Nat.mod_lt _ (by decide))

theorem ofNat_ne_nil (n : Nat) : ofNat n ≠ [] := by
  unfold ofNat
  split
  · exact List.cons_ne_nil _ _
  · exact List.append_ne_nil_of_right_ne_nil _ (List.cons_ne_nil _ _)

theorem valueFrom_append (acc : Nat) (s t : Bytes) :
    valueFrom acc (s ++ t) = valueFrom (valueFrom acc s) t := by
  induction s generalizing acc with
  | nil => rfl
  | cons b s ih => rw [List.cons_append, valueFrom, valueFrom, ih]

theorem value_ofNat (n : Nat) : value (ofNat n) = n := by
  fun_induction ofNat n with
  | case1 n h =>
    rw [value, valueFrom, valueFrom, value_digit n h]
    omega
  | case2 n h ih =>
    rw [value, valueFrom_append, ← value, ih, valueFrom, valueFrom,
      value_digit _ (Nat.mod_lt _ (by decide))]
    omega

theorem readNat?_ofNat (n : Nat) : readNat? (ofNat n) = some n := by
  have hdigits : (ofNat n).all Byte.isDigit = true :=
    List.all_eq_true.mpr (isDigit_of_mem_ofNat n)
  unfold readNat?
  rw [if_pos (by simp [hdigits, ofNat_ne_nil n]), value_ofNat]

/-- A text of digits has no minus sign. -/
theorem readInt?_ofNat (n : Nat) : readInt? (ofNat n) = some (n : Int) := by
  have hminus : ∀ rest, ofNat n ≠ 45 :: rest := by
    intro rest h
    have hdigit := isDigit_of_mem_ofNat n 45 (by rw [h]; exact List.mem_cons_self)
    cases hdigit
  unfold readInt?
  split
  · next rest h => exact absurd h (hminus rest)
  · rw [readNat?_ofNat]
    rfl

/-- The text of an integer denotes it. -/
theorem readInt?_ofInt (n : Int) : readInt? (ofInt n) = some n := by
  cases n with
  | ofNat n => exact readInt?_ofNat n
  | negSucc n =>
    rw [ofInt, readInt?, readNat?_ofNat]
    rfl

/-- It is read as a word if there is a word for it. -/
theorem readInt64?_ofInt (n : Int) : readInt64? (ofInt n) =
    if -2 ^ 63 ≤ n ∧ n < 2 ^ 63 then some (Int64.ofInt n) else none := by
  have hmin : Int64.minValue.toInt = -2 ^ 63 := rfl
  have hmax : Int64.maxValue.toInt = 2 ^ 63 - 1 := rfl
  rw [readInt64?, readInt?_ofInt, Option.bind_some, hmin, hmax]
  simp only [Int.le_sub_one_iff]

theorem readInt64?_ofNat {n : Nat} (h : n < 2 ^ 63) :
    readInt64? (ofNat n) = some (Int64.ofNat n) := by
  have htext : ofNat n = ofInt n := rfl
  rw [htext, readInt64?_ofInt, if_pos (by omega)]
  rfl

/-- A number beyond the words is not read. -/
theorem readInt64?_ofNat_eq_none {n : Nat} (h : 2 ^ 63 ≤ n) : readInt64? (ofNat n) = none := by
  have htext : ofNat n = ofInt n := rfl
  rw [htext, readInt64?_ofInt, if_neg (by omega)]

/-! ## The texts of integers -/

/-- The value of digits by their places, the last one counting once. -/
def placeValue (digits : Bytes) : Nat :=
  Nat.ofDigits 10 (digits.reverse.map fun b => b.toNat - 48)

/-- The text is digits, maybe behind a minus sign, and `n` is their value. -/
inductive Denotes : Bytes → Int → Prop
  | positive {digits : Bytes} (hne : digits ≠ []) (h : ∀ b ∈ digits, Byte.isDigit b = true) :
      Denotes digits (placeValue digits)
  | negative {digits : Bytes} (hne : digits ≠ []) (h : ∀ b ∈ digits, Byte.isDigit b = true) :
      Denotes (45 :: digits) (-(placeValue digits : Int))

section
variable {s digits : Bytes} {n m : Int} {w : Int64}

theorem toNat_of_isDigit {b : UInt8} (h : Byte.isDigit b = true) :
    (b - 48).toNat = b.toNat - 48 := by
  simp only [Byte.isDigit, Bool.and_eq_true, decide_eq_true_eq] at h
  exact UInt8.toNat_sub_of_le b 48 h.1

theorem valueFrom_eq (acc : Nat) (h : ∀ b ∈ digits, Byte.isDigit b = true) :
    valueFrom acc digits = placeValue digits + acc * 10 ^ digits.length := by
  induction digits generalizing acc with
  | nil => simp [valueFrom, placeValue]
  | cons b digits ih =>
    obtain ⟨hb, hdigits⟩ := List.forall_mem_cons.mp h
    rw [valueFrom, ih _ hdigits, toNat_of_isDigit hb, placeValue, placeValue, List.reverse_cons,
      List.map_append, Nat.ofDigits_append, List.map_singleton, Nat.ofDigits_singleton,
      List.length_map, List.length_reverse, List.length_cons, pow_succ]
    ring

theorem value_eq_placeValue (h : ∀ b ∈ digits, Byte.isDigit b = true) :
    value digits = placeValue digits := by
  rw [value, valueFrom_eq 0 h, Nat.zero_mul, Nat.add_zero]

theorem readNat?_eq_some_iff {k : Nat} : readNat? s = some k ↔
    s ≠ [] ∧ (∀ b ∈ s, Byte.isDigit b = true) ∧ k = placeValue s := by
  have hguard : (!s.isEmpty && s.all Byte.isDigit) = true ↔
      s ≠ [] ∧ ∀ b ∈ s, Byte.isDigit b = true := by simp
  unfold readNat?
  by_cases h : s ≠ [] ∧ ∀ b ∈ s, Byte.isDigit b = true
  · rw [if_pos (hguard.mpr h), value_eq_placeValue h.2, Option.some.injEq, eq_comm]
    exact ⟨fun hk => ⟨h.1, h.2, hk⟩, fun hk => hk.2.2⟩
  · rw [if_neg (fun hg => h (hguard.mp hg))]
    exact iff_of_false nofun fun hk => h ⟨hk.1, hk.2.1⟩

/-- A text is read as the integer it denotes. -/
theorem readInt?_eq_some_iff : readInt? s = some n ↔ Denotes s n := by
  constructor
  · intro h
    unfold readInt? at h
    split at h
    · next rest =>
      cases hread : readNat? rest with
      | none => rw [hread] at h; cases h
      | some k =>
        obtain ⟨hne, hdigits, rfl⟩ := readNat?_eq_some_iff.mp hread
        rw [hread] at h
        cases h
        exact .negative hne hdigits
    · obtain ⟨k, hk, rfl⟩ := Option.map_eq_some_iff.mp h
      obtain ⟨hne, hdigits, rfl⟩ := readNat?_eq_some_iff.mp hk
      exact .positive hne hdigits
  · intro h
    cases h with
    | positive hne hdigits =>
      unfold readInt?
      split
      · -- A minus sign is no digit.
        cases hdigits 45 List.mem_cons_self
      · rw [readNat?_eq_some_iff.mpr ⟨hne, hdigits, rfl⟩]
        rfl
    | negative hne hdigits =>
      rw [readInt?, readNat?_eq_some_iff.mpr ⟨hne, hdigits, rfl⟩]
      rfl

/-- A text denotes one integer at most. -/
theorem Denotes.unique (h : Denotes s n) (h' : Denotes s m) : n = m :=
  Option.some.inj ((readInt?_eq_some_iff.mpr h).symm.trans (readInt?_eq_some_iff.mpr h'))

/-- A text is read as the word of the integer it denotes. -/
theorem readInt64?_eq_some_iff : readInt64? s = some w ↔ Denotes s w.toInt := by
  have hmin : Int64.minValue.toInt = -2 ^ 63 := rfl
  have hmax : Int64.maxValue.toInt = 2 ^ 63 - 1 := rfl
  have hlower := w.le_toInt
  have hupper := w.toInt_lt
  rw [← readInt?_eq_some_iff, readInt64?, Option.bind_eq_some_iff, hmin, hmax]
  constructor
  · rintro ⟨n, hn, hw⟩
    split at hw
    · next hfits =>
      cases hw
      rw [hn, Int64.toInt_ofInt_of_le (by omega) (by omega)]
    · cases hw
  · intro h
    exact ⟨w.toInt, h, by rw [if_pos (by omega), Int64.ofInt_toInt]⟩

end

end Coordinator.Decimal

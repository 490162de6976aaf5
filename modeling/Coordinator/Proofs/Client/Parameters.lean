import Coordinator.Proofs.Client.Statements
import Coordinator.Proofs.Decimal
import Mathlib.Data.Int.Order.Basic
import Mathlib.Data.UInt

/-! # Parameters on their way to SQLite

The parameters of a statement are bound in order, between preparing it and its first step.  The
library knows one type of integers, words of 64 bits with a sign, and takes the length of a text as
a word of 32 bits with a sign.  So **a parameter is bound as it is just if it fits**
(`bound_iff_fits`): integers with a sign always do, those without one up to half their range, and
texts below 2 GiB.  Any other integer is bound as another one, and the statement goes on.  Written
into a statement, each integer is the one it was. -/
namespace Coordinator.Client.Sqlite

/-- A value that the library may be told of. -/
inductive Value
  | null
  | integer (n : Int)
  | real (x : Binary64)
  | text (s : Bytes)
deriving DecidableEq, Repr

/-- The value of a parameter. -/
def Value.of : Sql.Param → Value
  | .null => .null
  | .int32 n => .integer n.toInt
  | .int64 n => .integer n.toInt
  | .uint64 n => .integer n.toNat
  | .real x => .real x
  | .text s => .text s

/-- The index and the value that a call binds. -/
def Call.bound? : Call → Option (Nat × Value)
  | .bindNull index => some (index, .null)
  | .bindText index s => some (index, .text s)
  | .bindReal index x => some (index, .real x)
  | .bindInteger index n => some (index, .integer n.toInt)
  | _ => none

/-- The library can be told of the parameter.  With a length that it takes for a negative one, it
still finds the end of a text without NULs. -/
def Fits : Sql.Param → Prop
  | .uint64 n => n.toNat < 2 ^ 63
  | .text s => s.length < 2 ^ 31 ∨ 2 ^ 31 ≤ s.length % 2 ^ 32 ∧ 0 ∉ s
  | _ => True

/-! ## Words -/

theorem toInt_toInt64 (n : UInt64) : n.toInt64.toInt =
    if n.toNat < 2 ^ 63 then (n.toNat : Int) else n.toNat - 2 ^ 64 := by
  have hbits : n.toInt64.toInt = Int.bmod n.toNat (2 ^ 64) :=
    BitVec.toInt_eq_toNat_bmod n.toBitVec
  have hword := n.toNat_lt
  rw [hbits, Int.bmod_def]
  split <;> split <;> omega

theorem toInt_length (size : Nat) : (Int32.ofNat size).toInt =
    if size % 2 ^ 32 < 2 ^ 31 then ((size % 2 ^ 32 : Nat) : Int)
    else (size % 2 ^ 32 : Nat) - 2 ^ 32 := by
  have hbits : (Int32.ofNat size).toInt = Int.bmod size (2 ^ 32) := Int32.toInt_ofNat
  rw [hbits, Int.bmod_def]
  split <;> split <;> omega

theorem length_negative_iff (size : Nat) : Int32.ofNat size < 0 ↔ 2 ^ 31 ≤ size % 2 ^ 32 := by
  rw [Int32.lt_iff_toInt_lt, toInt_length, Int32.toInt_zero]
  split <;> omega

theorem untilNul_eq_iff (s : Bytes) : s.untilNul = s ↔ 0 ∉ s := by
  rw [Bytes.untilNul, List.takeWhile_eq_self_iff]
  constructor
  · intro h hmem
    exact absurd (h 0 hmem) (by decide)
  · intro h b hb
    exact decide_eq_true fun hzero => h (hzero ▸ hb)

/-- The library takes a text as it is just if it fits. -/
theorem boundText_eq_iff (s : Bytes) : boundText s = s ↔ Fits (.text s) := by
  have hsmall (n : Nat) : s.take n = s ↔ s.length ≤ n :=
    ⟨fun h => h ▸ List.length_take_le n s, List.take_of_length_le⟩
  simp only [boundText, Fits]
  by_cases hsize : 2 ^ 31 ≤ s.length % 2 ^ 32
  · rw [if_pos ((length_negative_iff _).mpr hsize), untilNul_eq_iff]
    constructor
    · exact fun h => Or.inr ⟨hsize, h⟩
    · rintro (h | ⟨-, h⟩)
      · omega
      · exact h
  · rw [if_neg (mt (length_negative_iff _).mp hsize), hsmall, toInt_length,
      if_pos (Nat.lt_of_not_le hsize), Int.toNat_natCast]
    omega

/-! ## Bound parameters -/

/-- What becomes of a parameter: the library is told of it by a call, and a statement that it is
written into has its text. -/
structure Told (p : Sql.Param) (index : Nat) (told : Call) : Prop where
  /-- The call binds the parameter's index, and its value if and only if that fits. -/
  value : ∃ v, told.bound? = some (index, v) ∧ (v = Value.of p ↔ Fits p)
  /-- An integer that does not fit becomes a negative one. -/
  wraps : ∀ n, p = .uint64 n → 2 ^ 63 ≤ n.toNat →
    told.bound? = some (index, .integer (n.toNat - 2 ^ 64))
  /-- In a statement, no integer becomes another. -/
  written : ∀ quote n, Value.of p = .integer n → Decimal.readInt? (p.render quote) = some n

theorem told_bindCall (p : Sql.Param) (index : Nat) : Told p index (bindCall index p) where
  value := by
    cases p with
    | null => exact ⟨_, rfl, iff_of_true rfl trivial⟩
    | real x => exact ⟨_, rfl, iff_of_true rfl trivial⟩
    | int64 n => exact ⟨_, rfl, iff_of_true rfl trivial⟩
    | int32 n =>
      refine ⟨_, rfl, iff_of_true ?_ trivial⟩
      exact congrArg Value.integer (Int32.toInt_toInt64 n)
    | uint64 n =>
      refine ⟨_, rfl, ?_⟩
      rw [Value.of, Value.integer.injEq, toInt_toInt64, Fits]
      split <;> omega
    | text s =>
      refine ⟨_, rfl, ?_⟩
      rw [Value.of, Value.text.injEq]
      exact boundText_eq_iff s
  wraps := by
    rintro n rfl hbig
    have hword : n.toInt64.toInt = n.toNat - 2 ^ 64 := by
      rw [toInt_toInt64, if_neg (Nat.not_lt.mpr hbig)]
    exact congrArg (fun v => some (index, Value.integer v)) hword
  written := by
    intro quote n hn
    cases p with
    | null => cases hn
    | real x => cases hn
    | text s => cases hn
    | int32 w => cases hn; exact Decimal.readInt?_ofInt _
    | int64 w => cases hn; exact Decimal.readInt?_ofInt _
    | uint64 w => cases hn; exact Decimal.readInt?_ofNat _

/-- A statement whose parameters the library takes: what it makes of them, call by call. -/
structure Binds (c : ConnectionId) (sql : Bytes) (params : List Sql.Param) (s : Sqlite) :
    Prop where
  /-- The parameters are bound in order, after preparing the statement and before its first step. -/
  calls : ∃ binds steps, ((query c sql params).run s).2.calls =
      s.calls ++ (.prepare sql.untilNul :: binds ++ steps ++ [.finalize]) ∧
    steps ≠ [] ∧ (∀ x ∈ steps, x = .step) ∧ binds.length = params.length ∧
    ∀ i p, params[i]? = some p → ∃ told, binds[i]? = some told ∧ Told p (i + 1) told
  /-- Whatever they became, the statement returns its rows. -/
  returns : (s.replyTo sql).endCode = 101 →
    ((query c sql params).run s).1 = .ok (s.replyTo sql).rows

theorem count_of_toInt {size : Nat} {count : Int32} (h : (size : Int) = count.toInt) :
    Int32.ofNat size = count := by
  have hlower := count.le_toInt
  have hupper := count.toInt_lt
  have hsize : size % 2 ^ 32 = size := Nat.mod_eq_of_lt (by omega)
  rw [← Int32.toInt_inj, toInt_length, hsize, ← h]
  split <;> omega

/-- With its parameters taken, a statement is stepped through. -/
theorem Course.of_bound {r : Reply} {sql : Bytes} {params : List Sql.Param}
    {answer : Except Fault Sql.Rows} {cs : List Call} (h : Course r sql params answer cs)
    (hcode : r.code = 0) (hnull : r.nullStatement = false)
    (hcount : Int32.ofNat params.length = r.paramCount)
    (hbound : ∀ i < params.length, ¬ r.Refuses (1 + i)) :
    cs = .prepare sql.untilNul :: bindCalls 1 params ++ stepCalls r ++ [.finalize] ∧
      (r.endCode = 101 → answer = .ok r.rows) := by
  cases h with
  | unprepared hfailed => exact absurd hcode hfailed
  | empty _ hempty => rw [hnull] at hempty; cases hempty
  | prepared _ _ hrun =>
    cases hrun with
    | miscounted hmiscount => exact absurd hcount hmiscount
    | unbound _ hk hrefuses => exact absurd hrefuses (hbound _ hk)
    | unstepped _ _ hend => exact ⟨rfl, fun hdone => absurd hdone hend.2⟩
    | fetched _ _ _ => exact ⟨rfl, fun _ => rfl⟩

/-- A parameter is bound as it is just if it fits, and no statement fails for one that does not. -/
theorem bound_iff_fits (c : ConnectionId) {sql : Bytes} {params : List Sql.Param} {s : Sqlite}
    (hprepared : (s.replyTo sql).code = 0) (hnull : (s.replyTo sql).nullStatement = false)
    (hcount : (params.length : Int) = (s.replyTo sql).paramCount.toInt)
    (hbound : ∀ i < params.length, ¬ (s.replyTo sql).Refuses (1 + i)) :
    Binds c sql params s := by
  have hcount := count_of_toInt hcount
  have hsteps : stepCalls (s.replyTo sql) ≠ [] ∧ ∀ x ∈ stepCalls (s.replyTo sql), x = .step :=
    ⟨List.cons_ne_nil _ _, fun x hx => List.eq_of_mem_replicate hx⟩
  have htold (i : Nat) (p : Sql.Param) (hp : params[i]? = some p) :
      ∃ told, (bindCalls 1 params)[i]? = some told ∧ Told p (i + 1) told := by
    refine ⟨bindCall (i + 1) p, ?_, told_bindCall p (i + 1)⟩
    rw [getElem?_bindCalls, hp, Nat.add_comm 1 i]
    rfl
  obtain ⟨cs, hcourse, script, message, hafter⟩ := course_of_query c sql params s
  obtain ⟨rfl, hreturns⟩ := hcourse.of_bound hprepared hnull hcount hbound
  refine ⟨⟨bindCalls 1 params, stepCalls (s.replyTo sql), ?_, hsteps.1, hsteps.2,
    length_bindCalls 1 params, htold⟩, hreturns⟩
  rw [hafter]

/-- A library that takes some number of parameters of the statement `S`. -/
def taking (count : Int32) : Sqlite :=
  { script := [⟨ascii "S", false, { paramCount := count }⟩] }

theorem bound_of_each_type :
    ((taking 6).replyTo (ascii "S")).code = 0 ∧ Binds 1 (ascii "S")
      [.null, .int32 (-1), .int64 (-1), .uint64 (2 ^ 63), .real ⟨0⟩, .text [0]] (taking 6) :=
  ⟨rfl, bound_iff_fits 1 rfl rfl rfl fun _ _ h => by cases h.1⟩

/-- The least integer that does not fit is bound as the least integer there is, and the statement
returns. -/
theorem bound_sign_bit :
    ((query 1 (ascii "S") [.uint64 (2 ^ 63)]).run (taking 1)).1 = .ok [] ∧
      ((query 1 (ascii "S") [.uint64 (2 ^ 63)]).run (taking 1)).2.calls =
        [.prepare (ascii "S"), .bindInteger 1 (-2 ^ 63), .step, .finalize] ∧
      (Call.bindInteger 1 (-2 ^ 63)).bound? ≠ some (1, Value.of (.uint64 (2 ^ 63))) := by
  exact ⟨rfl, by decide +kernel, by decide +kernel⟩

end Coordinator.Client.Sqlite

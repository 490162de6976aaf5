import Coordinator.Journal
import Coordinator.Proofs.Decimal

/-! # Escaped bytes, read back

A value of any bytes is written between double quotes: printable bytes as they are, all others, the
double quote and the backslash as an escape, `\xHH`.  What stands between the quotes is legible
(`Legible`): it is printable, a double quote ends it, a backslash always starts an escape, and
putting the byte of each escape in its place (`unescape`) gives the value back.  So two values are
never written alike (`printable_injective`). -/
namespace Coordinator

/-! ## Printable texts -/

namespace Bytes

/-- Every byte is printable ASCII. -/
def IsPrintable (s : Bytes) : Prop := ∀ b ∈ s, Byte.isPrintable b = true

instance (s : Bytes) : Decidable s.IsPrintable :=
  decidable_of_iff (s.all Byte.isPrintable = true) List.all_eq_true

theorem IsPrintable.not_mem {s : Bytes} {b : UInt8} (hs : s.IsPrintable)
    (hb : Byte.isPrintable b = false) : b ∉ s := by
  intro hmem
  rw [hs b hmem] at hb
  cases hb

theorem join_eq_intercalate (separator : Bytes) (pieces : List Bytes) :
    join separator pieces = separator.intercalate pieces := by
  fun_induction join separator pieces with
  | case1 => rfl
  | case2 s => simp
  | case3 s rest hrest ih =>
    cases rest with
    | nil => exact absurd rfl (hrest)
    | cons t rest => simp [ih, List.intercalate_cons_cons]

/-- What is in a joined text is in the separator or in a piece. -/
theorem mem_of_mem_join {separator : Bytes} {pieces : List Bytes} {b : UInt8}
    (hb : b ∈ join separator pieces) : b ∈ separator ∨ ∃ s ∈ pieces, b ∈ s := by
  fun_induction join separator pieces with
  | case1 => cases hb
  | case2 s => exact .inr ⟨s, List.mem_singleton_self s, hb⟩
  | case3 s rest hrest ih =>
    simp only [List.mem_append] at hb
    rcases hb with (hb | hb) | hb
    · exact .inr ⟨s, List.mem_cons_self, hb⟩
    · exact .inl hb
    · rcases ih hb with hb | ⟨t, ht, hb⟩
      · exact .inl hb
      · exact .inr ⟨t, List.mem_cons_of_mem s ht, hb⟩

end Bytes

namespace Decimal

theorem isPrintable_ofNat (n : Nat) : (ofNat n).IsPrintable := by
  intro b hb
  have hdigit := isDigit_of_mem_ofNat n b hb
  simp only [Byte.isDigit, Byte.isPrintable, Bool.and_eq_true, decide_eq_true_eq,
    UInt8.le_iff_toNat_le, UInt8.lt_iff_toNat_lt, UInt8.reduceToNat] at hdigit ⊢
  omega

theorem isPrintable_ofInt (n : Int) : (ofInt n).IsPrintable := by
  cases n with
  | ofNat n => exact isPrintable_ofNat n
  | negSucc n =>
    intro b hb
    rcases List.mem_cons.mp hb with rfl | hb
    · decide
    · exact isPrintable_ofNat (n + 1) b hb

end Decimal

namespace Journal

/-! ## Reading escapes -/

/-- A hexadecimal digit, in lower case. -/
def isHexDigit (b : UInt8) : Bool := Byte.isDigit b || (97 ≤ b && b ≤ 102)

/-- The value of a hexadecimal digit. -/
def hexValue (b : UInt8) : UInt8 := if Byte.isDigit b then b - 48 else b - 87

/-- The text with each escape replaced by its byte. -/
def unescape : Bytes → Bytes
  | 92 :: 120 :: high :: low :: rest =>
    if isHexDigit high && isHexDigit low then (hexValue high * 16 + hexValue low) :: unescape rest
    else 92 :: unescape (120 :: high :: low :: rest)
  | b :: rest => b :: unescape rest
  | [] => []

/-- The two digits of a byte: each is a digit, and has its half of the byte as its value. -/
theorem hexDigit_spec : ∀ n < 16, isHexDigit (hexDigit n.toUInt8) = true ∧
    hexValue (hexDigit n.toUInt8) = n.toUInt8 := by decide

/-- A digit can stand between the quotes, and starts no escape. -/
theorem isPrintable_hexDigit : ∀ n < 16, Byte.isPrintable (hexDigit n.toUInt8) = true ∧
    hexDigit n.toUInt8 ≠ 34 ∧ hexDigit n.toUInt8 ≠ 92 := by decide

theorem exists_nibble {n : UInt8} (h : n < 16) : ∃ k < 16, n = k.toUInt8 := by
  refine ⟨n.toNat, UInt8.lt_iff_toNat_lt.mp h, ?_⟩
  simp

theorem high_lt (b : UInt8) : b / 16 < 16 := by
  rw [UInt8.lt_iff_toNat_lt, UInt8.toNat_div]
  have hb := b.toNat_lt
  simp
  omega

theorem low_lt (b : UInt8) : b % 16 < 16 := by
  rw [UInt8.lt_iff_toNat_lt, UInt8.toNat_mod]
  simp
  omega

/-- The two halves of a byte, put together. -/
theorem halves (b : UInt8) : b / 16 * 16 + b % 16 = b := by
  apply UInt8.toNat_inj.mp
  have hb := b.toNat_lt
  simp only [UInt8.toNat_add, UInt8.toNat_mul, UInt8.toNat_div, UInt8.toNat_mod, UInt8.reduceToNat]
  omega

/-- A byte that stands for itself between the quotes. -/
def IsPlain (b : UInt8) : Prop := Byte.isPrintable b = true ∧ b ≠ 34 ∧ b ≠ 92

/-- How a byte is written: as itself, or as an escape that has it as its value. -/
inductive Written (b : UInt8) : Bytes → Prop
  | plain (h : IsPlain b) : Written b [b]
  | escape {high low : UInt8} (hhigh : isHexDigit high = true ∧ IsPlain high)
      (hlow : isHexDigit low = true ∧ IsPlain low)
      (hvalue : hexValue high * 16 + hexValue low = b) : Written b [92, 120, high, low]

theorem written_escapeByte (b : UInt8) : Written b (escapeByte b) := by
  unfold escapeByte
  split
  · next h =>
    simp only [Bool.and_eq_true, bne_iff_ne] at h
    exact .plain ⟨h.1.1, h.1.2, h.2⟩
  · obtain ⟨i, hi, hhigh⟩ := exists_nibble (high_lt b)
    obtain ⟨j, hj, hlow⟩ := exists_nibble (low_lt b)
    have hdigit := hexDigit_spec i hi
    have hdigit' := hexDigit_spec j hj
    rw [← hhigh] at hdigit
    rw [← hlow] at hdigit'
    refine .escape ⟨hdigit.1, ?_⟩ ⟨hdigit'.1, ?_⟩ ?_
    · rw [hhigh]
      exact isPrintable_hexDigit i hi
    · rw [hlow]
      exact isPrintable_hexDigit j hj
    · rw [hdigit.2, hdigit'.2, halves]

/-! ## Legible texts -/

/-- A text that can stand between double quotes: it is printable, holds no double quote, and every
backslash in it starts an escape. -/
structure Legible (text : Bytes) : Prop where
  printable : text.IsPrintable
  unquoted : (34 : UInt8) ∉ text
  escapes : ∀ front rest, text = front ++ 92 :: rest → ∃ high low tail,
    rest = 120 :: high :: low :: tail ∧ isHexDigit high = true ∧ isHexDigit low = true

theorem legible_nil : Legible [] where
  printable := by simp [Bytes.IsPrintable]
  unquoted := by simp
  escapes := by simp

/-- A backslash behind plain bytes is a backslash of what follows them. -/
theorem backslash_behind {plain text front rest : Bytes} (hplain : ∀ b ∈ plain, IsPlain b)
    (h : plain ++ text = front ++ 92 :: rest) : ∃ front', text = front' ++ 92 :: rest := by
  rcases List.append_eq_append_iff.mp h with ⟨front', -, htext⟩ | ⟨behind, hsplit, htext⟩
  · exact ⟨front', htext⟩
  · cases behind with
    | nil => exact ⟨[], by simpa using htext.symm⟩
    | cons b behind =>
      have hb : b = 92 := (List.cons.inj htext).1.symm
      have hmem : b ∈ plain := by rw [hsplit]; simp
      exact absurd hb (hplain b hmem).2.2

variable {b : UInt8} {w text : Bytes}

/-- A written byte in front of a legible text. -/
theorem Written.legible (hw : Written b w) (h : Legible text) : Legible (w ++ text) := by
  cases hw with
  | plain hb =>
    refine ⟨?_, ?_, fun front rest heq => ?_⟩
    · intro c hc
      rcases List.mem_append.mp hc with hc | hc
      · rw [List.mem_singleton.mp hc]
        exact hb.1
      · exact h.printable c hc
    · simp [h.unquoted, hb.2.1.symm]
    · obtain ⟨front', hrest⟩ := backslash_behind (by simpa using hb) heq
      exact h.escapes front' rest hrest
  | @escape high low hhigh hlow hvalue =>
    have hx : IsPlain 120 := ⟨by decide, by decide, by decide⟩
    refine ⟨?_, ?_, fun front rest heq => ?_⟩
    · intro c hc
      simp only [List.cons_append, List.nil_append, List.mem_cons] at hc
      rcases hc with rfl | rfl | rfl | rfl | hc
      · decide
      · decide
      · exact hhigh.2.1
      · exact hlow.2.1
      · exact h.printable c hc
    · simp [h.unquoted, hhigh.2.2.1.symm, hlow.2.2.1.symm]
    · -- The backslash is the one of this escape, or comes after it.
      cases front with
      | nil =>
        have hrest := (List.cons.inj heq).2
        exact ⟨high, low, text, hrest.symm, hhigh.1, hlow.1⟩
      | cons c front =>
        have hrest : [120, high, low] ++ text = front ++ 92 :: rest := (List.cons.inj heq).2
        have hplain : ∀ c ∈ [120, high, low], IsPlain c := by
          simp [hx, hhigh.2, hlow.2]
        obtain ⟨front', hrest⟩ := backslash_behind hplain hrest
        exact h.escapes front' rest hrest

/-- A written byte is read as that byte. -/
theorem Written.unescape (hw : Written b w) (text : Bytes) :
    unescape (w ++ text) = b :: unescape text := by
  cases hw with
  | plain hb =>
    rw [List.singleton_append, Journal.unescape]
    intro _ _ _ hbackslash
    exact absurd hbackslash hb.2.2
  | escape hhigh hlow hvalue =>
    simp only [List.cons_append, List.nil_append, Journal.unescape]
    rw [hhigh.1, hlow.1, hvalue]
    simp

/-! ## Values -/

/-- What is written of a value between the quotes. -/
def inside (v : Bytes) : Bytes := v.flatMap escapeByte

theorem printable_eq (v : Bytes) : printable v = 34 :: inside v ++ [34] := rfl

theorem legible_inside (v : Bytes) : Legible (inside v) := by
  induction v with
  | nil => exact legible_nil
  | cons b v ih => exact (written_escapeByte b).legible ih

theorem unescape_inside (v : Bytes) : unescape (inside v) = v := by
  induction v with
  | nil => rfl
  | cons b v ih =>
    have hcons : inside (b :: v) = escapeByte b ++ inside v := rfl
    rw [hcons, (written_escapeByte b).unescape, ih]

theorem isPrintable_printable (v : Bytes) : (printable v).IsPrintable := by
  intro b hb
  rw [printable_eq] at hb
  simp only [List.cons_append, List.mem_cons, List.mem_append, List.not_mem_nil, or_false] at hb
  rcases hb with rfl | hb | rfl
  · decide
  · exact (legible_inside v).printable b hb
  · decide

/-- The value of a text between double quotes. -/
def readQuoted? : Bytes → Option Bytes
  | 34 :: rest => if rest.getLast? = some 34 then some (unescape rest.dropLast) else none
  | _ => none

theorem readQuoted?_printable (v : Bytes) : readQuoted? (printable v) = some v := by
  rw [printable_eq, List.cons_append, readQuoted?]
  simp [unescape_inside]

/-- No two values are written alike. -/
theorem printable_injective : Function.Injective printable := by
  intro v w h
  have hread := readQuoted?_printable v
  rw [h, readQuoted?_printable] at hread
  exact (Option.some.inj hread).symm

end Journal
end Coordinator

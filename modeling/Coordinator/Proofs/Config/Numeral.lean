import Coordinator.Config.Numeral
import Coordinator.Proofs.Bytes

/-! # What is a numeral

`Numeral.read?` reads a text by its parts.  The grammar of numerals is `IsNumeral`, which says how
the parts of a text are put together and nothing of how they are found.  A text is read just if it
has the grammar (`read?_isSome_iff`), as a whole: nothing may be left of it. -/
namespace Coordinator.Config.Numeral

/-! ## The grammar -/

/-- A hexadecimal digit, in either case. -/
def isHexDigit (b : UInt8) : Bool :=
  Byte.isDigit b || (97 ≤ b && b ≤ 102) || (65 ≤ b && b ≤ 70)

/-- Digits, at least one, and perhaps a point before, among or after them. -/
inductive IsMantissa (digit : UInt8 → Bool) : Bytes → Prop
  | whole {s : Bytes} (hs : ∀ b ∈ s, digit b = true) (hne : s ≠ []) : IsMantissa digit s
  | pointed {s t : Bytes} (hs : ∀ b ∈ s, digit b = true) (ht : ∀ b ∈ t, digit b = true)
    (hne : s ++ t ≠ []) : IsMantissa digit (s ++ 46 :: t)

/-- A sign, which need not be there. -/
inductive IsSign : Bytes → Prop
  | none : IsSign []
  | plus : IsSign [43]
  | minus : IsSign [45]

/-- An exponent with its letter, in either case, which need not be there. -/
inductive IsExponent (letter : UInt8) : Bytes → Prop
  | none : IsExponent letter []
  | some {b : UInt8} {sign s : Bytes} (hb : Byte.toUpper b = letter) (hsign : IsSign sign)
    (hs : ∀ b ∈ s, Byte.isDigit b = true) (hne : s ≠ []) : IsExponent letter (b :: (sign ++ s))

/-- A numeral without a sign. -/
inductive IsUnsigned : Bytes → Prop
  | decimal {m e : Bytes} (hm : IsMantissa Byte.isDigit m) (he : IsExponent 69 e) :
    IsUnsigned (m ++ e)
  | hexadecimal {x : UInt8} {m e : Bytes} (hx : Byte.toUpper x = 88)
    (hm : IsMantissa isHexDigit m) (he : IsExponent 80 e) : IsUnsigned (48 :: x :: (m ++ e))
  | infinity {s : Bytes} (hs : s.toUpper = ascii "INF" ∨ s.toUpper = ascii "INFINITY") :
    IsUnsigned s
  | nan {s : Bytes} (hs : s.toUpper = ascii "NAN") : IsUnsigned s
  /-- A value that is not a number may be told from others by a text. -/
  | nanOf {s t : Bytes} (hs : s.toUpper = ascii "NAN")
    (ht : ∀ b ∈ t, Byte.isAlphanumeric b = true ∨ b = 95) : IsUnsigned (s ++ 40 :: (t ++ [41]))

/-- A numeral: blanks, a sign and a number, none of them left out but the number. -/
inductive IsNumeral : Bytes → Prop
  | of {blanks sign s : Bytes} (hblanks : ∀ b ∈ blanks, Byte.isBlank b = true)
    (hsign : IsSign sign) (hs : IsUnsigned s) : IsNumeral (blanks ++ sign ++ s)

/-! ## Digits -/

theorem decimalValue?_isSome (b : UInt8) : (decimalValue? b).isSome = Byte.isDigit b := by
  unfold decimalValue?
  split
  · next h => rw [h]; rfl
  · next h => simpa using h

theorem hexValue?_isSome (b : UInt8) : (hexValue? b).isSome = isHexDigit b := by
  unfold hexValue? isHexDigit
  split
  · next h => simp [h]
  · next h =>
    split
    · next h' => simp [h']
    · next h' =>
      split
      · next h'' => simp [h'']
      · next h'' => simp [h, h', h'']

/-- What is read, and the class of what is read as a digit. -/
structure Digits (digit : UInt8 → Bool) (digit? : UInt8 → Option Nat) : Prop where
  isSome : ∀ b, (digit? b).isSome = digit b
  point : digit 46 = false

theorem digits_decimal : Digits Byte.isDigit decimalValue? := ⟨decimalValue?_isSome, by decide⟩

theorem digits_hexadecimal : Digits isHexDigit hexValue? := ⟨hexValue?_isSome, by decide⟩

section Mantissa
variable {digit : UInt8 → Bool} {digit? : UInt8 → Option Nat} {base : Nat} {pointed : Bool}
  {s t : Bytes}

/-- Where the digits end. -/
def Stops (digit : UInt8 → Bool) (pointed : Bool) (t : Bytes) : Prop :=
  ∀ b rest, t = b :: rest → digit b = false ∧ (pointed = false → b ≠ 46)

theorem readMantissa_digits (base : Nat) (pointed : Bool) (t : Bytes) (hd : Digits digit digit?)
    (hs : ∀ b ∈ s, digit b = true) (m : Mantissa) : ∃ m', m'.count = m.count + s.length ∧
      readMantissa base digit? pointed m (s ++ t) = readMantissa base digit? pointed m' t := by
  induction s generalizing m with
  | nil => exact ⟨m, rfl, rfl⟩
  | cons b s ih =>
    have hb : (digit? b).isSome = true := (hd.isSome b).trans (hs b List.mem_cons_self)
    obtain ⟨d, hdigit⟩ := Option.isSome_iff_exists.mp hb
    obtain ⟨m', hcount, hrest⟩ := ih (fun c hc => hs c (List.mem_cons_of_mem b hc))
      ⟨m.digits * base + d, m.afterPoint + if pointed then 1 else 0, m.count + 1⟩
    refine ⟨m', ?_, ?_⟩
    · change m'.count = m.count + 1 + s.length at hcount
      rw [List.length_cons]
      omega
    · rw [List.cons_append, readMantissa]
      simp only [hdigit]
      exact hrest

theorem digit?_eq_none (hd : Digits digit digit?) {b : UInt8} (hb : digit b = false) :
    digit? b = none := by
  rw [← Option.not_isSome_iff_eq_none, hd.isSome, hb]
  decide

theorem readMantissa_stops (hd : Digits digit digit?) (ht : Stops digit pointed t) (m : Mantissa) :
    readMantissa base digit? pointed m t = (m, t) := by
  cases t with
  | nil => rfl
  | cons b rest =>
    obtain ⟨hdigit, hpoint⟩ := ht b rest rfl
    rw [readMantissa]
    simp only [digit?_eq_none hd hdigit]
    rw [if_neg]
    rintro ⟨rfl, hpointed⟩
    exact hpoint (by simpa using hpointed) rfl

theorem readMantissa_point (hd : Digits digit digit?) (m : Mantissa) :
    readMantissa base digit? false m (46 :: t) = readMantissa base digit? true m t := by
  rw [readMantissa]
  simp only [digit?_eq_none hd hd.point]
  rw [if_pos ⟨trivial, rfl⟩]

/-- A text starts with digits, perhaps with none. -/
theorem exists_digits (digit : UInt8 → Bool) (s : Bytes) :
    ∃ front rest, s = front ++ rest ∧ (∀ b ∈ front, digit b = true) ∧ Stops digit true rest := by
  refine ⟨s.takeWhile digit, s.dropWhile digit, List.takeWhile_append_dropWhile.symm,
    fun b hb => List.mem_takeWhile_imp hb, fun b rest hrest => ⟨?_, nofun⟩⟩
  exact Bytes.not_of_head?_dropWhile (by rw [hrest]; rfl)

/-- A mantissa at the start is read, and nothing of what follows it. -/
theorem readMantissa_of_isMantissa (base : Nat) (hd : Digits digit digit?) (hs : IsMantissa digit s)
    (ht : Stops digit false t) : ∃ m, m.count ≠ 0 ∧
      readMantissa base digit? false ⟨0, 0, 0⟩ (s ++ t) = (m, t) := by
  have hstop : Stops digit true t := fun b rest h => ⟨(ht b rest h).1, nofun⟩
  cases hs with
  | whole hs hne =>
    obtain ⟨m, hcount, hread⟩ := readMantissa_digits base false t hd hs ⟨0, 0, 0⟩
    refine ⟨m, ?_, hread.trans (readMantissa_stops hd ht m)⟩
    have hpos := List.length_pos_iff.mpr hne
    omega
  | @pointed s t' hs ht' hne =>
    obtain ⟨m, hcount, hread⟩ :=
      readMantissa_digits base false (46 :: (t' ++ t)) hd hs ⟨0, 0, 0⟩
    obtain ⟨m', hcount', hread'⟩ := readMantissa_digits base true t hd ht' m
    refine ⟨m', ?_, ?_⟩
    · have hpos := List.length_pos_iff.mpr hne
      rw [List.length_append] at hpos
      simp only at hcount
      omega
    · rw [List.append_assoc, List.cons_append, hread, readMantissa_point hd, hread',
        readMantissa_stops hd hstop]

/-- What was read is a mantissa, if there are digits in it. -/
theorem isMantissa_of_readMantissa (hd : Digits digit digit?) {m : Mantissa}
    (hread : readMantissa base digit? false ⟨0, 0, 0⟩ s = (m, t)) (hcount : m.count ≠ 0) :
    ∃ front, s = front ++ t ∧ IsMantissa digit front := by
  obtain ⟨front, rest, rfl, hfront, hrest⟩ := exists_digits digit s
  obtain ⟨m₁, hcount₁, hread₁⟩ := readMantissa_digits base false rest hd hfront ⟨0, 0, 0⟩
  rw [hread₁] at hread
  by_cases hpoint : ∃ rest', rest = 46 :: rest'
  · obtain ⟨rest', rfl⟩ := hpoint
    rw [readMantissa_point hd] at hread
    obtain ⟨back, rest, rfl, hback, hrest⟩ := exists_digits digit rest'
    obtain ⟨m₂, hcount₂, hread₂⟩ := readMantissa_digits base true rest hd hback m₁
    rw [hread₂, readMantissa_stops hd hrest] at hread
    cases hread
    refine ⟨front ++ 46 :: back, by simp, .pointed hfront hback fun hnil => hcount ?_⟩
    obtain ⟨rfl, rfl⟩ := List.append_eq_nil_iff.mp hnil
    simp only [List.length_nil, Nat.add_zero] at hcount₁ hcount₂
    exact hcount₂.trans hcount₁
  · have hstop : Stops digit false rest := by
      intro b rest' h
      refine ⟨(hrest b rest' h).1, ?_⟩
      rintro - rfl
      exact hpoint ⟨rest', h⟩
    rw [readMantissa_stops hd hstop] at hread
    cases hread
    refine ⟨front, rfl, .whole hfront fun hnil => hcount ?_⟩
    rw [hcount₁, hnil]
    rfl

end Mantissa

/-! ## Exponents -/

theorem readNat?_isSome_iff {s : Bytes} :
    (Decimal.readNat? s).isSome ↔ s ≠ [] ∧ ∀ b ∈ s, Byte.isDigit b = true := by
  unfold Decimal.readNat?
  split
  · next h => simpa using h
  · next h => simpa using h

theorem readExponent?_minus (s : Bytes) :
    (readExponent? (45 :: s)).isSome = (Decimal.readNat? s).isSome := by
  simp only [readExponent?, bind_pure_comp, Option.map_eq_map, Option.isSome_map]

theorem readExponent?_plus (s : Bytes) :
    (readExponent? (43 :: s)).isSome = (Decimal.readNat? s).isSome := by
  simp only [readExponent?, Option.isSome_map]

/-- A text of digits has no sign. -/
theorem readExponent?_digits {s : Bytes} (hminus : ∀ rest, s ≠ 45 :: rest)
    (hplus : ∀ rest, s ≠ 43 :: rest) :
    (readExponent? s).isSome = (Decimal.readNat? s).isSome := by
  unfold readExponent?
  split
  · next rest => exact absurd rfl (hminus rest)
  · next rest => exact absurd rfl (hplus rest)
  · rw [Option.isSome_map]

theorem readExponent?_isSome_iff {s : Bytes} : (readExponent? s).isSome ↔
    ∃ sign t, s = sign ++ t ∧ IsSign sign ∧ t ≠ [] ∧ ∀ b ∈ t, Byte.isDigit b = true := by
  constructor
  · intro h
    by_cases hminus : ∃ rest, s = 45 :: rest
    · obtain ⟨rest, rfl⟩ := hminus
      rw [readExponent?_minus, readNat?_isSome_iff] at h
      exact ⟨[45], rest, rfl, .minus, h⟩
    · by_cases hplus : ∃ rest, s = 43 :: rest
      · obtain ⟨rest, rfl⟩ := hplus
        rw [readExponent?_plus, readNat?_isSome_iff] at h
        exact ⟨[43], rest, rfl, .plus, h⟩
      · rw [readExponent?_digits (not_exists.mp hminus) (not_exists.mp hplus),
          readNat?_isSome_iff] at h
        exact ⟨[], s, rfl, .none, h⟩
  · rintro ⟨sign, t, rfl, hsign, ht⟩
    have hread := readNat?_isSome_iff.mpr ht
    cases hsign with
    | plus => exact (readExponent?_plus t).trans hread
    | minus => exact (readExponent?_minus t).trans hread
    | none =>
      refine (readExponent?_digits ?_ ?_).trans hread
      · rintro rest rfl
        exact absurd (ht.2 45 List.mem_cons_self) (by decide)
      · rintro rest rfl
        exact absurd (ht.2 43 List.mem_cons_self) (by decide)

theorem exponentPart?_isSome_iff {letter : UInt8} {s : Bytes} :
    (exponentPart? letter s).isSome ↔ IsExponent letter s := by
  cases s with
  | nil => exact ⟨fun _ => .none, fun _ => rfl⟩
  | cons b rest =>
    rw [exponentPart?]
    constructor
    · intro h
      split at h
      · next hb =>
        obtain ⟨sign, t, rfl, hsign, hne, ht⟩ := readExponent?_isSome_iff.mp h
        exact .some hb hsign ht hne
      · cases h
    · rintro (_ | ⟨hb, hsign, ht, hne⟩)
      rw [if_pos hb]
      exact readExponent?_isSome_iff.mpr ⟨_, _, rfl, hsign, hne, ht⟩

/-! ## Numbers -/

/-- A byte with a given upper-case form is that letter in one of the cases. -/
theorem eq_of_toUpper {b c : UInt8} (h : Byte.toUpper b = c) : b = c ∨ b = c + 32 := by
  unfold Byte.toUpper at h
  split at h
  · right
    rw [← h, UInt8.sub_add_cancel]
  · exact .inl h

theorem not_digit_of_toUpper (b : UInt8) (h : Byte.toUpper b = 69) :
    Byte.isDigit b = false ∧ b ≠ 46 := by
  rcases eq_of_toUpper h with rfl | rfl
  · decide
  · decide

theorem not_hexDigit_of_toUpper (b : UInt8) (h : Byte.toUpper b = 80) :
    isHexDigit b = false ∧ b ≠ 46 := by
  rcases eq_of_toUpper h with rfl | rfl
  · decide
  · decide

section Number
variable {digit : UInt8 → Bool} {digit? : UInt8 → Option Nat} {base : Nat} {letter : UInt8}
  {s t : Bytes}

/-- The letter of an exponent ends the digits before it. -/
theorem stops_of_isExponent (hletter : ∀ b, Byte.toUpper b = letter → digit b = false ∧ b ≠ 46)
    (ht : IsExponent letter t) : Stops digit false t := by
  rintro b rest rfl
  obtain _ | ⟨hb, -, -, -⟩ := ht
  exact ⟨(hletter b hb).1, fun _ => (hletter b hb).2⟩

/-- Digits and an exponent, and nothing else. -/
theorem exponent_after_mantissa_iff (base : Nat) (hd : Digits digit digit?)
    (hletter : ∀ b, Byte.toUpper b = letter → digit b = false ∧ b ≠ 46) :
    ((readMantissa base digit? false ⟨0, 0, 0⟩ s).1.count ≠ 0 ∧
      (exponentPart? letter (readMantissa base digit? false ⟨0, 0, 0⟩ s).2).isSome) ↔
      ∃ m e, s = m ++ e ∧ IsMantissa digit m ∧ IsExponent letter e := by
  constructor
  · rintro ⟨hcount, he⟩
    obtain ⟨m, hs, hm⟩ := isMantissa_of_readMantissa hd
      (Prod.eta (readMantissa base digit? false ⟨0, 0, 0⟩ s)).symm hcount
    exact ⟨m, _, hs, hm, exponentPart?_isSome_iff.mp he⟩
  · rintro ⟨m, e, rfl, hm, he⟩
    obtain ⟨m', hcount, hread⟩ := readMantissa_of_isMantissa base hd hm
      (stops_of_isExponent hletter he)
    rw [hread]
    exact ⟨hcount, exponentPart?_isSome_iff.mpr he⟩

theorem decimal?_isSome_iff {negative : Bool} : (decimal? negative s).isSome ↔
    ∃ m e, s = m ++ e ∧ IsMantissa Byte.isDigit m ∧ IsExponent 69 e := by
  rw [← exponent_after_mantissa_iff 10 digits_decimal not_digit_of_toUpper]
  unfold decimal?
  by_cases hcount : (readMantissa 10 decimalValue? false ⟨0, 0, 0⟩ s).1.count = 0
  · simp [hcount]
  · simp only [hcount, if_false, ne_eq, not_false_eq_true, true_and]
    cases exponentPart? 69 (readMantissa 10 decimalValue? false ⟨0, 0, 0⟩ s).2 <;> rfl

theorem hexadecimal?_isSome_iff {negative : Bool} : (hexadecimal? negative s).isSome ↔
    ∃ m e, s = m ++ e ∧ IsMantissa isHexDigit m ∧ IsExponent 80 e := by
  rw [← exponent_after_mantissa_iff 16 digits_hexadecimal not_hexDigit_of_toUpper]
  unfold hexadecimal?
  by_cases hcount : (readMantissa 16 hexValue? false ⟨0, 0, 0⟩ s).1.count = 0
  · simp [hcount]
  · simp only [hcount, if_false, ne_eq, not_false_eq_true, true_and]
    cases exponentPart? 80 (readMantissa 16 hexValue? false ⟨0, 0, 0⟩ s).2 <;> rfl

end Number

/-! ## Names -/

section Names
variable {s stem rest m e : Bytes} {b : UInt8}

theorem toUpper_startsWith_iff : s.toUpper.startsWith stem = true ↔
    ∃ front rest, s = front ++ rest ∧ front.toUpper = stem := by
  unfold Bytes.startsWith
  rw [List.isPrefixOf_iff_prefix]
  constructor
  · rintro ⟨t, ht⟩
    obtain ⟨front, rest, hs, hfront, -⟩ := List.map_eq_append_iff.mp ht.symm
    exact ⟨front, rest, hs, hfront⟩
  · rintro ⟨front, rest, rfl, rfl⟩
    exact ⟨rest.toUpper, List.map_append.symm⟩

/-- A byte of a decimal number is no letter of a name, nor that of a hexadecimal number. -/
structure Unnamed (b : UInt8) : Prop where
  i : Byte.toUpper b ≠ 73
  n : Byte.toUpper b ≠ 78
  x : Byte.toUpper b ≠ 88

theorem unnamed_of_isDigit (hb : Byte.isDigit b = true) : Unnamed b := by
  have hne {c : UInt8} (hc : Byte.isDigit c = false) (hc' : Byte.isDigit (c + 32) = false) :
      Byte.toUpper b ≠ c := by
    intro h
    rcases eq_of_toUpper h with rfl | rfl
    · rw [hb] at hc
      cases hc
    · rw [hb] at hc'
      cases hc'
  exact ⟨hne (by decide) (by decide), hne (by decide) (by decide), hne (by decide) (by decide)⟩

theorem unnamed_of_isMantissa (hm : IsMantissa Byte.isDigit m) : ∀ b ∈ m, Unnamed b := by
  intro b hb
  cases hm with
  | whole hs hne => exact unnamed_of_isDigit (hs b hb)
  | pointed hs ht hne =>
    rcases List.mem_append.mp hb with hb | hb
    · exact unnamed_of_isDigit (hs b hb)
    · rcases List.mem_cons.mp hb with rfl | hb
      · exact ⟨by decide, by decide, by decide⟩
      · exact unnamed_of_isDigit (ht b hb)

theorem unnamed_of_isExponent (he : IsExponent 69 e) : ∀ b ∈ e, Unnamed b := by
  intro b hb
  obtain _ | ⟨hletter, hsign, hs, -⟩ := he
  · cases hb
  · rcases List.mem_cons.mp hb with rfl | hb
    · rcases eq_of_toUpper hletter with rfl | rfl
      · exact ⟨by decide, by decide, by decide⟩
      · exact ⟨by decide, by decide, by decide⟩
    · rcases List.mem_append.mp hb with hb | hb
      · cases hsign with
        | none => cases hb
        | plus | minus =>
          rw [List.mem_singleton.mp hb]
          exact ⟨by decide, by decide, by decide⟩
      · exact unnamed_of_isDigit (hs b hb)

theorem unnamed_of_decimal (hm : IsMantissa Byte.isDigit m) (he : IsExponent 69 e) :
    ∀ b ∈ m ++ e, Unnamed b := by
  intro b hb
  rcases List.mem_append.mp hb with hb | hb
  · exact unnamed_of_isMantissa hm b hb
  · exact unnamed_of_isExponent he b hb

theorem isNanTail_iff : isNanTail s = true ↔ s = [] ∨
    ∃ t, s = 40 :: (t ++ [41]) ∧ ∀ b ∈ t, Byte.isAlphanumeric b = true ∨ b = 95 := by
  unfold isNanTail
  split
  · simp
  · next rest =>
    simp only [Bool.and_eq_true, beq_iff_eq, List.all_eq_true, Bool.or_eq_true]
    constructor
    · rintro ⟨hlast, hall⟩
      obtain ⟨t, rfl⟩ := List.getLast?_eq_some_iff.mp hlast
      rw [List.dropLast_concat] at hall
      exact .inr ⟨t, rfl, hall⟩
    · rintro (h | ⟨t, h, hall⟩)
      · cases h
      · cases h
        simpa using hall
  · next hnil hopen =>
    constructor
    · nofun
    · rintro (rfl | ⟨t, rfl, -⟩)
      · exact absurd rfl hnil
      · exact absurd rfl (hopen _)

/-- The first letters of a text, in either case. -/
theorem drop_of_toUpper {front : Bytes} (h : front.toUpper = stem) :
    (front ++ rest).drop stem.length = rest := by
  have hlength : front.length = stem.length := by
    rw [← h, Bytes.toUpper, List.length_map]
  rw [← hlength, List.drop_left]

theorem not_startsWith {c : UInt8} (h : ∀ b ∈ s, Byte.toUpper b ≠ c) (hc : c ∈ stem) :
    s.toUpper.startsWith stem = false := by
  rw [Bool.eq_false_iff]
  intro hstart
  obtain ⟨front, rest, rfl, rfl⟩ := toUpper_startsWith_iff.mp hstart
  obtain ⟨b, hb, hupper⟩ := List.mem_map.mp hc
  exact h b (List.mem_append_left _ hb) hupper

theorem isUnsigned_of_nan (h : s.toUpper.startsWith (ascii "NAN") = true)
    (htail : isNanTail (s.drop 3) = true) : IsUnsigned s := by
  obtain ⟨front, rest, rfl, hfront⟩ := toUpper_startsWith_iff.mp h
  have hdrop : (front ++ rest).drop 3 = rest := drop_of_toUpper hfront
  rw [hdrop] at htail
  rcases isNanTail_iff.mp htail with rfl | ⟨t, rfl, ht⟩
  · rw [List.append_nil]
    exact .nan hfront
  · exact .nanOf hfront ht

theorem isUnsigned_of_hexadecimal {negative : Bool}
    (h : s.toUpper.startsWith (ascii "0X") = true)
    (hread : (hexadecimal? negative (s.drop 2)).isSome) : IsUnsigned s := by
  obtain ⟨front, rest, rfl, hfront⟩ := toUpper_startsWith_iff.mp h
  have hdrop : (front ++ rest).drop 2 = rest := drop_of_toUpper hfront
  rw [hdrop] at hread
  obtain ⟨m, e, rfl, hm, he⟩ := hexadecimal?_isSome_iff.mp hread
  obtain ⟨zero, front', rfl, hzero, hfront'⟩ := List.map_eq_cons_iff.mp hfront
  obtain ⟨x, front'', rfl, hx, hnil⟩ := List.map_eq_cons_iff.mp hfront'
  obtain rfl := List.map_eq_nil_iff.mp hnil
  have hzero : zero = 48 := by
    rcases eq_of_toUpper hzero with rfl | rfl
    · rfl
    · exact absurd hzero (by decide)
  rw [hzero]
  show IsUnsigned (48 :: x :: (m ++ e))
  exact .hexadecimal hx hm he

section Choice
variable {negative : Bool}

/-- A text that starts so is no infinity. -/
theorem not_infinity {stem : Bytes} (hs : s.toUpper.startsWith stem = true)
    (hinf : (ascii "INF").startsWith stem = false)
    (hinfinity : (ascii "INFINITY").startsWith stem = false) :
    ¬ (s.toUpper = ascii "INF" ∨ s.toUpper = ascii "INFINITY") := by
  rintro (h | h)
  · rw [h, hinf] at hs
    cases hs
  · rw [h, hinfinity] at hs
    cases hs

theorem unsigned?_of_nan (h : s.toUpper.startsWith (ascii "NAN") = true) :
    (unsigned? negative s).isSome = isNanTail (s.drop 3) := by
  unfold unsigned?
  simp only
  rw [if_neg (not_infinity h (by decide) (by decide)), if_pos h]
  cases isNanTail (s.drop 3) <;> rfl

theorem unsigned?_of_hexadecimal (h : s.toUpper.startsWith (ascii "0X") = true) :
    unsigned? negative s = hexadecimal? negative (s.drop 2) := by
  have hnan : s.toUpper.startsWith (ascii "NAN") ≠ true := by
    obtain ⟨front, rest, rfl, hfront⟩ := toUpper_startsWith_iff.mp h
    have hupper : (front ++ rest).toUpper = ascii "0X" ++ rest.toUpper := by
      rw [← hfront]
      exact List.map_append
    rw [hupper]
    simp [Bytes.startsWith, ascii, List.isPrefixOf]
  unfold unsigned?
  simp only
  rw [if_neg (not_infinity h (by decide) (by decide)), if_neg hnan, if_pos h]

theorem unsigned?_of_unnamed (h : ∀ b ∈ s, Unnamed b) :
    unsigned? negative s = decimal? negative s := by
  have hinf : ¬ (s.toUpper = ascii "INF" ∨ s.toUpper = ascii "INFINITY") := by
    have hmem : 73 ∉ s.toUpper := by
      intro hmem
      obtain ⟨b, hb, hupper⟩ := List.mem_map.mp hmem
      exact (h b hb).i hupper
    rintro (h' | h') <;> rw [h'] at hmem <;> exact hmem (by decide)
  have hnan : s.toUpper.startsWith (ascii "NAN") = false :=
    not_startsWith (fun b hb => (h b hb).n) (by decide)
  have hx : s.toUpper.startsWith (ascii "0X") = false :=
    not_startsWith (fun b hb => (h b hb).x) (by decide)
  unfold unsigned?
  simp only
  rw [if_neg hinf, if_neg (by simp [hnan]), if_neg (by simp [hx])]

theorem unsigned?_isSome_iff (negative : Bool) : (unsigned? negative s).isSome ↔ IsUnsigned s := by
  constructor
  · intro h
    by_cases hinf : s.toUpper = ascii "INF" ∨ s.toUpper = ascii "INFINITY"
    · exact .infinity hinf
    · by_cases hnan : s.toUpper.startsWith (ascii "NAN") = true
      · rw [unsigned?_of_nan hnan] at h
        exact isUnsigned_of_nan hnan h
      · by_cases hx : s.toUpper.startsWith (ascii "0X") = true
        · rw [unsigned?_of_hexadecimal hx] at h
          exact isUnsigned_of_hexadecimal hx h
        · unfold unsigned? at h
          simp only at h
          rw [if_neg hinf, if_neg hnan, if_neg hx] at h
          obtain ⟨m, e, rfl, hm, he⟩ := decimal?_isSome_iff.mp h
          exact .decimal hm he
  · intro h
    cases h with
    | infinity hs =>
      unfold unsigned?
      simp only
      rw [if_pos hs]
      rfl
    | nan hs =>
      have hdrop : (s ++ []).drop 3 = [] := drop_of_toUpper hs
      rw [List.append_nil] at hdrop
      rw [unsigned?_of_nan (by rw [hs]; decide)]
      exact isNanTail_iff.mpr (.inl hdrop)
    | nanOf hs ht =>
      rw [unsigned?_of_nan (toUpper_startsWith_iff.mpr ⟨_, _, rfl, hs⟩)]
      exact isNanTail_iff.mpr (.inr ⟨_, drop_of_toUpper hs, ht⟩)
    | @hexadecimal x m e hx hm he =>
      have hfront : Bytes.toUpper [48, x] = ascii "0X" := by
        show [_, Byte.toUpper x] = _
        rw [hx]
        decide
      have hstart : (Bytes.toUpper (48 :: x :: (m ++ e))).startsWith (ascii "0X") = true :=
        toUpper_startsWith_iff.mpr ⟨[48, x], m ++ e, rfl, hfront⟩
      rw [unsigned?_of_hexadecimal hstart]
      exact hexadecimal?_isSome_iff.mpr ⟨m, e, rfl, hm, he⟩
    | decimal hm he =>
      rw [unsigned?_of_unnamed (unnamed_of_decimal hm he)]
      exact decimal?_isSome_iff.mpr ⟨_, _, rfl, hm, he⟩

end Choice

end Names

/-! ## Signs and blanks -/

section Whole
variable {s : Bytes}

/-- What a number starts with is neither a blank nor a sign. -/
structure Begins (s : Bytes) : Prop where
  begins : ∃ b rest, s = b :: rest ∧ Byte.isBlank b = false ∧ b ≠ 43 ∧ b ≠ 45

theorem Begins.of_digit {b : UInt8} {rest : Bytes} (hb : Byte.isDigit b = true) :
    Begins (b :: rest) := by
  have hne {c : UInt8} (hc : Byte.isDigit c = false) : b ≠ c := by
    rintro rfl
    rw [hb] at hc
    cases hc
  refine ⟨b, rest, rfl, ?_, hne (by decide), hne (by decide)⟩
  simp only [Byte.isDigit, Byte.isBlank, Bool.and_eq_true, decide_eq_true_eq, Bool.or_eq_false_iff,
    Bool.and_eq_false_iff, decide_eq_false_iff_not, beq_eq_false_iff_ne, UInt8.le_iff_toNat_le,
    UInt8.reduceToNat] at hb ⊢
  refine ⟨hne (by decide), ?_⟩
  omega

theorem Begins.of_mantissa {m e : Bytes} (hm : IsMantissa Byte.isDigit m) : Begins (m ++ e) := by
  cases hm with
  | whole hs hne =>
    obtain ⟨b, rest, rfl⟩ := List.exists_cons_of_ne_nil hne
    exact .of_digit (hs b List.mem_cons_self)
  | @pointed s t hs ht hne =>
    cases s with
    | nil => exact ⟨46, _, rfl, by decide, by decide, by decide⟩
    | cons b rest => exact .of_digit (hs b List.mem_cons_self)

/-- A text that starts with a letter, in either case. -/
theorem Begins.of_letter {stem : Bytes} {c : UInt8} {t : Bytes} (h : s.toUpper = c :: stem)
    (hc : c = 73 ∨ c = 78) : Begins (s ++ t) := by
  obtain ⟨b, rest, rfl, hb, -⟩ := List.map_eq_cons_iff.mp h
  refine ⟨b, rest ++ t, rfl, ?_⟩
  rcases hc with rfl | rfl
  · rcases eq_of_toUpper hb with rfl | rfl
    · decide
    · decide
  · rcases eq_of_toUpper hb with rfl | rfl
    · decide
    · decide

theorem begins_of_isUnsigned (hs : IsUnsigned s) : Begins s := by
  cases hs with
  | decimal hm he => exact .of_mantissa hm
  | hexadecimal hx hm he => exact .of_digit (by decide)
  | infinity hs =>
    rw [← List.append_nil s]
    rcases hs with hs | hs
    · exact .of_letter hs (.inl rfl)
    · exact .of_letter hs (.inl rfl)
  | nan hs =>
    rw [← List.append_nil s]
    exact .of_letter hs (.inr rfl)
  | nanOf hs ht => exact .of_letter hs (.inr rfl)

/-- Blanks at the front are passed over. -/
theorem trimLeft_blanks {blanks : Bytes} (hblanks : ∀ b ∈ blanks, Byte.isBlank b = true)
    (hs : ∀ b rest, s = b :: rest → Byte.isBlank b = false) : (blanks ++ s).trimLeft = s := by
  refine Bytes.dropWhile_blanks hblanks fun b hb => ?_
  obtain ⟨rest, rfl⟩ := List.head?_eq_some_iff.mp hb
  exact hs b rest rfl

/-- A number without a sign. -/
theorem read?_of_begins (hs : Begins s.trimLeft) : read? s = unsigned? false s.trimLeft := by
  obtain ⟨b, rest, hb, -, hplus, hminus⟩ := hs.begins
  unfold read?
  rw [hb]
  split
  · next heq => exact absurd (List.cons.inj heq).1 hminus
  · next heq => exact absurd (List.cons.inj heq).1 hplus
  · rfl

/-- **A text is read just if it is a numeral, as a whole.** -/
theorem read?_isSome_iff (s : Bytes) : (read? s).isSome ↔ IsNumeral s := by
  constructor
  · intro h
    have hblanks : ∀ b ∈ s.takeWhile Byte.isBlank, Byte.isBlank b = true :=
      fun b hb => List.mem_takeWhile_imp hb
    have hsplit : s = s.takeWhile Byte.isBlank ++ s.trimLeft :=
      List.takeWhile_append_dropWhile.symm
    rw [hsplit]
    unfold read? at h
    split at h
    · next rest heq =>
      rw [heq, ← List.singleton_append, ← List.append_assoc]
      exact .of hblanks .minus ((unsigned?_isSome_iff _).mp h)
    · next rest heq =>
      rw [heq, ← List.singleton_append, ← List.append_assoc]
      exact .of hblanks .plus ((unsigned?_isSome_iff _).mp h)
    · rw [← List.append_nil (s.takeWhile Byte.isBlank)]
      exact .of hblanks .none ((unsigned?_isSome_iff _).mp h)
  · rintro ⟨hblanks, hsign, hs⟩
    have hread (negative : Bool) := (unsigned?_isSome_iff negative).mpr hs
    rw [List.append_assoc]
    cases hsign with
    | none =>
      have hbegins := begins_of_isUnsigned hs
      obtain ⟨b, rest, rfl, hb, -⟩ := hbegins.begins
      have htrim := trimLeft_blanks (s := b :: rest) hblanks fun c t h => by cases h; exact hb
      rw [List.nil_append, read?_of_begins (by rw [htrim]; exact hbegins), htrim]
      exact hread _
    | plus | minus =>
      unfold read?
      rw [trimLeft_blanks hblanks fun c t h => by cases h; decide]
      exact hread _

/-- The empty text is no numeral. -/
theorem not_isNumeral_nil : ¬ IsNumeral [] := by
  rw [← read?_isSome_iff]
  decide

end Whole

end Coordinator.Config.Numeral

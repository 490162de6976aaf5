import Coordinator.Retry.Policy
import Mathlib.Data.Int.ConditionallyCompleteOrder
import Mathlib.Tactic.Linarith

/-! # Delays in exact arithmetic

A policy computes its delays in 64-bit words.  `Policy.due` is what they are meant to be: nothing
where nothing is to be waited for, and else the first delay, doubled from retry to retry, and never
beyond the cap.

A delay is doubled only below the cap, so a doubling leaves the words only where the cap is above
half of what a word can hold, and a delay comes to lie between that half and the cap
(`Policy.Overflows`).  For policies in order, **the delays are what they are meant to be exactly if
none does** (`Policy.exact_iff`); else they are so up to the retry that the doubling is for, and the
delay of that one is negative. -/
namespace Coordinator.Retry.Policy

variable {p : Policy} {cap d : Int64} {n : Nat} {retry : UInt32}

/-! ## Exact delays -/

/-- The delay before a retry, in milliseconds; the first retry is number 1. -/
def delay (p : Policy) (retry : Nat) : Int :=
  min (p.baseBackoff.toInt * 2 ^ (retry - 1)) p.maxBackoff.toInt

theorem delay_le (p : Policy) (retry : Nat) : p.delay retry ≤ p.maxBackoff.toInt := min_le_right _ _

/-- From retry to retry the delays do not get shorter. -/
theorem delay_mono (hbase : 0 ≤ p.baseBackoff.toInt) : Monotone p.delay := by
  intro i j hij
  have hpow : (2 : Int) ^ (i - 1) ≤ 2 ^ (j - 1) :=
    pow_le_pow_right₀ (by decide) (Nat.sub_le_sub_right hij 1)
  exact min_le_min_right _ (mul_le_mul_of_nonneg_left hpow hbase)

/-- The delay before a retry, where there may be nothing to wait for: before the first attempt, or
without a first delay. -/
def due (p : Policy) (retry : Nat) : Int :=
  if retry = 0 ∨ p.baseBackoff.toInt ≤ 0 then 0 else p.delay retry

theorem due_nonneg (hle : p.baseBackoff.toInt ≤ p.maxBackoff.toInt) (retry : Nat) :
    0 ≤ p.due retry := by
  unfold due
  split
  · exact le_rfl
  · next h =>
    obtain ⟨-, hbase⟩ := not_or.mp h
    have hpow : (0 : Int) < 2 ^ (retry - 1) := by positivity
    exact le_min (mul_nonneg (by omega) hpow.le) (by omega)

theorem due_mono (hle : p.baseBackoff.toInt ≤ p.maxBackoff.toInt) : Monotone p.due := by
  intro i j hij
  by_cases hi : i = 0 ∨ p.baseBackoff.toInt ≤ 0
  · have hzero : p.due i = 0 := if_pos hi
    rw [hzero]
    exact due_nonneg hle j
  · have hj : ¬ (j = 0 ∨ p.baseBackoff.toInt ≤ 0) := by omega
    rw [due, due, if_neg hi, if_neg hj]
    exact delay_mono (by omega) hij

/-! ## Words -/

theorem toInt_min (a b : Int64) : (min a b).toInt = min a.toInt b.toInt := by
  show (if a ≤ b then a else b).toInt = _
  by_cases h : a ≤ b
  · rw [if_pos h, min_eq_left (Int64.le_iff_toInt_le.mp h)]
  · rw [if_neg h, min_eq_right (Int.le_of_lt (Int.not_le.mp (mt Int64.le_iff_toInt_le.mpr h)))]

theorem toInt_double (d : Int64) : (d * 2).toInt = (d.toInt * 2).bmod (2 ^ 64) := Int64.toInt_mul d 2

/-- What is not negative and below half of what a word can hold can be doubled. -/
theorem toInt_double_of_lt (hd : 0 ≤ d.toInt) (hlt : d.toInt * 2 < 2 ^ 63) :
    (d * 2).toInt = d.toInt * 2 := by
  rw [toInt_double]
  exact Int.bmod_eq_of_le (by omega) (by omega)

/-! ## Doubling below a cap -/

theorem doubled_of_le (h : cap ≤ d) : doubled cap n d = d := by
  cases n with
  | zero => rfl
  | succ n => rw [doubled, if_neg (Int64.not_lt.mpr h)]

theorem doubled_of_lt (h : d < cap) : doubled cap (n + 1) d = doubled cap n (d * 2) := by
  rw [doubled, if_pos h]

/-- Doublings can be made in two goes. -/
theorem doubled_add (cap d : Int64) (m n : Nat) :
    doubled cap (m + n) d = doubled cap n (doubled cap m d) := by
  induction m generalizing d with
  | zero => rw [Nat.zero_add, doubled]
  | succ m ih =>
    by_cases h : d < cap
    · rw [Nat.add_right_comm, doubled_of_lt h, doubled_of_lt h, ih]
    · have hle : cap ≤ d := Int64.not_lt.mp h
      rw [doubled_of_le hle, doubled_of_le hle, doubled_of_le hle]

/-- The cap is reached, or each doubling has shifted the word. -/
theorem doubled_cases (cap d : Int64) (n : Nat) :
    cap ≤ doubled cap n d ∨ (doubled cap n d).toInt = (d.toInt * 2 ^ n).bmod (2 ^ 64) := by
  induction n generalizing d with
  | zero =>
    right
    rw [doubled, pow_zero, mul_one]
    exact d.toInt_bmod.symm
  | succ n ih =>
    by_cases h : d < cap
    · rw [doubled_of_lt h]
      refine (ih (d * 2)).imp_right fun hshift => ?_
      rw [hshift, toInt_double, Int.bmod_mul_bmod, mul_assoc, ← pow_succ']
    · left
      have hle : cap ≤ d := Int64.not_lt.mp h
      rwa [doubled_of_le hle]

theorem doubled_zero (cap : Int64) (n : Nat) : doubled cap n 0 = 0 := by
  induction n with
  | zero => rfl
  | succ n ih =>
    rw [doubled]
    split
    · exact ih
    · rfl

/-- Whatever comes after 64 doublings changes nothing. -/
theorem doubled_settled (cap d : Int64) (n : Nat) : doubled cap (64 + n) d = doubled cap 64 d := by
  rw [doubled_add]
  rcases doubled_cases cap d 64 with hle | hshift
  · exact doubled_of_le hle
  · -- Every bit of the word is shifted out.
    have hzero : (d.toInt * 2 ^ 64).bmod (2 ^ 64) = 0 := Int.mul_bmod_left _ _
    have hword : doubled cap 64 d = 0 := Int64.toInt_inj.mp (hshift.trans hzero)
    rw [hword, doubled_zero]

/-- The delay before a retry, without a bound on the doublings. -/
theorem backoff_eq_loop (p : Policy) (retry : UInt32) : p.backoff retry =
    if retry = 0 ∨ p.baseBackoff ≤ 0 then 0
    else min (doubled p.maxBackoff (retry.toNat - 1) p.baseBackoff) p.maxBackoff := by
  have hloop : doubled p.maxBackoff (min (retry.toNat - 1) 64) p.baseBackoff =
      doubled p.maxBackoff (retry.toNat - 1) p.baseBackoff := by
    rcases Nat.le_total (retry.toNat - 1) 64 with h | h
    · rw [Nat.min_eq_left h]
    · obtain ⟨n, hn⟩ := Nat.exists_eq_add_of_le h
      rw [hn, Nat.min_eq_right (Nat.le_add_right 64 n), doubled_settled]
  rw [backoff, hloop]

/-! ## Overflow -/

/-- The delay after `k` doublings is below the cap, and a word cannot hold it doubled. -/
def Overflows (p : Policy) (k : Nat) : Prop :=
  p.baseBackoff.toInt * 2 ^ k < p.maxBackoff.toInt ∧ 2 ^ 63 ≤ p.baseBackoff.toInt * 2 ^ (k + 1)

/-- A cap of at most half of what a word can hold leaves room for every doubling. -/
theorem not_overflows_of_le (hcap : p.maxBackoff.toInt ≤ 2 ^ 62) (k : Nat) : ¬ p.Overflows k := by
  rintro ⟨hlt, hge⟩
  rw [pow_succ (2 : Int) k, ← mul_assoc] at hge
  omega

/-- A delay that is doubled below the cap only, and one that is doubled regardless, are one below
the cap, as long as every doubling fits into a word. -/
theorem min_doubled (hd : 0 ≤ d.toInt)
    (hfits : ∀ k < n, d.toInt * 2 ^ k < cap.toInt → d.toInt * 2 ^ (k + 1) < 2 ^ 63) :
    min (doubled cap n d).toInt cap.toInt = min (d.toInt * 2 ^ n) cap.toInt := by
  induction n generalizing d with
  | zero => rw [doubled, pow_zero, mul_one]
  | succ n ih =>
    by_cases hlt : d < cap
    · have hdouble : (d * 2).toInt = d.toInt * 2 := by
        refine toInt_double_of_lt hd ?_
        have := hfits 0 (Nat.succ_pos n)
        rw [pow_zero, mul_one, Nat.zero_add, pow_one] at this
        exact this (Int64.lt_iff_toInt_lt.mp hlt)
      have hshift (k : Nat) : (d * 2).toInt * 2 ^ k = d.toInt * 2 ^ (k + 1) := by
        rw [hdouble, mul_assoc, ← pow_succ']
      have hd' : 0 ≤ (d * 2).toInt := by omega
      rw [doubled_of_lt hlt, ih hd', hshift]
      intro k hk
      rw [hshift, hshift]
      exact hfits (k + 1) (Nat.succ_lt_succ hk)
    · -- The cap is reached, and doubling further would only lead away from it.
      have hle : cap ≤ d := Int64.not_lt.mp hlt
      have hle' : cap.toInt ≤ d.toInt := Int64.le_iff_toInt_le.mp hle
      have hgrow : d.toInt ≤ d.toInt * 2 ^ (n + 1) :=
        le_mul_of_one_le_right hd (one_le_pow₀ (by decide))
      rw [doubled_of_le hle, min_eq_right hle', min_eq_right (hle'.trans hgrow)]

/-- Below the cap, a delay that fits was doubled each time. -/
theorem toInt_doubled_of_lt (hd : 0 ≤ d.toInt)
    (hfits : ∀ k < n, d.toInt * 2 ^ k < cap.toInt → d.toInt * 2 ^ (k + 1) < 2 ^ 63)
    (hlt : (doubled cap n d).toInt < cap.toInt ∨ d.toInt * 2 ^ n < cap.toInt) :
    (doubled cap n d).toInt = d.toInt * 2 ^ n := by
  have hmin := min_doubled hd hfits
  omega

/-- A delay is what it is meant to be if every doubling made for it fits. -/
theorem backoff_eq_due (hfits : ∀ k, k + 1 < retry.toNat → ¬ p.Overflows k) :
    (p.backoff retry).toInt = p.due retry.toNat := by
  have hcond : (retry = 0 ∨ p.baseBackoff ≤ 0) ↔ (retry.toNat = 0 ∨ p.baseBackoff.toInt ≤ 0) := by
    rw [← UInt32.toNat_inj, Int64.le_iff_toInt_le]
    rfl
  rw [backoff_eq_loop, due]
  by_cases h : retry = 0 ∨ p.baseBackoff ≤ 0
  · rw [if_pos h, if_pos (hcond.mp h)]
    rfl
  · obtain ⟨-, hbase⟩ := not_or.mp (mt hcond.mpr h)
    rw [if_neg h, if_neg (mt hcond.mpr h), toInt_min, delay]
    refine min_doubled (by omega) fun k hk hlt => ?_
    exact Int.not_le.mp fun hge => hfits k (by omega) ⟨hlt, hge⟩

/-- The delays of a policy are what they are meant to be. -/
theorem backoff_eq (hbase : 0 ≤ p.baseBackoff.toInt)
    (hle : p.baseBackoff.toInt ≤ p.maxBackoff.toInt) (hcap : p.maxBackoff.toInt ≤ 2 ^ 62)
    (hretry : retry ≠ 0) : (p.backoff retry).toInt = p.delay retry.toNat := by
  rw [backoff_eq_due fun k _ => not_overflows_of_le hcap k, due]
  have hne : retry.toNat ≠ 0 := fun h => hretry (UInt32.toNat_inj.mp h)
  by_cases hzero : p.baseBackoff.toInt ≤ 0
  · have hz : p.baseBackoff.toInt = 0 := le_antisymm hzero hbase
    rw [if_pos (Or.inr hzero), delay, hz, zero_mul, min_eq_left (hz ▸ hle)]
  · rw [if_neg (not_or.mpr ⟨hne, hzero⟩)]

/-! ## The doubling that does not fit -/

section
variable {k j : Nat}

theorem Overflows.half_le (h : p.Overflows k) : 2 ^ 62 ≤ p.baseBackoff.toInt * 2 ^ k := by
  have hge := h.2
  rw [pow_succ (2 : Int) k, ← mul_assoc] at hge
  omega

theorem Overflows.base_pos (h : p.Overflows k) : 0 < p.baseBackoff.toInt := by
  have hhalf := h.half_le
  have hpow : (0 : Int) < 2 ^ k := by positivity
  by_contra hneg
  have hprod := mul_nonpos_of_nonpos_of_nonneg (Int.not_lt.mp hneg) hpow.le
  omega

/-- The delay was doubled fewer than 63 times. -/
theorem Overflows.lt (h : p.Overflows k) : k < 63 := by
  have hcap := p.maxBackoff.toInt_lt
  have hgrow : (2 : Int) ^ k ≤ p.baseBackoff.toInt * 2 ^ k :=
    le_mul_of_one_le_left (by positivity) h.base_pos
  have hpow : (2 : Int) ^ k < 2 ^ 63 := by
    have := h.1
    omega
  exact (pow_lt_pow_iff_right₀ (by decide)).mp hpow

/-- Every doubling before it fits. -/
theorem Overflows.first (h : p.Overflows k) (hj : j < k) : ¬ p.Overflows j := by
  rintro ⟨-, hge⟩
  have hpow : (2 : Int) ^ (j + 1) ≤ 2 ^ k := pow_le_pow_right₀ (by decide) hj
  have hgrow := mul_le_mul_of_nonneg_left hpow h.base_pos.le
  have hcap := p.maxBackoff.toInt_lt
  have hlt := h.1
  omega

/-- The delay that it makes is negative. -/
theorem Overflows.backoff_neg (h : p.Overflows k) : (p.backoff (.ofNat (k + 2))).toInt < 0 := by
  have hbase := h.base_pos
  have hhalf := h.half_le
  obtain ⟨hlt, -⟩ := id h
  have hcap := p.maxBackoff.toInt_lt
  have hbefore : (doubled p.maxBackoff k p.baseBackoff).toInt = p.baseBackoff.toInt * 2 ^ k := by
    refine toInt_doubled_of_lt hbase.le (fun j hj hbelow => ?_) (Or.inr hlt)
    exact Int.not_le.mp fun hover => h.first hj ⟨hbelow, hover⟩
  have hbelow : doubled p.maxBackoff k p.baseBackoff < p.maxBackoff := by
    rw [Int64.lt_iff_toInt_lt, hbefore]
    exact hlt
  have hwrap : (doubled p.maxBackoff (k + 1) p.baseBackoff).toInt < 0 := by
    rw [doubled_add, doubled_of_lt hbelow, doubled, toInt_double, hbefore]
    rw [Int.bmod_def]
    omega
  have hnumber : (UInt32.ofNat (k + 2)).toNat = k + 2 :=
    UInt32.toNat_ofNat_of_lt' (by have := h.lt; show k + 2 < 2 ^ 32; omega)
  have hwait : ¬ (UInt32.ofNat (k + 2) = 0 ∨ p.baseBackoff ≤ 0) := by
    rw [← UInt32.toNat_inj, hnumber, Int64.le_iff_toInt_le]
    rintro (hzero | hle)
    · cases hzero
    · exact absurd hle (Int.not_le.mpr hbase)
  rw [backoff_eq_loop, if_neg hwait, toInt_min, hnumber]
  exact (min_le_left _ _).trans_lt hwrap

end

/-! ## The law of the delays -/

/-- The delays of a policy are what they are meant to be. -/
structure Exact (p : Policy) : Prop where
  due : ∀ retry, (p.backoff retry).toInt = p.due retry.toNat
  nonneg : ∀ retry, 0 ≤ (p.backoff retry).toInt
  mono : ∀ {early late : UInt32}, early ≤ late → p.backoff early ≤ p.backoff late
  /-- No doubling that is made leaves the words. -/
  fits : 0 < p.baseBackoff.toInt → ∀ n, doubled p.maxBackoff n p.baseBackoff < p.maxBackoff →
    (doubled p.maxBackoff n p.baseBackoff * 2).toInt =
      (doubled p.maxBackoff n p.baseBackoff).toInt * 2

theorem Exact.of_fits (hle : p.baseBackoff.toInt ≤ p.maxBackoff.toInt)
    (h : ∀ k, ¬ p.Overflows k) : p.Exact := by
  have hdue (retry : UInt32) : (p.backoff retry).toInt = p.due retry.toNat :=
    backoff_eq_due fun k _ => h k
  refine ⟨hdue, fun retry => ?_, fun {early late} hel => ?_, fun hbase n hlt => ?_⟩
  · rw [hdue]
    exact due_nonneg hle _
  · rw [Int64.le_iff_toInt_le, hdue, hdue]
    exact due_mono hle (UInt32.le_iff_toNat_le.mp hel)
  · have hroom (k : Nat) (hbelow : p.baseBackoff.toInt * 2 ^ k < p.maxBackoff.toInt) :
        p.baseBackoff.toInt * 2 ^ (k + 1) < 2 ^ 63 :=
      Int.not_le.mp fun hover => h k ⟨hbelow, hover⟩
    have hlt' := Int64.lt_iff_toInt_lt.mp hlt
    have hword := toInt_doubled_of_lt hbase.le (fun k _ => hroom k) (Or.inl hlt')
    have hnext := hroom n (hword ▸ hlt')
    rw [pow_succ (2 : Int) n, ← mul_assoc, ← hword] at hnext
    have hnonneg : 0 ≤ p.baseBackoff.toInt * 2 ^ n := mul_nonneg hbase.le (by positivity)
    exact toInt_double_of_lt (hword ▸ hnonneg) hnext

/-- **The delays of a policy in order** are what they are meant to be exactly if every doubling
fits.  If one does not, they are so up to the retry that it is for, whose delay is negative. -/
theorem exact_iff (p : Policy) (hle : p.baseBackoff.toInt ≤ p.maxBackoff.toInt) :
    (p.Exact ↔ ∀ k, ¬ p.Overflows k) ∧ ∀ k, p.Overflows k →
      (∀ retry : UInt32, retry.toNat ≤ k + 1 → (p.backoff retry).toInt = p.due retry.toNat) ∧
        (p.backoff (.ofNat (k + 2))).toInt < 0 := by
  refine ⟨⟨fun hexact k hover => ?_, Exact.of_fits hle⟩, fun k hover => ⟨fun retry hretry => ?_, ?_⟩⟩
  · have hneg := hover.backoff_neg
    have hnonneg := hexact.nonneg (.ofNat (k + 2))
    omega
  · exact backoff_eq_due fun j hj => hover.first (by omega)
  · exact hover.backoff_neg

/-- A policy that waits 5 · 10¹⁸ milliseconds before the first retry, and then as long as a word can
say. -/
def steep : Policy where
  baseBackoff := 5000000000000000000
  maxBackoff := 9223372036854775807

/-- The usual policy has its delays; the steep one has them up to the first retry. -/
theorem exact_usual : ({} : Policy).Exact ∧ (steep.backoff 1).toInt = 5000000000000000000 ∧
    (steep.backoff 2).toInt < 0 := by
  obtain ⟨hfirst, hneg⟩ := (exact_iff steep (by decide)).2 0 ⟨by decide, by decide⟩
  refine ⟨(exact_iff {} (by decide)).1.mpr (not_overflows_of_le (by decide)), ?_, hneg⟩
  rw [hfirst 1 (by decide)]
  rfl

/-- The second retry of the steep policy is due at the cap, and its delay is negative. -/
theorem steep_negative : steep.baseBackoff ≤ steep.maxBackoff ∧
    steep.due 2 = 9223372036854775807 ∧ (steep.backoff 2).toInt = -8446744073709551616 := by
  decide

end Coordinator.Retry.Policy

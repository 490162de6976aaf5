import Coordinator.Config.Validate
import Mathlib.Algebra.Group.Int.Defs
import Mathlib.Algebra.Group.Nat.Defs
import Mathlib.Data.Int.Order.Basic

/-! # Durations in exact arithmetic

A duration stands for a number of nanoseconds (`Duration.nanoseconds`), and its whole milliseconds
are that number divided and cut toward zero (`Duration.milliseconds`).  The conversion counts the
nanoseconds in a word before it divides them, and a word holds some 292 years of them, where the
format of the configuration admits some ten thousand.  So **the conversion is exact for the durations
whose nanoseconds fit into a word, and for no others** (`Duration.exact_and_ordered`); of two that
fit, the longer one has no fewer milliseconds, and the validation compares them as they are. -/
namespace Coordinator.Config

namespace Duration

/-- The length of a duration. -/
def nanoseconds (d : Duration) : Int := d.seconds.toInt * 1000000000 + d.nanos.toInt

/-- The whole milliseconds of a duration, cut toward zero. -/
def milliseconds (d : Duration) : Int := d.nanoseconds.tdiv 1000000

/-- The length of the duration fits into a word. -/
structure Fits (d : Duration) : Prop where
  lower : -2 ^ 63 ≤ d.nanoseconds
  upper : d.nanoseconds < 2 ^ 63

/-- The format of the configuration admits the duration. -/
structure Admitted (d : Duration) : Prop where
  seconds : d.seconds.toInt.natAbs ≤ 315576000000
  nanos : d.nanos.toInt.natAbs < 1000000000

/-- Durations of less than 292 years fit. -/
theorem Fits.of_seconds {d : Duration} (hs : d.seconds.toInt.natAbs < 9223372036)
    (hn : d.nanos.toInt.natAbs < 1000000000) : d.Fits := by
  constructor
  · unfold nanoseconds
    omega
  · unfold nanoseconds
    omega

/-! ## What the conversion computes -/

/-- A number is its millions and less than a million. -/
theorem tdiv_bounds (x : Int) :
    x.tdiv 1000000 * 1000000 < x + 1000000 ∧ x < x.tdiv 1000000 * 1000000 + 1000000 := by
  have hsum := Int.tdiv_mul_add_tmod x 1000000
  have hlt := Int.tmod_lt_of_pos x (b := 1000000) (by decide)
  have hgt := Int.lt_tmod_of_pos x (b := 1000000) (by decide)
  omega

/-- The conversion divides what a word holds of the nanoseconds. -/
theorem toInt_toMilliseconds (d : Duration) :
    d.toMilliseconds.toInt = (d.nanoseconds.bmod (2 ^ 64)).tdiv 1000000 := by
  have hcount : (d.seconds * 1000000000 + d.nanos.toInt64).toInt =
      d.nanoseconds.bmod (2 ^ 64) := by
    rw [Int64.toInt_add, Int64.toInt_mul, Int32.toInt_toInt64, Int.bmod_add_bmod]
    rfl
  have hword : (1000000 : Int64).toInt = 1000000 := rfl
  rw [toMilliseconds, Int64.toInt_div, hcount, hword]
  have hlower : -2 ^ 63 ≤ d.nanoseconds.bmod (2 ^ 64) := Int.le_bmod (by decide)
  have hupper : d.nanoseconds.bmod (2 ^ 64) < 2 ^ 63 := Int.bmod_lt (by decide)
  have hbounds := tdiv_bounds (d.nanoseconds.bmod (2 ^ 64))
  exact Int.bmod_eq_of_le (by omega) (by omega)

theorem toInt_of_fits {d : Duration} (h : d.Fits) : d.toMilliseconds.toInt = d.milliseconds := by
  have hcount : d.nanoseconds.bmod (2 ^ 64) = d.nanoseconds := by
    have hlower := h.lower
    have hupper := h.upper
    exact Int.bmod_eq_of_le (by omega) (by omega)
  rw [toInt_toMilliseconds, hcount, milliseconds]

/-- A count that does not fit is off by a multiple of what a word counts, and so are its
milliseconds, but for one. -/
theorem fits_of_toInt {d : Duration} (h : d.toMilliseconds.toInt = d.milliseconds) : d.Fits := by
  rw [toInt_toMilliseconds, milliseconds] at h
  have hword := tdiv_bounds (d.nanoseconds.bmod (2 ^ 64))
  have hexact := tdiv_bounds d.nanoseconds
  rw [h] at hword
  have hlower : -2 ^ 63 ≤ d.nanoseconds.bmod (2 ^ 64) := Int.le_bmod (by decide)
  have hupper : d.nanoseconds.bmod (2 ^ 64) < 2 ^ 63 := Int.bmod_lt (by decide)
  have hcount : d.nanoseconds.bmod (2 ^ 64) = d.nanoseconds := by
    rw [Int.bmod_def] at hword ⊢
    split at hword <;> omega
  exact ⟨hcount ▸ hlower, hcount ▸ hupper⟩

theorem toInt_eq_iff (d : Duration) : d.toMilliseconds.toInt = d.milliseconds ↔ d.Fits :=
  ⟨fits_of_toInt, toInt_of_fits⟩

/-! ## Order -/

theorem milliseconds_mono {d e : Duration} (h : d.nanoseconds ≤ e.nanoseconds) :
    d.milliseconds ≤ e.milliseconds := Int.tdiv_le_tdiv (by decide) h

theorem milliseconds_nonneg {d : Duration} (h : 0 ≤ d.nanoseconds) : 0 ≤ d.milliseconds :=
  Int.tdiv_nonneg h (by decide)

theorem lt_iff_of_fits {d e : Duration} (hd : d.Fits) (he : e.Fits) :
    d.toMilliseconds < e.toMilliseconds ↔ d.milliseconds < e.milliseconds := by
  rw [Int64.lt_iff_toInt_lt, toInt_of_fits hd, toInt_of_fits he]

end Duration

/-- The validation compares delays that fit as they are. -/
theorem problem?_of_fits {retries : Option UInt32} {base cap : Duration} (hb : base.Fits)
    (hc : cap.Fits) (hbase : base.isNegative = false) (hcap : cap.isNegative = false) :
    RetrySettings.problem? ⟨retries, some base, some cap⟩ =
      if cap.milliseconds < base.milliseconds then some .backoffsCrossed else none := by
  have hnegative : (isNegative (some base) || isNegative (some cap)) = false := by
    show (base.isNegative || cap.isNegative) = false
    rw [hbase, hcap]
    rfl
  simp only [RetrySettings.problem?, hnegative, Bool.false_eq_true, if_false,
    Duration.lt_iff_of_fits hc hb]

namespace Duration

/-- The conversion keeps the order of two durations, and so does the validation of delays. -/
structure Ordered (d e : Duration) : Prop where
  mono : d.nanoseconds ≤ e.nanoseconds → d.toMilliseconds ≤ e.toMilliseconds
  nonneg : 0 ≤ d.nanoseconds → 0 ≤ d.toMilliseconds
  compared : ∀ retries, d.isNegative = false → e.isNegative = false →
    RetrySettings.problem? ⟨retries, some d, some e⟩ =
      if e.milliseconds < d.milliseconds then some .backoffsCrossed else none

theorem Ordered.of_fits {d e : Duration} (hd : d.Fits) (he : e.Fits) : d.Ordered e := by
  constructor
  · intro h
    rw [Int64.le_iff_toInt_le, toInt_of_fits hd, toInt_of_fits he]
    exact milliseconds_mono h
  · intro h
    rw [Int64.le_iff_toInt_le, toInt_of_fits hd]
    exact milliseconds_nonneg h
  · intro retries hd' he'
    exact problem?_of_fits hd he hd' he'

/-- **What the milliseconds of a duration say.**  They are exact for a duration that fits into a
word and for no other, and durations that fit keep their order. -/
theorem exact_and_ordered (d e : Duration) :
    (d.toMilliseconds.toInt = d.milliseconds ↔ d.Fits) ∧ (d.Fits → e.Fits → d.Ordered e) :=
  ⟨toInt_eq_iff d, Ordered.of_fits⟩

/-- A minute and a half, less a nanosecond. -/
def almost : Duration := ⟨89, 999999999⟩

/-- Two centuries fit, and are no shorter than a minute and a half. -/
theorem ordered_centuries : almost.toMilliseconds.toInt = almost.milliseconds ∧
    almost.Ordered ⟨6307200000, 0⟩ :=
  have hshort : almost.Fits := .of_seconds (by decide) (by decide)
  ⟨(exact_and_ordered almost ⟨6307200000, 0⟩).1.mpr hshort,
    (exact_and_ordered almost ⟨6307200000, 0⟩).2 hshort (.of_seconds (by decide) (by decide))⟩

/-- Some 317 years. -/
def long : Duration := { seconds := 10000000000 }

/-- The format admits them, and they become a negative number of milliseconds, so that they pass for
a first delay below a cap of one second. -/
theorem long_negative : long.Admitted ∧ long.milliseconds = 10000000000000 ∧
    long.toMilliseconds.toInt = -8446744073709 ∧
    RetrySettings.problem? ⟨none, some long, some { seconds := 1 }⟩ = none :=
  ⟨⟨by decide, by decide⟩, by decide, by decide, by decide⟩

end Duration
end Coordinator.Config

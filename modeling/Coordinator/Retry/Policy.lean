import Coordinator.Decimal

/-! # Retry policies

A policy says how often a conflicting transaction is run again and how long to wait before.  The
waiting time doubles from retry to retry up to a cap.  Times are whole milliseconds in signed
64-bit words. -/
namespace Coordinator.Retry

/-- How often, and after which delays, a transaction is run again. -/
structure Policy where
  /-- The number of retries after the first attempt. -/
  maxRetries : UInt32 := 3
  /-- The delay before the first retry, in milliseconds. -/
  baseBackoff : Int64 := 100
  /-- The longest delay, in milliseconds. -/
  maxBackoff : Int64 := 5000
deriving DecidableEq, Repr

namespace Policy

/-- A delay doubled at most `n` times, and only while it is below the cap. -/
def doubled (cap : Int64) : Nat → Int64 → Int64
  | 0, delay => delay
  | n + 1, delay => if delay < cap then doubled cap n (delay * 2) else delay

/-- The delay before a retry, the first being number 1.  Doubling a word 64 times shifts out every
bit, so doublings beyond that change nothing and are left out. -/
def backoff (p : Policy) (retry : UInt32) : Int64 :=
  if retry = 0 ∨ p.baseBackoff ≤ 0 then 0
  else min (doubled p.maxBackoff (min (retry.toNat - 1) 64) p.baseBackoff) p.maxBackoff

end Policy
end Coordinator.Retry

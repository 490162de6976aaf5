import Coordinator.Bytes

/-! # Durations

A duration of the configuration is a number of seconds and a number of nanoseconds, each with a
sign of its own. -/
namespace Coordinator.Config

/-- A span of time: seconds and nanoseconds beside them. -/
structure Duration where
  seconds : Int64 := 0
  nanos : Int32 := 0
deriving DecidableEq, Repr

namespace Duration

/-- Whether either part is below zero. -/
def isNegative (d : Duration) : Bool := d.seconds < 0 || d.nanos < 0

/-- Whole milliseconds, cut toward zero.  The span is counted in nanoseconds in a signed 64-bit
word, as clocks count it, so spans beyond some 292 years wrap around. -/
def toMilliseconds (d : Duration) : Int64 :=
  (d.seconds * 1000000000 + d.nanos.toInt64) / 1000000

end Duration
end Coordinator.Config

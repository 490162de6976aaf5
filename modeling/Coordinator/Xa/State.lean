import Coordinator.Bytes

/-! # States of a branch

A branch of a distributed transaction is started, ended, prepared, and then committed or rolled
back.  `State.canMove` is the table of steps the protocol allows; the operations of a participant
check their own preconditions, and the two agree on every session an operation can meet. -/
namespace Coordinator.Xa

/-- Where a branch stands in the two-phase protocol. -/
inductive State
  | idle
  | started
  | ended
  | prepared
  | committed
  | rolledBack
deriving DecidableEq, Repr

namespace State

def name : State → Bytes
  | idle => ascii "idle"
  | started => ascii "started"
  | ended => ascii "ended"
  | prepared => ascii "prepared"
  | committed => ascii "committed"
  | rolledBack => ascii "rolled_back"

/-- A branch in a terminal state never moves again. -/
def isTerminal : State → Bool
  | committed | rolledBack => true
  | _ => false

/-- The steps of the protocol.  Committing an ended branch is the one-phase path.  Whether a
backend accepts a rollback before the prepare is not decided here but by its dialect. -/
def canMove : State → State → Bool
  | idle, started => true
  | started, ended => true
  | ended, prepared => true
  | ended, committed | prepared, committed => true
  | started, rolledBack | ended, rolledBack | prepared, rolledBack => true
  | _, _ => false

/-! ## States by number

Callers that keep a state as a number may hold one that stands for no state. -/

/-- The state with a given number, if there is one. -/
def ofNumber? : Int → Option State
  | 0 => some idle
  | 1 => some started
  | 2 => some ended
  | 3 => some prepared
  | 4 => some committed
  | 5 => some rolledBack
  | _ => none

/-- The name of what a number stands for. -/
def nameOf (s : Option State) : Bytes := (s.map name).getD (ascii "unknown")

/-- The table of steps, extended to numbers without a state: what is not idle and not terminal may
be rolled back, and nothing moves to a state that does not exist. -/
def canMoveBetween : Option State → Option State → Bool
  | some source, some target => canMove source target
  | none, some rolledBack => true
  | _, _ => false

end State
end Coordinator.Xa

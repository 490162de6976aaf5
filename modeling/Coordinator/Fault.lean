import Coordinator.Decimal

/-! # Faults

A `Fault` is how an operation fails: a kind, by which callers decide whether to abort, retry or
escalate, and a text for people.  The domain modules have fault types of their own for the causes
they know; each of those has one rendering as a `Fault`. -/
namespace Coordinator

/-- What a failure means to the caller. -/
inductive Fault.Kind
  /-- The caller drove a session through a step its state does not allow. -/
  | invalidState
  /-- The backend, or the xid, broke the rules of the two-phase protocol. -/
  | protocol
  /-- There is no usable connection to the backend. -/
  | connection
  /-- What was asked for does not exist. -/
  | notFound
  /-- The transaction lost against a concurrent one and may be run again. -/
  | conflict
  /-- The transaction still lost after its last attempt. -/
  | exhausted (attempts : UInt32)
  /-- The backend has no such feature. -/
  | unsupported
  /-- The failure has no remedy the caller could try. -/
  | fatal
  /-- An argument has a value the operation does not accept. -/
  | invalidArgument
  | outOfRange
  | logic
  /-- A failure of the surroundings, such as a file that cannot be read. -/
  | runtime
  /-- Any failure outside the kinds above. -/
  | other
deriving DecidableEq, Repr

/-- A failure: its kind and its text. -/
structure Fault where
  kind : Fault.Kind
  text : Bytes
deriving DecidableEq, Repr

namespace Fault

/-- The text as every reader of the fault sees it: a message ends before its first NUL. -/
def message (f : Fault) : Bytes := f.text.untilNul

/-- A fault whose text joins the given parts. -/
def of (kind : Kind) (parts : List Bytes) : Fault := ⟨kind, parts.flatten⟩

end Fault

section
variable {ε ε' α β : Type} (f : ε → ε')

@[simp] theorem mapError_ok (a : α) : (Except.ok a : Except ε α).mapError f = .ok a := rfl

@[simp] theorem mapError_error (e : ε) :
    (Except.error e : Except ε α).mapError f = .error (f e) := rfl

/-- What is made of a result exists only with the result. -/
theorem ok_of_map {g : α → β} {r : Except ε α} {b : β} (h : r.map g = .ok b) :
    ∃ a, r = .ok a ∧ b = g a := by
  cases r with
  | error e => cases h
  | ok a => exact ⟨a, rfl, (Except.ok.inj h).symm⟩

end

end Coordinator

import Coordinator.Fault

/-! # Drivers by kind

A `Drivers` table maps the kind of a backend to what opens it.  Only the kinds compiled into a
program are in its table; asking for any other kind names those that are there. -/
namespace Coordinator

/-- Openers by kind, sorted by kind, each kind at most once. -/
structure Drivers (α : Type) where
  entries : List (Bytes × α)

namespace Drivers

variable {α : Type}

def empty : Drivers α := ⟨[]⟩

/-- Puts an opener into a sorted list, in place of one for the same kind. -/
def insertSorted (kind : Bytes) (opener : α) : List (Bytes × α) → List (Bytes × α)
  | [] => [(kind, opener)]
  | (k, o) :: rest =>
    if k = kind then (kind, opener) :: rest
    else if kind.le k then (kind, opener) :: (k, o) :: rest
    else (k, o) :: insertSorted kind opener rest

/-- The table with an opener for a kind; registering none is a mistake of the caller. -/
def register (d : Drivers α) (kind : Bytes) (opener : Option α) : Except Fault (Drivers α) :=
  match opener with
  | none => .error (.of .invalidArgument
      [ascii "driver '", kind, ascii "' registered without an opener"])
  | some o => .ok ⟨insertSorted kind o d.entries⟩

def find? (d : Drivers α) (kind : Bytes) : Option α := d.entries.lookup kind

def isRegistered (d : Drivers α) (kind : Bytes) : Bool := (d.find? kind).isSome

/-- The kinds in the table, in order. -/
def kinds (d : Drivers α) : List Bytes := d.entries.map (·.1)

/-- The kinds as they are listed in a message, with a comma before each kind that follows some
text. -/
def listing (d : Drivers α) : Bytes :=
  d.kinds.foldl (fun text kind => if text = [] then kind else text ++ ascii ", " ++ kind) []

/-- The opener for a kind. -/
def opener (d : Drivers α) (kind : Bytes) : Except Fault α :=
  match d.find? kind with
  | some o => .ok o
  | none => .error (.of .unsupported [ascii "backend '", kind,
      ascii "' is not compiled into this build (available: ", d.listing, ascii ")"])

end Drivers
end Coordinator

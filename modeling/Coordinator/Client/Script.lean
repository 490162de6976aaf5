import Coordinator.Bytes

/-! # Scripted servers

A `Script` stands in for a server behind a client library: rules that give the reply to a
statement.  The first rule for a statement answers it, and a rule for one use goes away with it.
A statement without a rule succeeds without rows. -/
namespace Coordinator.Client

/-- The reply to a statement. -/
structure Rule (ρ : Type) where
  sql : Bytes
  /-- Whether the rule answers one statement only. -/
  once : Bool := false
  reply : ρ

/-- Replies by statement. -/
abbrev Script (ρ : Type) := List (Rule ρ)

namespace Script

variable {ρ : Type}

/-- The reply to a statement, and the script after it. -/
def answer (sql : Bytes) : Script ρ → Option ρ × Script ρ
  | [] => (none, [])
  | r :: rest =>
    if r.sql = sql then (some r.reply, if r.once then rest else r :: rest)
    else
      let (reply, rest) := answer sql rest
      (reply, r :: rest)

end Script
end Coordinator.Client

import Coordinator.Proofs.Engine.Protocol
import Coordinator.Proofs.Engine.Run
import Mathlib.Data.List.DropRight

/-! # Histories of an engine

Everything that can happen to an engine is an `Event`: a statement of any text on any connection, a
connection that opens or closes, a failure put in store or taken out, the engine switched on or
off, a prepared branch put in.  A **history** is a list of events, and `after` the engine it leads
to.

**A prepared vote is durable** (`prepared_until_settled`): once a branch is prepared, it stays as it
is through every history, up to a statement that succeeds and settles it.  What settles a branch is
said in terms of the text (`Statement.Settles`): `XA COMMIT` without `ONE PHASE`, or `XA ROLLBACK`,
with a literal of exactly the bytes of the xid.  The proof goes by the rules for branches: no rule
but those two applies to a prepared branch, and no connection owns it. -/
namespace Coordinator.Engine

/-- Something that happens to an engine. -/
inductive Event
  | statement (c : ConnectionId) (sql : Bytes)
  | connect
  | disconnect (c : ConnectionId)
  | inject (f : Injected)
  | clearInjected
  | setAvailable (on : Bool)
  | injectPrepared (xid : Bytes)
deriving DecidableEq, Repr

/-- The engine after an event; a failure of the event counts as well. -/
def Event.apply (e : Engine) : Event → Engine
  | .statement c sql => ((run c sql).run e).2
  | .connect => (Engine.connect.run e).2
  | .disconnect c => e.disconnect c
  | .inject f => e.inject f
  | .clearInjected => e.clearInjected
  | .setAvailable on => e.setAvailable on
  | .injectPrepared xid => e.injectPrepared xid

/-- The engine after a history. -/
def after (e : Engine) (history : List Event) : Engine := history.foldl Event.apply e

theorem branches_connect (e : Engine) : (connect.run e).2.branches = e.branches := by
  show (connect e).2.branches = _
  unfold connect
  split <;> rfl

/-- The branches after a statement: one branch has moved, or none. -/
theorem branches_of_statement (e : Engine) (c : ConnectionId) (sql : Bytes) :
    (∃ verb xid rows, (run c sql).run e = (.ok rows, (Event.statement c sql).apply e) ∧
        Statement.parse sql = .ok (.branch verb xid) ∧
        e.branches.Moves c xid verb ((Event.statement c sql).apply e).branches) ∨
      ((Event.statement c sql).apply e).branches = e.branches := by
  simp only [Event.apply]
  rcases hr : (run c sql).run e with ⟨f | rows, e'⟩
  · obtain ⟨statements, injected, rfl⟩ := run_error hr
    exact Or.inr rfl
  · obtain ⟨-, ⟨verb, xid, hp, hm⟩ | ⟨-, hb⟩⟩ := branches_of_run_ok hr
    · exact Or.inl ⟨verb, xid, rows, rfl, hp, hm⟩
    · exact Or.inr hb

/-! ## Reachable engines -/

theorem detached_apply {e : Engine} (h : e.branches.Detached) (event : Event) :
    (event.apply e).branches.Detached := by
  cases event with
  | statement c sql =>
    rcases branches_of_statement e c sql with ⟨verb, xid, rows, -, -, hm⟩ | hb
    · exact hm.detached h
    · rw [hb]; exact h
  | connect => exact (branches_connect e).symm ▸ h
  | disconnect c => exact h.disconnect
  | inject | clearInjected | setAvailable => exact h
  | injectPrepared xid => exact h.insert fun _ => rfl

/-- In an engine that a history leads to, prepared branches belong to nobody. -/
theorem detached_after {e : Engine} (h : e.branches.Detached) (history : List Event) :
    (e.after history).branches.Detached := by
  induction history generalizing e with
  | nil => exact h
  | cons event history ih => exact ih (detached_apply h event)

/-! ## Statements that settle a prepared branch -/

/-- The text is `XA COMMIT` or `XA ROLLBACK` with a literal of the bytes `x`, followed by blanks at
most. -/
def Statement.Settles (sql x : Bytes) : Prop :=
  ∃ verb text literal rest, (verb = .commit false ∨ verb = .rollback) ∧
    keyword? "XA" (bare sql) = some text ∧ verb? text = some (verb, literal) ∧
    Sql.Literal.read literal.trimLeft = .ok (x, rest) ∧ rest.trimLeft = []

theorem trimLeft_trimLeft (s : Bytes) : s.trimLeft.trimLeft = s.trimLeft :=
  List.dropWhile_idempotent Byte.isBlank s

/-- What follows the xid of a step: nothing but blanks, unless it is `ONE PHASE`. -/
theorem Statement.phase_eq {sql rest rest' : Bytes} {first verb : Verb}
    (h : phase sql first rest = .ok (verb, rest')) (hv : verb ≠ .commit true)
    (hr : rest'.trimLeft = []) : first = verb ∧ rest.trimLeft = [] := by
  unfold phase at h
  split at h
  · split at h
    · split at h
      · cases h; exact absurd rfl hv
      · cases h
    · cases h
      rw [trimLeft_trimLeft] at hr
      exact ⟨rfl, hr⟩
  · cases h; exact ⟨rfl, hr⟩

/-- How a text reads as a step other than a commit in one phase. -/
theorem Statement.parse_step {sql x : Bytes} {verb : Verb}
    (h : parse sql = .ok (.branch verb x)) (hv : verb ≠ .commit true) :
    ∃ text literal rest, keyword? "XA" (bare sql) = some text ∧
      verb? text = some (verb, literal) ∧ Sql.Literal.read literal.trimLeft = .ok (x, rest) ∧
      rest.trimLeft = [] := by
  obtain ⟨text, first, literal, rest, rest', htext, hfirst, hread, hphase, hempty⟩ :=
    parse_branch h
  obtain ⟨rfl, hrest⟩ := phase_eq hphase hv hempty
  exact ⟨text, literal, rest, htext, hfirst, hread, hrest⟩

/-- The event is a statement that succeeds and settles the branch of `x`. -/
def Event.Settles (x : Bytes) (e : Engine) (event : Event) : Prop :=
  ∃ c sql rows, event = .statement c sql ∧ (run c sql).run e = (.ok rows, event.apply e) ∧
    Statement.Settles sql x

/-! ## Durability -/

/-- A prepared branch outlives every event that does not settle it. -/
theorem prepared_apply {e : Engine} {x : Bytes} (h : e.branches.get? x = some .detached)
    (event : Event) : (event.apply e).branches.get? x = some .detached ∨ event.Settles x e := by
  cases event with
  | statement c sql =>
    rcases branches_of_statement e c sql with ⟨verb, xid, rows, hr, hp, hm⟩ | hb
    · by_cases hx : x = xid
      · subst hx
        have hsettle := hm.settles_prepared h
        have hv : verb ≠ .commit true := by
          rcases hsettle with rfl | rfl <;> exact fun hv => by cases hv
        obtain ⟨text, literal, rest, htext, hverb, hread, hrest⟩ := Statement.parse_step hp hv
        exact Or.inr ⟨c, sql, rows, rfl, hr, verb, text, literal, rest, hsettle, htext, hverb,
          hread, hrest⟩
      · exact Or.inl ((hm.get?_of_ne hx).trans h)
    · exact Or.inl (hb ▸ h)
  | connect => exact Or.inl ((branches_connect e).symm ▸ h)
  | disconnect c =>
    exact Or.inl (Branches.get?_disconnect_of_kept h
      (by rw [Branch.isOpenOn, Branch.detached]; simp))
  | inject | clearInjected | setAvailable => exact Or.inl h
  | injectPrepared xid =>
    refine Or.inl ?_
    show (e.branches.insert xid .detached).get? x = _
    rw [Table.get?_insert]
    split
    · rfl
    · exact h

/-- **A prepared vote is durable.**  A branch that a history has left prepared is unchanged after
any further history, unless that holds a statement that found the branch as it was, succeeded, and
settles it. -/
theorem prepared_until_settled (version : Bytes) (earlier later : List Event) {x : Bytes}
    {b : Branch} (hx : (({ version } : Engine).after earlier).branches.get? x = some b)
    (hb : b.stage = .prepared) :
    ((({ version } : Engine).after earlier).after later).branches.get? x = some b ∨
      ∃ before event rest, later = before ++ event :: rest ∧
        ((({ version } : Engine).after earlier).after before).branches.get? x = some b ∧
        event.Settles x ((({ version } : Engine).after earlier).after before) := by
  obtain rfl : b = .detached :=
    detached_after (e := { version }) Branches.detached_empty earlier x b hx hb
  generalize (({ version } : Engine).after earlier) = e at hx
  induction later generalizing e with
  | nil => exact Or.inl hx
  | cons event later ih =>
    rcases prepared_apply hx event with hkept | hsettles
    · rcases ih _ hkept with hend | ⟨before, last, rest, rfl, hlast, hs⟩
      · exact Or.inl hend
      · exact Or.inr ⟨event :: before, last, rest, rfl, hlast, hs⟩
    · exact Or.inr ⟨[], event, later, rfl, hx, hsettles⟩

/-- A branch votes. -/
def vote : List Event :=
  [.connect, .statement 1 (ascii "XA START 'a'"), .statement 1 (ascii "XA END 'a'"),
    .statement 1 (ascii "xa prepare 'a' ;")]

/-- The connection of a branch closes, and others try what is not for them. -/
def restart : List Event :=
  [.disconnect 1, .connect, .statement 2 (ascii "XA COMMIT 'a' ONE PHASE"),
    .statement 2 (ascii "XA START 'a'"), .setAvailable false,
    .statement 2 (ascii "XA ROLLBACK 'a'"), .setAvailable true]

theorem vote_outlives_restart :
    ((({ version := [] } : Engine).after vote).after restart).branches.get? (ascii "a") =
        some .detached ∨
      ∃ before event rest, restart = before ++ event :: rest ∧
        ((({ version := [] } : Engine).after vote).after before).branches.get? (ascii "a") =
          some .detached ∧
        event.Settles (ascii "a") ((({ version := [] } : Engine).after vote).after before) :=
  prepared_until_settled [] vote restart (b := .detached) (by decide) rfl

end Coordinator.Engine

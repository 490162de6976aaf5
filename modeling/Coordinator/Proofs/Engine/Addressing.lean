import Coordinator.Proofs.Engine.Acceptance

/-! # The branch that a statement addresses

A protocol statement names one xid, and what it does is a matter of the branch of that xid alone.
`Verb.act` is the protocol for a single branch: from the branch as it is, or its absence, a step
makes the branch afterwards, or it is refused.  No table occurs in it.

**A statement acts on the branch it names** (`addresses_of_writes`): whatever bytes an xid has, a
statement that the MySQL dialect writes for it is read as its step with those bytes, is answered as
`Verb.act` says, and leaves every other branch as it was.  The one thing beyond its branch that a
step asks for is whether the connection of a start has an unprepared branch already; that is no
slip of reading, but the rule that a connection has one branch at a time
(`start_asks_for_other_branches`). -/
namespace Coordinator.Engine

open Xa

variable {c : ConnectionId} {x y sql : Bytes} {verb : Verb} {e e' : Engine} {t : Branches}

/-! ## The protocol for one branch -/

/-- How a step is refused that the stage of its branch does not allow. -/
def Verb.refusal : Verb → Refusal
  | .start => .duplicate
  | .finish => .cannotFinish
  | .prepare => .cannotPrepare
  | .commit _ => .cannotCommit
  | .rollback => .cannotRollBack

/-- What a step makes of a branch: `none` once the branch is settled. -/
def Verb.turn (verb : Verb) (b : Branch) : Except Refusal (Option Branch) :=
  match verb, b.stage with
  | .finish, .active => .ok (some { b with stage := .idle })
  | .prepare, .idle => .ok (some .detached)
  | .commit true, .idle => .ok none
  | .commit false, .prepared => .ok none
  | .rollback, .idle => .ok none
  | .rollback, .prepared => .ok none
  | verb, _ => .error verb.refusal

/-- The branch of an xid after a step of connection `c`, or why the step is refused; `none` where
there is no branch.  An unprepared branch is there for its connection only.  `busy` tells whether
the connection has an unprepared branch, of any xid. -/
def Verb.act (verb : Verb) (c : ConnectionId) (busy : Bool) (b : Option Branch) :
    Except Refusal (Option Branch) :=
  match verb with
  | .start =>
    if busy then .error .connectionBusy
    else if b.isSome then .error .duplicate else .ok (some ⟨.active, c⟩)
  | verb =>
    match b with
    | none => .error .unknown
    | some b => if b.stage = .prepared ∨ b.owner = c then verb.turn b else .error .unknown

namespace Branches

/-- The table in which the branch of an xid is as given, absent or not. -/
def put (t : Branches) (x : Bytes) : Option Branch → Branches
  | none => t.erase x
  | some b => t.insert x b

@[simp] theorem get?_put (t : Branches) (x y : Bytes) (b : Option Branch) :
    (t.put x b).get? y = if y = x then b else t.get? y := by
  cases b with
  | none => exact Table.get?_erase t x y
  | some b => exact Table.get?_insert t x y b

/-- A step on a branch that the connection sees goes by the stage of the branch. -/
theorem perform_of_visible {b : Branch} (hv : verb ≠ .start) (hb : t.visible? c x = some b) :
    t.perform c verb x = (verb.turn b).map (t.put x) := by
  obtain ⟨stage, owner⟩ := b
  cases verb with
  | start => exact absurd rfl hv
  | finish | prepare | rollback =>
    cases stage <;> simp [perform, hb, Verb.turn, Verb.refusal, Except.map, put]
  | commit onePhase =>
    cases onePhase <;> cases stage <;>
      simp [perform, hb, Verb.turn, Verb.refusal, Except.map, put]

/-- A step on a table is the step on the branch it names. -/
theorem perform_eq_act (t : Branches) (c : ConnectionId) (verb : Verb) (x : Bytes) :
    t.perform c verb x = (verb.act c (t.hasOpen c) (t.get? x)).map (t.put x) := by
  have hcontains : t.contains x = (t.get? x).isSome := rfl
  have hvisible : t.visible? c x =
      (t.get? x).filter fun b => b.stage = .prepared ∨ b.owner = c := rfl
  cases verb with
  | start =>
    cases ho : t.hasOpen c <;> cases hx : t.get? x <;>
      simp [perform, Verb.act, ho, hcontains, hx, Except.map, put]
  | finish | prepare | commit | rollback =>
    cases hx : t.get? x with
    | none => simp [perform, Verb.act, hvisible, hx, Except.map]
    | some b =>
      by_cases hs : b.stage = .prepared ∨ b.owner = c
      · have hb : t.visible? c x = some b := by simp [hvisible, hx, Option.filter, hs]
        rw [perform_of_visible (by simp) hb]
        simp only [Verb.act, if_pos hs]
      · have hb : t.visible? c x = none := by simp [hvisible, hx, Option.filter, hs]
        simp [perform, Verb.act, hb, hs, Except.map]

end Branches

/-- A connection without an unprepared branch settles prepared branches and knows no others. -/
theorem act_of_free (hfree : t.hasOpen c = false) (hv : verb = .commit false ∨ verb = .rollback) :
    verb.act c false (t.get? x) =
      if (t.get? x).any (·.stage = .prepared) then .ok none else .error .unknown := by
  cases hx : t.get? x with
  | none => rcases hv with rfl | rfl <;> rfl
  | some b =>
    have hclosed := Branches.hasOpen_eq_false_iff.mp hfree x b hx
    obtain ⟨stage, owner⟩ := b
    by_cases hs : stage = .prepared
    · subst hs
      rcases hv with rfl | rfl <;> simp [Verb.act, Verb.turn]
    · have howner : owner ≠ c := by
        intro ho
        exact Bool.eq_false_iff.mp hclosed (Branches.isOpenOn_iff.mpr ⟨ho, hs⟩)
      rcases hv with rfl | rfl <;> simp [Verb.act, hs, howner]

/-! ## The statements of a dialect -/

/-- The dialect writes `sql` to ask for a step with the branch of `x`.  What it sends before the
rollback of an active branch is the statement that ends the work. -/
inductive Writes (d : Dialect) (x : Bytes) : Verb → Bytes → Prop
  | start {sql : Bytes} (h : d.start x = .ok sql) : Writes d x .start sql
  | finish {sql : Bytes} (h : d.finish x = .ok sql) : Writes d x .finish sql
  | prepare {sql : Bytes} (h : d.prepare x = .ok sql) : Writes d x .prepare sql
  | commit {sql : Bytes} (h : d.commit x = .ok sql) : Writes d x (.commit false) sql
  | commitOnePhase {sql : Bytes} (h : d.commitOnePhase x = .ok sql) :
      Writes d x (.commit true) sql
  | rollback {state : State} {sqls : List Bytes} {sql : Bytes} (h : d.rollback x state = .ok sqls)
      (hlast : sqls.getLast? = some sql) : Writes d x .rollback sql

theorem quoteMysql_of_length (hx : x ≠ []) (hlen : x.length ≤ 64) :
    ∃ q, Xid.quoteMysql x = .ok q := by
  have hempty : x.isEmpty = false := by simp [hx]
  have hlimit : ¬ Xid.mysqlLimit < x.length := by simp [Xid.mysqlLimit, hlen]
  exact ⟨_, by rw [Xid.quoteMysql, hempty, if_neg Bool.false_ne_true, if_neg hlimit]⟩

/-- Only such an xid has a literal. -/
theorem length_of_quoteMysql {q : Bytes} (hq : Xid.quoteMysql x = .ok q) :
    1 ≤ x.length ∧ x.length ≤ 64 := by
  unfold Xid.quoteMysql at hq
  split at hq
  · cases hq
  · next hempty =>
    split at hq
    · cases hq
    · next hlimit =>
      exact ⟨List.length_pos_iff.mpr (by simpa using hempty), Nat.le_of_not_lt hlimit⟩

/-- An xid that has a literal has a statement for each step. -/
theorem exists_writes {q : Bytes} {d : Dialect} (hd : d ≠ .postgres)
    (hq : Xid.quoteMysql x = .ok q) (verb : Verb) : ∃ sql, Writes d x verb sql := by
  cases verb with
  | start => exact ⟨_, .start (by rw [start_eq hd, hq]; rfl)⟩
  | finish => exact ⟨_, .finish (by rw [finish_eq hd, hq]; rfl)⟩
  | prepare => exact ⟨_, .prepare (by rw [prepare_eq hd, hq]; rfl)⟩
  | commit onePhase =>
    cases onePhase with
    | true => exact ⟨_, .commitOnePhase (by rw [commitOnePhase_eq hd, hq]; rfl)⟩
    | false => exact ⟨_, .commit (by rw [commit_eq hd, hq]; rfl)⟩
  | rollback =>
    have hsqls : d.rollback x .prepared = .ok [ascii "XA ROLLBACK " ++ q] := by
      rw [rollback_eq hd, hq]
      rfl
    exact ⟨_, .rollback hsqls rfl⟩

/-- The engine reads a statement of the dialect as its step, with the bytes of the xid. -/
theorem parse_of_writes {d : Dialect} (hd : d ≠ .postgres) (h : Writes d x verb sql) :
    Statement.parse sql = .ok (.branch verb x) := by
  cases h with
  | start h =>
    rw [start_eq hd] at h
    obtain ⟨q, hq, rfl⟩ := ok_of_map h
    exact parse_start hq
  | finish h =>
    rw [finish_eq hd] at h
    obtain ⟨q, hq, rfl⟩ := ok_of_map h
    exact parse_finish hq
  | prepare h =>
    rw [prepare_eq hd] at h
    obtain ⟨q, hq, rfl⟩ := ok_of_map h
    exact parse_prepare hq
  | commit h =>
    rw [commit_eq hd] at h
    obtain ⟨q, hq, rfl⟩ := ok_of_map h
    exact parse_commit hq
  | commitOnePhase h =>
    rw [commitOnePhase_eq hd] at h
    obtain ⟨q, hq, rfl⟩ := ok_of_map h
    exact parse_commitOnePhase hq
  | @rollback state sqls sql h hlast =>
    rw [rollback_eq hd] at h
    cases hq : Xid.quoteMysql x with
    | error f => rw [hq] at h; cases h
    | ok q =>
      rw [hq] at h
      cases h
      rw [List.getLast?_concat] at hlast
      obtain rfl := Option.some.inj hlast
      exact parse_rollback hq

/-! ## What a statement does -/

/-- The answer to a step on the branch of `x`, and the engine afterwards. -/
def outcome (e : Engine) (c : ConnectionId) (sql : Bytes) (verb : Verb) (x : Bytes) :
    Except Fault Sql.Rows × Engine :=
  match verb.act c (e.branches.hasOpen c) (e.branches.get? x) with
  | .ok b => (.ok [], e.stepped sql verb (e.branches.put x b))
  | .error r => (.error r.fault, e.record sql)

theorem run_eq_outcome (ha : e.available = true) (hc : e.Clear sql)
    (hp : Statement.parse sql = .ok (.branch verb x)) :
    (run c sql).run e = e.outcome c sql verb x := by
  have hperform := Branches.perform_eq_act (e.record sql).branches c verb x
  have hbranches : (e.record sql).branches = e.branches := rfl
  rw [run_of_read ha hc hp, perform_branch, hperform, hbranches, outcome]
  cases verb.act c (e.branches.hasOpen c) (e.branches.get? x) <;> rfl

/-- No refusal of a step is a fault of reading. -/
theorem Refusal.fault_ne_syntax (r : Refusal) (f : SyntaxFault) : r.fault ≠ f.fault := by
  have hrefusal : r.fault.text.head? = some 88 := by cases r <;> rfl
  have hsyntax : f.fault.text.head? = some 115 := by
    cases f with
    | near | trailing => rfl
    | literal cause => cases cause <;> rfl
  intro h
  rw [h, hsyntax] at hrefusal
  exact absurd hrefusal (by decide)

/-- The engines look alike to a step on the branch of `x`: the branch is the same, and if the step
is a start, the connection is busy on both or on neither. -/
structure Alike (c : ConnectionId) (verb : Verb) (x : Bytes) (e e' : Engine) : Prop where
  branch : e.branches.get? x = e'.branches.get? x
  busy : verb = .start → e.branches.hasOpen c = e'.branches.hasOpen c

/-- No step but a start asks whether its connection is busy. -/
theorem Verb.act_congr {b : Option Branch} {busy busy' : Bool}
    (h : verb = .start → busy = busy') : verb.act c busy b = verb.act c busy' b := by
  cases verb with
  | start => rw [h rfl]
  | finish | prepare | commit | rollback => cases b <;> rfl

/-- A statement acts on the branch of `x` and on no other: it is answered as the step is on that
branch, never as a text that cannot be read; all other branches stay as they are; and engines that
look alike to the step give one answer and one branch. -/
structure Addresses (c : ConnectionId) (verb : Verb) (x sql : Bytes) : Prop where
  answer : ∀ e : Engine, e.available = true → e.Clear sql →
    (run c sql).run e = e.outcome c sql verb x
  readable : ∀ e : Engine, e.available = true → e.Clear sql →
    ∀ f : SyntaxFault, ((run c sql).run e).1 ≠ .error f.fault
  others : ∀ e : Engine, ∀ y, y ≠ x →
    ((run c sql).run e).2.branches.get? y = e.branches.get? y
  reads : ∀ e e' : Engine, e.available = true → e'.available = true → e.Clear sql →
    e'.Clear sql → Alike c verb x e e' →
      ((run c sql).run e).1 = ((run c sql).run e').1 ∧
        ((run c sql).run e).2.branches.get? x = ((run c sql).run e').2.branches.get? x

theorem outcome_of_alike (h : Alike c verb x e e') :
    (e.outcome c sql verb x).1 = (e'.outcome c sql verb x).1 ∧
      (e.outcome c sql verb x).2.branches.get? x = (e'.outcome c sql verb x).2.branches.get? x := by
  have hact : verb.act c (e.branches.hasOpen c) (e.branches.get? x) =
      verb.act c (e'.branches.hasOpen c) (e'.branches.get? x) := by
    rw [h.branch]
    exact Verb.act_congr h.busy
  unfold outcome
  rw [hact]
  cases verb.act c (e'.branches.hasOpen c) (e'.branches.get? x) with
  | error r => exact ⟨rfl, h.branch⟩
  | ok b => simp [stepped]

/-- A statement that is read as a step acts on the branch that the step names. -/
theorem addresses_of_parse (hp : Statement.parse sql = .ok (.branch verb x)) :
    Addresses c verb x sql where
  answer e ha hc := run_eq_outcome ha hc hp
  readable e ha hc f := by
    rw [run_eq_outcome ha hc hp, outcome]
    cases verb.act c (e.branches.hasOpen c) (e.branches.get? x) with
    | error r => exact fun h => r.fault_ne_syntax f (Except.error.inj h)
    | ok b => exact nofun
  others e y hy := by
    rcases hr : (run c sql).run e with ⟨f | rows, e'⟩
    · obtain ⟨statements, injected, rfl⟩ := run_error hr
      rfl
    · obtain ⟨-, ⟨verb', x', hp', hm⟩ | ⟨-, hb⟩⟩ := branches_of_run_ok hr
      · rw [hp] at hp'
        cases hp'
        exact hm.get?_of_ne hy
      · rw [hb]
  reads e e' ha ha' hc hc' h := by
    rw [run_eq_outcome ha hc hp, run_eq_outcome ha' hc' hp]
    exact outcome_of_alike h

/-- **A statement acts on the branch it names.**  The literal of an xid of 1 to 64 bytes is read
back as these bytes, whatever follows it but a quote; there is a statement for each step, and it
acts on the branch of the xid. -/
theorem addresses_of_writes (hx : x ≠ []) (hlen : x.length ≤ 64) :
    ∃ q, Xid.quoteMysql x = .ok q ∧
      (∀ rest : Bytes, rest.head? ≠ some 39 → Sql.Literal.read (q ++ rest) = .ok (x, rest)) ∧
      ∀ verb, (∃ sql, Writes .mysql x verb sql) ∧
        ∀ sql, Writes .mysql x verb sql → ∀ c, Addresses c verb x sql := by
  obtain ⟨q, hq⟩ := quoteMysql_of_length hx hlen
  refine ⟨q, hq, fun rest hr => read_quoteMysql hq rest hr, fun verb => ⟨?_, ?_⟩⟩
  · exact exists_writes (by decide) hq verb
  · intro sql hw c
    exact addresses_of_parse (parse_of_writes (by decide) hw)

/-- An xid of a quote, a backslash, NUL, a newline and a semicolon. -/
def awkward : Bytes := [39, 92, 0, 10, 59]

/-- An engine with the awkward xid prepared, and a branch of connection 1 under way. -/
def loaded : Engine where
  branches := ((∅ : Branches).insert awkward .detached).insert (ascii "b") ⟨.active, 1⟩

theorem addresses_awkward : ∃ q sql, Xid.quoteMysql awkward = .ok q ∧
    Sql.Literal.read (q ++ ascii "; XA COMMIT 'b'") = .ok (awkward, ascii "; XA COMMIT 'b'") ∧
    Writes .mysql awkward .rollback sql ∧
    (run 1 sql).run loaded = loaded.outcome 1 sql .rollback awkward ∧
    (∀ f : SyntaxFault, ((run 1 sql).run loaded).1 ≠ .error f.fault) ∧
    ((run 1 sql).run loaded).2.branches.get? (ascii "b") = some ⟨.active, 1⟩ ∧
    ((run 1 sql).run loaded).2.branches.get? awkward = none := by
  obtain ⟨q, hq, hread, hverb⟩ := addresses_of_writes (x := awkward) (by decide) (by decide)
  obtain ⟨⟨sql, hw⟩, haddr⟩ := hverb .rollback
  have hrun := (haddr sql hw 1).answer loaded rfl nofun
  have hbranch : (loaded.outcome 1 sql .rollback awkward).2.branches.get? awkward = none := rfl
  refine ⟨q, sql, hq, hread _ (by decide), hw, hrun, ?_, ?_, ?_⟩
  · exact (haddr sql hw 1).readable loaded rfl nofun
  · exact (haddr sql hw 1).others loaded (ascii "b") (by decide)
  · rw [hrun]
    exact hbranch

/-- **A start asks for other branches.**  On a connection that has an unprepared branch of another
xid, the start of a branch is refused; without that other branch it is accepted. -/
theorem start_asks_for_other_branches :
    Writes .mysql (ascii "a") .start (ascii "XA START 'a'") ∧
      loaded.branches.get? (ascii "a") = none ∧
      ((run 1 (ascii "XA START 'a'")).run loaded).1 = .error Refusal.connectionBusy.fault ∧
      ((run 1 (ascii "XA START 'a'")).run (loaded.disconnect 1)).1 = .ok [] ∧
      (∀ y, y ≠ ascii "b" → (loaded.disconnect 1).branches.get? y = loaded.branches.get? y) ∧
      ¬ ∀ e e' : Engine, e.available = true → e'.available = true →
        e.Clear (ascii "XA START 'a'") → e'.Clear (ascii "XA START 'a'") →
        e.branches.get? (ascii "a") = e'.branches.get? (ascii "a") →
        ((run 1 (ascii "XA START 'a'")).run e).1 = ((run 1 (ascii "XA START 'a'")).run e').1 := by
  have hbusy : ((run 1 (ascii "XA START 'a'")).run loaded).1 =
      .error Refusal.connectionBusy.fault := rfl
  have hfree : ((run 1 (ascii "XA START 'a'")).run (loaded.disconnect 1)).1 = .ok [] := rfl
  refine ⟨.start rfl, rfl, hbusy, hfree, ?_, ?_⟩
  · intro y hy
    have hrest : loaded.branches.get? y = if y = awkward then some .detached else none := by
      simp [loaded, hy]
    show (loaded.branches.disconnect 1).get? y = _
    rw [Branches.get?_disconnect, hrest]
    split <;> rfl
  · intro hsame
    have hclear : loaded.Clear (ascii "XA START 'a'") := fun f hf => by cases hf
    have heq := hsame loaded (loaded.disconnect 1) rfl rfl hclear hclear rfl
    rw [hbusy, hfree] at heq
    cases heq

end Coordinator.Engine

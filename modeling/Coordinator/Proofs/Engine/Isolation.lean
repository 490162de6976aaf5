import Coordinator.Proofs.Engine.Acceptance
import Coordinator.Proofs.Engine.History
import Mathlib.Tactic.ByContra

/-! # Statements are atomic and isolated

A statement of any text, on any connection, finds an engine in any state.  **If it fails, no branch
and no count of commits is other than before; if it succeeds, at most one branch is** (`isolated`):
the one named by the literal in the text, and only if it was absent, prepared, or a branch of the
connection.  What other connections have not prepared yet is out of its reach.  Which statements
succeed is said by `Takes`.

A commit is counted exactly if the text says so (`Statement.IsCommit`): after the word `XA` it has
the word `COMMIT`, with or without `ONE PHASE` at its end, or it starts with the word `COMMIT`.  As
no text starts with two words (`keyword?_eq_none`), the order in which words are tried does not
matter. -/
namespace Coordinator.Engine

variable {c : ConnectionId} {sql text rest x y : Bytes} {verb : Verb} {e e' : Engine}

/-! ## The first word of a text -/

theorem head_of_keyword? {word : String} {b : UInt8} (h : keyword? word text = some rest)
    (hword : (ascii word).head? = some b) : text.trimLeft.head?.map Byte.toUpper = some b := by
  simp only [keyword?] at h
  split at h
  · next hstart =>
    have hhead := congrArg List.head? hstart.1
    have hne : word.length ≠ 0 := by
      intro hzero
      rw [hzero, hword] at hhead
      cases hhead
    rw [Bytes.toUpper, List.head?_map, List.head?_take, if_neg hne, hword] at hhead
    exact hhead
  · cases h

/-- A text that starts with a word does not start with one of another initial. -/
theorem keyword?_eq_none {word word' : String} {b b' : UInt8} (h : keyword? word text = some rest)
    (hword : (ascii word).head? = some b) (hword' : (ascii word').head? = some b')
    (hne : b ≠ b') : keyword? word' text = none := by
  cases h' : keyword? word' text with
  | none => rfl
  | some rest' =>
    have heq := (head_of_keyword? h hword).symm.trans (head_of_keyword? h' hword')
    exact absurd (Option.some.inj heq) hne

namespace Statement

/-! ## What a text says -/

/-- The text is a protocol statement with a literal of the bytes `x`. -/
def Names (sql x : Bytes) : Prop :=
  ∃ text verb literal rest, keyword? "XA" (bare sql) = some text ∧
    verb? text = some (verb, literal) ∧ Sql.Literal.read literal.trimLeft = .ok (x, rest)

/-- The text commits: it is an `XA COMMIT`, or no protocol statement and starts with `COMMIT`. -/
def IsCommit (sql : Bytes) : Prop :=
  match keyword? "XA" (bare sql) with
  | some text => (keyword? "COMMIT" text).isSome
  | none => (keyword? "COMMIT" (bare sql)).isSome

instance (sql : Bytes) : Decidable (IsCommit sql) := by
  unfold IsCommit
  split <;> infer_instance

theorem Names.unique (h : Names sql x) (h' : Names sql y) : x = y := by
  obtain ⟨text, verb, literal, rest, htext, hverb, hread⟩ := h
  obtain ⟨text', verb', literal', rest', htext', hverb', hread'⟩ := h'
  obtain rfl := Option.some.inj (htext.symm.trans htext')
  obtain ⟨-, rfl⟩ := Prod.mk.inj (Option.some.inj (hverb.symm.trans hverb'))
  exact (Prod.mk.inj (Except.ok.inj (hread.symm.trans hread'))).1

theorem names_of_parse (h : parse sql = .ok (.branch verb x)) : Names sql x := by
  obtain ⟨text, first, literal, rest, rest', htext, hfirst, hread, -, -⟩ := parse_branch h
  exact ⟨text, first, literal, rest, htext, hfirst, hread⟩

/-- A step commits exactly if its word is `COMMIT`. -/
theorem isCommit_of_verb? (h : verb? text = some (verb, rest)) :
    verb.isCommit = (keyword? "COMMIT" text).isSome := by
  cases hcommit : keyword? "COMMIT" text with
  | some rest' =>
    -- The words that are tried earlier have other initials.
    have hstart : keyword? "START" text = none := keyword?_eq_none hcommit rfl rfl (by decide)
    have hbegin : keyword? "BEGIN" text = none := keyword?_eq_none hcommit rfl rfl (by decide)
    have hend : keyword? "END" text = none := keyword?_eq_none hcommit rfl rfl (by decide)
    have hprepare : keyword? "PREPARE" text = none := keyword?_eq_none hcommit rfl rfl (by decide)
    simp [verb?, hcommit, hstart, hbegin, hend, hprepare] at h
    rw [← h.1]
    rfl
  | none =>
    cases verb with
    | commit onePhase => simp [verb?, hcommit] at h
    | start | finish | prepare | rollback => rfl

/-- `ONE PHASE` makes no commit of another step. -/
theorem isCommit_of_phase {first : Verb} {rest' : Bytes}
    (h : phase sql first rest = .ok (verb, rest')) : verb.isCommit = first.isCommit := by
  unfold phase at h
  split at h
  · split at h
    · split at h <;> cases h
      rfl
    · cases h
      rfl
  · cases h
    rfl

/-- What is read of a text commits exactly if the text says so. -/
theorem commits_of_parse {s : Statement} (h : parse sql = .ok s) : s.commits ↔ IsCommit sql := by
  rcases parse_ok h with
    ⟨text, htext, ⟨hrecover, rfl⟩ | hstep⟩ | ⟨hplain, ⟨hcommit, rfl⟩ | ⟨hcommit, hs⟩⟩
  · obtain ⟨rest, hrest⟩ := Option.isSome_iff_exists.mp hrecover
    have hnone : keyword? "COMMIT" text = none := keyword?_eq_none hrest rfl rfl (by decide)
    simp [commits, IsCommit, htext, hnone]
  · obtain ⟨first, literal, x, rest, verb, rest', hfirst, -, hphase, -, rfl⟩ := parseStep_ok hstep
    have hverb : verb.isCommit = (keyword? "COMMIT" text).isSome :=
      (isCommit_of_phase hphase).trans (isCommit_of_verb? hfirst)
    simp only [commits, IsCommit, htext, hverb]
  · simp only [commits, IsCommit, hplain, hcommit]
  · rcases hs with rfl | rfl <;> simp [commits, IsCommit, hplain, hcommit]

end Statement

/-! ## What a statement reaches -/

/-- The xid is that of a branch that one engine has and the other has not, or has differently. -/
def Differs (e e' : Engine) (x : Bytes) : Prop := e'.branches.get? x ≠ e.branches.get? x

/-- A statement of connection `c` that leads from `e` to `e'` keeps to what it may touch. -/
structure Confined (c : ConnectionId) (sql : Bytes) (e e' : Engine) : Prop where
  /-- A branch that is other than before is the one that the text names. -/
  named : ∀ x, e.Differs e' x → Statement.Names sql x
  /-- At most one branch is other than before. -/
  single : ∀ x y, e.Differs e' x → e.Differs e' y → x = y
  /-- If it was there, it was prepared or one of the connection. -/
  accessible : ∀ x b, e.Differs e' x → e.branches.get? x = some b →
    b.stage = .prepared ∨ b.owner = c
  /-- What other connections have not prepared stays as it is. -/
  foreign : ∀ x b, e.branches.get? x = some b → b.stage ≠ .prepared → b.owner ≠ c →
    e'.branches.get? x = some b
  /-- One commit is counted if the text commits, and none otherwise. -/
  committed : e'.committed = e.committed + if Statement.IsCommit sql then 1 else 0

/-- The branch of an accepted step was absent, prepared, or one of the connection. -/
theorem Branches.Moves.accessible {t u : Branches} {b : Branch} (h : t.Moves c x verb u)
    (hx : t.get? x = some b) : b.stage = .prepared ∨ b.owner = c := by
  cases h with
  | start _ hnew => rw [hnew] at hx; cases hx
  | finish h | prepare h | commitOnePhase h | rollbackOwn h =>
    obtain rfl := Option.some.inj (h.symm.trans hx)
    exact Or.inr rfl
  | commit owner h | rollback owner h =>
    obtain rfl := Option.some.inj (h.symm.trans hx)
    exact Or.inl rfl

/-- A branch that a statement changes is the one of the step that the text reads as. -/
theorem step_of_differs {rows : Sql.Rows} (h : (run c sql).run e = (.ok rows, e'))
    (hx : e.Differs e' x) : ∃ verb, Statement.parse sql = .ok (.branch verb x) ∧
      e.branches.Moves c x verb e'.branches := by
  obtain ⟨-, ⟨verb, xid, hparse, hmoves⟩ | ⟨-, hkept⟩⟩ := branches_of_run_ok h
  · obtain rfl : x = xid := by_contra fun hne => hx (hmoves.get?_of_ne hne)
    exact ⟨verb, hparse, hmoves⟩
  · exact absurd (congrArg (Table.get? · x) hkept) hx

theorem confined_of_run_ok {rows : Sql.Rows} (h : (run c sql).run e = (.ok rows, e')) :
    Confined c sql e e' := by
  have hnamed : ∀ x, e.Differs e' x → Statement.Names sql x := fun x hx =>
    have ⟨_, hparse, _⟩ := step_of_differs h hx
    Statement.names_of_parse hparse
  have haccessible : ∀ x b, e.Differs e' x → e.branches.get? x = some b →
      b.stage = .prepared ∨ b.owner = c := fun x b hx hb =>
    have ⟨_, _, hmoves⟩ := step_of_differs h hx
    hmoves.accessible hb
  refine ⟨hnamed, fun x y hx hy => (hnamed x hx).unique (hnamed y hy), haccessible, ?_, ?_⟩
  · intro x b hb hstage howner
    refine by_contra fun hne => ?_
    have hx : e.Differs e' x := fun heq => hne (heq.trans hb)
    exact (haccessible x b hx hb).elim hstage howner
  · obtain ⟨s, hparse, hcount⟩ := committed_of_run_ok h
    simp only [hcount, Statement.commits_of_parse hparse]

/-! ## Which statements are taken -/

/-- The engine takes the statement: it is switched on, no failure is in store for it, the text
reads as something, and if that is a step, the rules allow it. -/
def Takes (e : Engine) (c : ConnectionId) (sql : Bytes) : Prop :=
  e.available = true ∧ e.Clear sql ∧ ∃ s, Statement.parse sql = .ok s ∧
    ∀ verb x, s = .branch verb x → ∃ t, e.branches.Moves c x verb t

theorem run_ok_iff : (∃ rows e', (run c sql).run e = (.ok rows, e')) ↔ e.Takes c sql := by
  constructor
  · rintro ⟨rows, e', h⟩
    obtain ⟨havailable, hclear, s, hparse, -⟩ := run_ok h
    refine ⟨havailable, hclear, s, hparse, fun verb x hs => ?_⟩
    subst hs
    obtain ⟨-, ⟨verb', x', hparse', hmoves⟩ | ⟨hnone, -⟩⟩ := branches_of_run_ok h
    · cases hparse.symm.trans hparse'
      exact ⟨_, hmoves⟩
    · exact absurd hparse (hnone verb x)
  · rintro ⟨havailable, hclear, s, hparse, hallowed⟩
    by_cases hs : ∃ verb x, s = .branch verb x
    · obtain ⟨verb, x, rfl⟩ := hs
      obtain ⟨t, hmoves⟩ := hallowed verb x rfl
      exact ⟨_, _, run_of_moves havailable hclear hparse hmoves⟩
    · obtain ⟨rows, committed, hother⟩ := perform_other (c := c) (e := e.record sql)
        fun verb x hbranch => hs ⟨verb, x, hbranch⟩
      exact ⟨rows, _, (run_of_read havailable hclear hparse).trans hother⟩

/-- **Statements are atomic and isolated.**  A statement that fails changes no branch and commits
nothing; one that succeeds keeps to what it may touch, and it succeeds if the engine takes it. -/
theorem isolated (c : ConnectionId) (sql : Bytes) (e : Engine) :
    (∀ f e', (run c sql).run e = (.error f, e') →
        e'.branches = e.branches ∧ e'.committed = e.committed) ∧
      (∀ rows e', (run c sql).run e = (.ok rows, e') → Confined c sql e e') ∧
      ((∃ rows e', (run c sql).run e = (.ok rows, e')) ↔ e.Takes c sql) := by
  refine ⟨fun f e' h => ?_, fun rows e' h => confined_of_run_ok h, run_ok_iff⟩
  obtain ⟨statements, injected, rfl⟩ := run_error h
  exact ⟨rfl, rfl⟩

end Coordinator.Engine

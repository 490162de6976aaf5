import Coordinator.Engine.Basic
import Coordinator.Proofs.Engine.Branches

/-! # What a statement does to an engine

A statement that fails leaves everything but the log of statements and the injected failures as it
was (`run_error`).  One that succeeds was not hit by an injected failure, was read, and has the
effect of what was read (`run_ok`); what that means for the branches is `branches_of_run_ok`.  In
the other direction, a statement that the engine can take has the effect of what is read
(`run_of_read`). -/
namespace Coordinator.Engine

variable {c : ConnectionId} {sql : Bytes} {e e' : Engine}

/-- No injected failure is in store for the statement. -/
def Clear (e : Engine) (sql : Bytes) : Prop := ∀ f ∈ e.injected, sql.startsWith f.stem = false

theorem clear_iff : e.Clear sql ↔ e.injected.find? (fun f => sql.startsWith f.stem) = none := by
  rw [List.find?_eq_none]
  exact forall₂_congr fun f _ => (Bool.not_eq_true _).symm.to_iff

/-! ## The stages of a run -/

theorem failInjected_of_clear (h : e.Clear sql) : (failInjected sql).run e = (.ok (), e) := by
  rw [clear_iff] at h
  simp only [failInjected, Action.run, h]

/-- An injected failure changes at most the failures in store. -/
theorem failInjected_of_not_clear (h : ¬ e.Clear sql) :
    ∃ f injected, (failInjected sql).run e = (.error f, { e with injected }) := by
  rw [clear_iff] at h
  obtain ⟨f, hf⟩ := Option.ne_none_iff_exists'.mp h
  simp only [failInjected, Action.run, hf]
  by_cases honce : f.once = true
  · rw [if_pos honce]; exact ⟨_, _, rfl⟩
  · rw [if_neg honce]; exact ⟨_, e.injected, rfl⟩

theorem run_of_unavailable (h : e.available = false) :
    (run c sql).run e = (.error unavailable, e) := by
  simp [run, Action.run_bind, h]

theorem run_of_not_clear (ha : e.available = true) (h : ¬ (e.record sql).Clear sql) :
    ∃ f injected, (run c sql).run e = (.error f, { e.record sql with injected }) := by
  obtain ⟨f, injected, hf⟩ := failInjected_of_not_clear h
  refine ⟨f, injected, ?_⟩
  simp [run, Action.run_bind, ha, hf]

/-- A statement that no failure hits is noted and then takes the effect of what is read. -/
theorem run_of_read {s : Statement} (ha : e.available = true) (h : e.Clear sql)
    (hp : Statement.parse sql = .ok s) :
    (run c sql).run e = (perform c s).run (e.record sql) := by
  have hf : (failInjected sql).run (e.record sql) = (.ok (), e.record sql) :=
    failInjected_of_clear h
  simp only [run, Action.run_bind, Action.run_read, ha, Bool.not_true, Bool.false_eq_true,
    if_false, Action.run_update, hf, Action.run_ofExcept, hp, mapError_ok]

theorem run_of_unread {f : SyntaxFault} (ha : e.available = true) (h : e.Clear sql)
    (hp : Statement.parse sql = .error f) :
    (run c sql).run e = (.error f.fault, e.record sql) := by
  have hf : (failInjected sql).run (e.record sql) = (.ok (), e.record sql) :=
    failInjected_of_clear h
  simp only [run, Action.run_bind, Action.run_read, ha, Bool.not_true, Bool.false_eq_true,
    if_false, Action.run_update, hf, Action.run_ofExcept, hp, mapError_error]

/-! ## Protocol steps -/

/-- A step that the rules allow is taken, and counted if it commits. -/
theorem step_of_moves {verb : Verb} {xid : Bytes} {t : Branches}
    (h : e.branches.Moves c xid verb t) : (step c verb xid).run e =
      (.ok (), { e with
        branches := t, committed := e.committed + if verb.isCommit then 1 else 0 }) := by
  simp only [step, Action.run, Branches.perform_eq_ok_iff.mpr h]

/-- A step that the rules do not allow changes nothing. -/
theorem step_of_refused {verb : Verb} {xid : Bytes} {r : Refusal}
    (h : e.branches.perform c verb xid = .error r) :
    (step c verb xid).run e = (.error r.fault, e) := by
  simp only [step, Action.run, h]

theorem perform_branch {verb : Verb} {xid : Bytes} : (perform c (.branch verb xid)).run e =
    match e.branches.perform c verb xid with
      | .ok t => (.ok [], { e with
          branches := t, committed := e.committed + if verb.isCommit then 1 else 0 })
      | .error r => (.error r.fault, e) := by
  simp only [perform, Action.run_bind]
  cases h : e.branches.perform c verb xid with
  | ok t => rw [step_of_moves (Branches.perform_eq_ok_iff.mp h)]; rfl
  | error r => rw [step_of_refused h]

/-- Statements other than protocol steps succeed and leave the branches alone. -/
theorem perform_other {s : Statement} (h : ∀ verb xid, s ≠ .branch verb xid) :
    ∃ rows committed, (perform c s).run e = (.ok rows, { e with committed }) := by
  cases s with
  | branch verb xid => exact absurd rfl (h verb xid)
  | commit => exact ⟨[], e.committed + 1, rfl⟩
  | recover | version | other => exact ⟨_, e.committed, rfl⟩

/-! ## Whole statements -/

/-- A statement that fails changes neither branches nor commits, and no connection. -/
theorem run_error {f : Fault} (h : (run c sql).run e = (.error f, e')) :
    ∃ statements injected, e' = { e with statements, injected } := by
  by_cases ha : e.available = true
  · by_cases hc : (e.record sql).Clear sql
    · cases hp : Statement.parse sql with
      | error g => rw [run_of_unread ha hc hp] at h; cases h; exact ⟨_, e.injected, rfl⟩
      | ok s =>
        rw [run_of_read ha hc hp] at h
        by_cases hs : ∃ verb xid, s = .branch verb xid
        · obtain ⟨verb, xid, rfl⟩ := hs
          simp only [perform_branch] at h
          split at h
          · cases h
          · cases h; exact ⟨_, e.injected, rfl⟩
        · obtain ⟨rows, committed, ho⟩ := perform_other (c := c) (e := e.record sql)
            fun verb xid hv => hs ⟨verb, xid, hv⟩
          rw [ho] at h
          cases h
    · obtain ⟨g, injected, hr⟩ := run_of_not_clear (c := c) ha hc
      rw [hr] at h
      cases h
      exact ⟨_, injected, rfl⟩
  · rw [run_of_unavailable (Bool.not_eq_true _ ▸ ha)] at h
    cases h
    exact ⟨e.statements, e.injected, rfl⟩

/-- A statement that succeeds was let through, was read, and took its effect. -/
theorem run_ok {rows : Sql.Rows} (h : (run c sql).run e = (.ok rows, e')) :
    e.available = true ∧ e.Clear sql ∧ ∃ s, Statement.parse sql = .ok s ∧
      (perform c s).run (e.record sql) = (.ok rows, e') := by
  by_cases ha : e.available = true
  · by_cases hc : (e.record sql).Clear sql
    · refine ⟨ha, hc, ?_⟩
      cases hp : Statement.parse sql with
      | error g => rw [run_of_unread ha hc hp] at h; cases h
      | ok s => rw [run_of_read ha hc hp] at h; exact ⟨s, rfl, h⟩
    · obtain ⟨g, injected, hr⟩ := run_of_not_clear (c := c) ha hc
      rw [hr] at h
      cases h
  · rw [run_of_unavailable (Bool.not_eq_true _ ▸ ha)] at h
    cases h

/-- The effect of a statement that succeeds: a protocol step moves a branch, any other statement
leaves the branches alone.  Connections and injected failures stay. -/
theorem branches_of_run_ok {rows : Sql.Rows} (h : (run c sql).run e = (.ok rows, e')) :
    (∃ statements branches committed, e' = { e with statements, branches, committed }) ∧
      ((∃ verb xid, Statement.parse sql = .ok (.branch verb xid) ∧
          e.branches.Moves c xid verb e'.branches) ∨
        (∀ verb xid, Statement.parse sql ≠ .ok (.branch verb xid)) ∧
          e'.branches = e.branches) := by
  obtain ⟨-, -, s, hp, hr⟩ := run_ok h
  by_cases hs : ∃ verb xid, s = .branch verb xid
  · obtain ⟨verb, xid, rfl⟩ := hs
    rw [perform_branch] at hr
    split at hr
    · next t ht =>
      cases hr
      exact ⟨⟨_, t, _, rfl⟩, Or.inl ⟨verb, xid, hp, Branches.perform_eq_ok_iff.mp ht⟩⟩
    · cases hr
  · have hne : ∀ verb xid, s ≠ .branch verb xid := fun verb xid hv => hs ⟨verb, xid, hv⟩
    obtain ⟨rows', committed, ho⟩ := perform_other (c := c) (e := e.record sql) hne
    rw [ho] at hr
    cases hr
    refine ⟨⟨_, e.branches, committed, rfl⟩, Or.inr ⟨fun verb xid hv => ?_, rfl⟩⟩
    rw [hp] at hv
    exact hne verb xid (Except.ok.inj hv)

/-! ## Commits -/

/-- Whether a statement commits something when it succeeds. -/
def Statement.commits : Statement → Bool
  | .branch verb _ => verb.isCommit
  | .commit => true
  | .recover | .version | .other => false

theorem committed_of_perform {s : Statement} {rows : Sql.Rows}
    (h : (perform c s).run e = (.ok rows, e')) :
    e'.committed = e.committed + if s.commits then 1 else 0 := by
  cases s with
  | branch verb xid =>
    rw [perform_branch] at h
    split at h
    · cases h; rfl
    · cases h
  | recover | commit | version | other => cases h; rfl

/-- The engine counts each statement that commits. -/
theorem committed_of_run_ok {rows : Sql.Rows} (h : (run c sql).run e = (.ok rows, e')) :
    ∃ s, Statement.parse sql = .ok s ∧
      e'.committed = e.committed + if s.commits then 1 else 0 := by
  obtain ⟨-, -, s, hp, hr⟩ := run_ok h
  have hcount := committed_of_perform hr
  exact ⟨s, hp, hcount⟩

end Coordinator.Engine

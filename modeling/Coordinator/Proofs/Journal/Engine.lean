import Coordinator.Host
import Coordinator.Proofs.Journal.Operations
import Coordinator.Proofs.Sql.Grammar

/-! # What the faults of an engine tell

A fault of an engine shows the statement, or what follows some place in it: an injected failure
repeats the whole statement after a text of its own, a syntax error shows where the reader stopped.
The rest of it is printable, as long as the texts of the injected failures are
(`Engine.Presentable`).  So a connection to an engine tells nothing but printable text and the
statement it was given (`Host.send_tells`). -/
namespace Coordinator

open Journal

/-! ## What a reader leaves -/

namespace Engine

variable {sql text rest x : Bytes} {verb verb' : Verb}

theorem keyword?_subset {word : String} (h : keyword? word text = some rest) : rest ⊆ text := by
  unfold keyword? at h
  simp only at h
  split at h
  · cases h
    exact List.Subset.trans (List.drop_subset _ _) (List.dropWhile_sublist _).subset
  · cases h

theorem verb?_subset (h : Statement.verb? text = some (verb, rest)) : rest ⊆ text := by
  have hword {word : String} {v : Verb}
      (hv : (keyword? word text).map (v, ·) = some (verb, rest)) : rest ⊆ text := by
    obtain ⟨rest', hrest, heq⟩ := Option.map_eq_some_iff.mp hv
    cases heq
    exact keyword?_subset hrest
  simp only [Statement.verb?, Option.orElse_eq_orElse, Option.orElse_eq_or, Option.or_eq_some_iff,
    Option.map_or] at h
  rcases h with (h | ⟨-, h⟩) | ⟨-, h | ⟨-, h | ⟨-, h | ⟨-, h⟩⟩⟩⟩
  all_goals exact hword h

/-- What follows a literal. -/
theorem read_subset (h : Sql.Literal.read text = .ok (x, rest)) : rest ⊆ text := by
  obtain ⟨items, hliteral, -⟩ := Sql.Literal.read_eq_ok_iff.mp h
  rw [hliteral.split]
  exact List.subset_append_right _ _

theorem phase_subset {rest' : Bytes} (h : Statement.phase sql verb rest = .ok (verb', rest')) :
    rest' ⊆ rest := by
  unfold Statement.phase at h
  split at h
  · split at h
    · next hone =>
      split at h
      · next hphase =>
        cases h
        exact List.Subset.trans (keyword?_subset hphase) (keyword?_subset hone)
      · cases h
    · cases h
      exact (List.dropWhile_sublist _).subset
  · cases h
    exact List.Subset.refl _

/-! ## Faults -/

/-- The text of a fault that stands for a class of errors. -/
theorem covers_classFault {cause : ErrorClass} {message : Bytes} (h : x.Covers message) :
    x.Covers (cause.fault message).message := by
  unfold ErrorClass.fault
  split
  · refine Fault.covers_of ?_
    simp only [List.forall_mem_cons, List.not_mem_nil, false_implies, implies_true, and_true]
    exact ⟨Bytes.IsPrintable.covers (by decide), h⟩
  · exact Fault.covers_of (List.forall_mem_singleton.mpr h)

/-- A text that a fault shows between printable ones. -/
theorem covers_quoted {kind : Fault.Kind} {front back : Bytes} (hfront : front.IsPrintable)
    (hrest : x.Covers rest) (hback : back.IsPrintable) :
    x.Covers (Fault.of kind [front, rest, back]).message := by
  refine Fault.covers_of ?_
  simp only [List.forall_mem_cons, List.not_mem_nil, false_implies, implies_true, and_true]
  exact ⟨hfront.covers, hrest, hback.covers⟩

theorem isPrintable_refusal (r : Refusal) : r.fault.message.IsPrintable := by
  cases r with
  | connectionBusy | duplicate | unknown | cannotFinish | cannotPrepare | cannotCommit
  | cannotRollBack => decide

/-- The fault of a text that is read up to some place. -/
theorem covers_phaseFault {f : SyntaxFault} (h : Statement.phase sql verb rest = .error f) :
    sql.Covers f.fault.message := by
  unfold Statement.phase at h
  split at h
  · split at h
    · split at h
      · cases h
      · cases h
        exact covers_quoted (by decide) (Bytes.covers_self sql) (by decide)
    · cases h
  · cases h

theorem covers_stepFault (htext : text ⊆ sql) {f : SyntaxFault}
    (h : Statement.parseStep sql text = .error f) : sql.Covers f.fault.message := by
  unfold Statement.parseStep at h
  split at h
  · cases h
    exact covers_quoted (by decide) (Bytes.covers_self sql) (by decide)
  · next verb literal hverb =>
    cases hread : Sql.Literal.read literal.trimLeft with
    | error cause =>
      rw [hread] at h
      cases h
      cases cause with
      | notQuoted | unterminated => exact Bytes.IsPrintable.covers (by decide)
    | ok found =>
      obtain ⟨xid, rest⟩ := found
      have hliteral : literal.trimLeft ⊆ sql := fun b hb =>
        htext (verb?_subset hverb ((List.dropWhile_sublist _).subset hb))
      have hrest : rest ⊆ sql := List.Subset.trans (read_subset hread) hliteral
      rw [hread] at h
      simp only [mapError_ok, bind, Except.bind] at h
      cases hphase : Statement.phase sql verb rest with
      | error cause =>
        rw [hphase] at h
        cases h
        exact covers_phaseFault hphase
      | ok result =>
        rw [hphase] at h
        simp only at h
        split at h
        · cases h
        · cases h
          have hcovers : sql.Covers result.2 := fun b hb => .inr (hrest (phase_subset hphase hb))
          exact covers_quoted (by decide) hcovers (by decide)

/-- A syntax error shows a part of the statement. -/
theorem covers_syntaxFault {f : SyntaxFault} (h : Statement.parse sql = .error f) :
    sql.Covers f.fault.message := by
  have hbare : Statement.bare sql ⊆ sql := by
    intro b hb
    have hb' := List.mem_reverse.mp hb
    have hb'' := List.mem_reverse.mp ((List.dropWhile_sublist _).subset hb')
    exact (List.dropWhile_sublist _).subset hb''
  simp only [Statement.parse] at h
  split at h
  · next text htext =>
    split at h
    · cases h
    · exact covers_stepFault (List.Subset.trans (keyword?_subset htext) hbare) h
  · split at h
    · cases h
    · split at h <;> cases h

/-! ## Statements -/

/-- The texts of the failures in store are printable. -/
def Presentable (e : Engine) : Prop := ∀ f ∈ e.injected, f.message.IsPrintable

theorem failInjected_tells (sql : Bytes) :
    (failInjected sql).Meets Presentable (fun _ => Presentable) (Tells sql Presentable) := by
  intro e he
  simp only [failInjected, Action.run]
  cases hf : e.injected.find? fun f => sql.startsWith f.stem with
  | none => exact he
  | some f =>
    have hmessage : f.message.IsPrintable := he f (List.mem_of_find?_eq_some hf)
    have hopening : (ascii " (").IsPrintable := by decide
    refine ⟨covers_classFault ?_, ?_⟩
    · exact ((hmessage.append hopening).covers.append (Bytes.covers_self sql)).append
        (Bytes.IsPrintable.covers (by decide))
    · by_cases honce : f.once = true
      · rw [if_pos honce]
        exact fun f' hf' => he f' (List.mem_of_mem_eraseP hf')
      · rw [if_neg honce]
        exact he

theorem step_tells (c : ConnectionId) (verb : Verb) (xid x : Bytes) :
    (step c verb xid).Meets Presentable (fun _ => Presentable) (Tells x Presentable) := by
  intro e he
  simp only [step, Action.run]
  cases e.branches.perform c verb xid with
  | ok branches => exact he
  | error r => exact ⟨(isPrintable_refusal r).covers, he⟩

theorem perform_tells (c : ConnectionId) (s : Statement) (x : Bytes) :
    (perform c s).Meets Presentable (fun _ => Presentable) (Tells x Presentable) := by
  cases s with
  | branch verb xid => exact (step_tells c verb xid x).bind fun _ => .pure fun _ he => he
  | recover | version => exact fun e he => he
  | commit =>
    have hcount : (Action.update fun e : Engine => { e with committed := e.committed + 1 }).Meets
        Presentable (fun _ => Presentable) (Tells x Presentable) := .update fun e he => he
    exact hcount.bind fun _ => .pure fun _ he => he
  | other => exact .pure fun _ he => he

/-- A statement fails with printable text and parts of its own. -/
theorem run_tells (c : ConnectionId) (sql : Bytes) :
    (run c sql).Meets Presentable (fun _ => Presentable) (Tells sql Presentable) := by
  have hafter : (do
      Action.update (record sql)
      failInjected sql
      let statement ← Action.ofExcept ((Statement.parse sql).mapError SyntaxFault.fault)
      perform c statement : Action Engine Sql.Rows).Meets Presentable (fun _ => Presentable)
        (Tells sql Presentable) := by
    refine .bind (.update fun e he => he) fun _ => (failInjected_tells sql).bind fun _ => ?_
    refine .ofExcept_bind (fun s _ => ?_) fun f hf e he => ?_
    · exact perform_tells c s sql
    · cases hparse : Statement.parse sql with
      | ok s => rw [hparse] at hf; cases hf
      | error cause => rw [hparse] at hf; cases hf; exact ⟨covers_syntaxFault hparse, he⟩
  refine .read_bind fun available => ?_
  cases available with
  | true => exact hafter.mono (fun _ he => he.1) (fun _ _ he => he) fun _ _ he => he
  | false => exact .fail fun e he => ⟨Bytes.IsPrintable.covers (by decide), he.1⟩

end Engine

/-! ## Connections -/

namespace Host

variable {σ : Type} {cell : Cell σ Host} {good : σ → Prop}

theorem isPrintable_brokenFault (c : Engine.ConnectionId) :
    (brokenFault c).message.IsPrintable := by
  refine Fault.isPrintable_of ?_
  simp only [List.forall_mem_cons, List.not_mem_nil, false_implies, implies_true, and_true]
  exact ⟨by decide, Decimal.isPrintable_ofNat c, by decide⟩

/-- A statement over a connection in good surroundings, in which the engine is presentable and may
be replaced by one that is. -/
theorem send_tells (hget : ∀ s, good s → (cell.get s).engine.Presentable)
    (hset : ∀ s h, good s → h.engine.Presentable → good (cell.set h s)) (c : Engine.ConnectionId)
    (sql : Bytes) :
    (send cell (fun _ => return) c sql).Meets good (fun _ => good) (Tells sql good) := by
  have hnote (f : Fault) (h : Host) : (noteFailure c f h).engine = h.engine := by
    unfold noteFailure
    split <;> rfl
  have hrun : ((cell.within engineCell).run (Engine.run c sql)).Meets good (fun _ => good)
      (Tells sql good) := by
    refine (Engine.run_tells c sql).onCell hget (fun s a e hs he => ?_) fun s f e hs hf => ?_
    · exact hset s _ hs he
    · exact ⟨hf.1, hset s _ hs hf.2⟩
  refine .read_bind fun broken => ?_
  cases broken with
  | true => exact .fail fun s hs => ⟨(isPrintable_brokenFault c).covers, hs.1⟩
  | false =>
    have hsent : ((pure () : Action σ Unit) >>= fun _ =>
        (cell.within engineCell).run (Engine.run c sql)).Meets good (fun _ => good)
          (Tells sql good) := by
      rw [pure_bind]
      exact hrun
    refine .onFailure (hsent.mono (fun s hs => hs.1) (fun _ _ hs => hs) fun _ _ hs => hs)
      fun f s hs => ⟨hs.1, hset s _ hs.2 ?_⟩
    rw [hnote]
    exact hget s hs.2

end Host
end Coordinator

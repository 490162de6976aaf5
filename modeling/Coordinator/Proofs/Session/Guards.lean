import Coordinator.Proofs.Session.Life

/-! # Guards and the table of steps

The steps of the protocol are written down twice: in the table `Xa.State.canMove`, which no
operation consults, and in the checks that the operations of a participant make before they send
anything.  **The two agree** (`guarded_of_life`) on every session that an operation can meet,
whatever the backend answered so far: an open session is in the middle of the protocol, an
operation that passes its check is one the table allows, and for each step of the table there is an
operation that passes.  The one exception is the dialect that cannot roll a branch back before it is
prepared.

A check that fails fails for good: nothing is sent.  What a session is closed by — a statement that
failed, or an operation it was handed over to — closes it for all operations after. -/
namespace Coordinator

variable {σ κ : Type} {P : Participant} {g : Gateway σ κ} {x : Bytes} {s s' : Session κ} {t t' : σ}
  {c : κ} {f : Fault} {sent sent' added : List (Sent κ)} {answer : Except Fault Unit}

namespace Drive

/-! ## What a check lets pass -/

/-- The states of an open session that the operation lets pass, by dialect. -/
def allows (dialect : Xa.Dialect) (state : Xa.State) : Drive → Bool
  | finish => state = .started
  | prepare | commitOnePhase => state = .ended
  | commit => state = .prepared
  | rollback => state = .prepared ∨
      (state = .started ∨ state = .ended) ∧ dialect.allowsEarlyRollback = true

theorem expect_cases (s : Session κ) (state : Xa.State) (operation : Bytes) :
    (∃ c, s.expect state operation = .ok c ∧ s.connection = some c ∧ s.state = state) ∨
      ∃ f, s.expect state operation = .error f ∧ f.kind = .invalidState ∧
        ∀ c, s.connection = some c → s.state ≠ state := by
  unfold Session.expect
  cases hc : s.connection with
  | none => exact Or.inr ⟨_, rfl, rfl, nofun⟩
  | some c =>
    by_cases hs : s.state = state
    · exact Or.inl ⟨c, if_pos hs, rfl, hs⟩
    · exact Or.inr ⟨_, if_neg hs, rfl, fun _ _ => hs⟩

/-- A check passes just if the session is open and in a state that the operation allows; else it
fails for that. -/
theorem check_cases (P : Participant) (s : Session κ) (d : Drive) :
    (∃ c, d.check P s = .ok c ∧ s.connection = some c ∧ d.allows P.dialect s.state = true) ∨
      ∃ f, d.check P s = .error f ∧ f.kind = .invalidState ∧
        ∀ c, s.connection = some c → d.allows P.dialect s.state = false := by
  have hexpect (state : Xa.State) (h : d.check P s = s.expect state d.name)
      (ha : d.allows P.dialect s.state = decide (s.state = state)) :
      (∃ c, d.check P s = .ok c ∧ s.connection = some c ∧ d.allows P.dialect s.state = true) ∨
        ∃ f, d.check P s = .error f ∧ f.kind = .invalidState ∧
          ∀ c, s.connection = some c → d.allows P.dialect s.state = false := by
    rw [h, ha]
    simp only [decide_eq_true_iff, decide_eq_false_iff_not]
    exact expect_cases s state d.name
  cases d with
  | finish => exact hexpect .started rfl rfl
  | prepare => exact hexpect .ended rfl rfl
  | commit => exact hexpect .prepared rfl rfl
  | commitOnePhase => exact hexpect .ended rfl rfl
  | rollback =>
    simp only [check, Participant.expectRollback, allows, decide_eq_true_iff,
      decide_eq_false_iff_not]
    cases hc : s.connection with
    | none => exact Or.inr ⟨_, rfl, rfl, fun _ h => by cases h⟩
    | some c =>
      by_cases hs : s.state = .prepared ∨
          (s.state = .started ∨ s.state = .ended) ∧ P.dialect.allowsEarlyRollback = true
      · exact Or.inl ⟨c, if_pos hs, rfl, hs⟩
      · exact Or.inr ⟨_, if_neg hs, rfl, fun _ _ => hs⟩

/-! ## The table -/

/-- What an operation lets pass, the table allows. -/
theorem canMove_of_allows {dialect : Xa.Dialect} {state : Xa.State} {d : Drive}
    (h : d.allows dialect state = true) : state.canMove d.target = true ∧
      ¬ (dialect = .strict ∧ d.target = .rolledBack ∧ (state = .started ∨ state = .ended)) := by
  cases d <;> cases dialect <;> cases state <;> first | exact absurd h (by decide) | decide

/-- For each step that the table allows in the middle of the protocol, there is an operation. -/
theorem exists_allows {dialect : Xa.Dialect} {state target : Xa.State}
    (hs : state = .started ∨ state = .ended ∨ state = .prepared)
    (h : state.canMove target = true)
    (hstrict : ¬ (dialect = .strict ∧ target = .rolledBack ∧
      (state = .started ∨ state = .ended))) :
    ∃ d : Drive, d.target = target ∧ d.allows dialect state = true := by
  cases target with
  | idle | started => rcases hs with rfl | rfl | rfl <;> exact absurd h (by decide)
  | ended =>
    refine ⟨finish, rfl, ?_⟩
    rcases hs with rfl | rfl | rfl <;> first | rfl | exact absurd h (by decide)
  | prepared =>
    refine ⟨prepare, rfl, ?_⟩
    rcases hs with rfl | rfl | rfl <;> first | rfl | exact absurd h (by decide)
  | committed =>
    rcases hs with rfl | rfl | rfl
    · exact absurd h (by decide)
    · exact ⟨commitOnePhase, rfl, rfl⟩
    · exact ⟨commit, rfl, rfl⟩
  | rolledBack =>
    refine ⟨rollback, rfl, ?_⟩
    cases dialect <;> rcases hs with rfl | rfl | rfl <;>
      first | rfl | exact absurd (by decide) hstrict

/-! ## Operations that are turned down -/

/-- The operation is turned down for the state of the session, and nothing is sent. -/
def TurnsDown (P : Participant) (g : Gateway σ κ) (d : Drive) (s : Session κ) (t : σ)
    (sent : List (Sent κ)) : Prop :=
  ∃ f s' t', (d.run P g.watched).run (s, t, sent) = (.error f, s', t', sent) ∧
    f.kind = .invalidState

theorem plan_of_check_error {d : Drive} (h : d.check P s = .error f) :
    d.plan P s = .error f := by
  rw [plan, h]
  rfl

/-- An operation without a plan was turned down by its check, or has an xid without a literal. -/
theorem plan_eq_error {d : Drive} (h : d.plan P s = .error f) :
    d.check P s = .error f ∨ f.kind = .protocol := by
  unfold plan at h
  cases hc : d.check P s with
  | error f' => rw [hc] at h; cases h; exact Or.inl rfl
  | ok c =>
    rw [hc] at h
    cases hq : d.statements P.dialect s with
    | error q => rw [hq] at h; cases h; exact Or.inr (by cases q <;> rfl)
    | ok sqls => rw [hq] at h; cases h

theorem allows_of_plan {d : Drive} {sqls : List Bytes} (h : d.plan P s = .ok (c, sqls)) :
    d.allows P.dialect s.state = true := by
  rcases check_cases P s d with ⟨c', -, -, ha⟩ | ⟨f, hf, -, -⟩
  · exact ha
  · rw [plan_of_check_error hf] at h
    cases h

/-- An operation whose check fails sends nothing. -/
theorem run_of_check_error {d : Drive} (h : d.check P s = .error f) :
    (d.run P g.watched).run (s, t, sent) =
      (.error f, d.refused s, if d.inPlace then t else s.drop g.toKeeper t, sent) := by
  rw [run_eq, going, plan_of_check_error h]
  cases hd : d.inPlace with
  | true => rfl
  | false => simp only [Bool.false_eq_true, if_false, drop_watched]

/-- An open session that an operation fails on for its state, before it has a plan, is in a state
that the operation does not allow. -/
theorem not_allows_of_plan {d : Drive} (h : d.plan P s = .error f) (hkind : f.kind = .invalidState)
    (hc : s.connection = some c) : d.allows P.dialect s.state = false := by
  rcases check_cases P s d with ⟨c', hcheck, -, -⟩ | ⟨f', -, -, hstate⟩
  · -- The check passed, so it was the xid, and that is a failure of another kind.
    rcases plan_eq_error h with h | h
    · rw [hcheck] at h
      cases h
    · rw [h] at hkind
      cases hkind
  · exact hstate c hc

/-- An open session is turned down just in the states that the operation does not allow. -/
theorem turnsDown_iff {d : Drive} (hc : s.connection = some c) :
    d.TurnsDown P g s t sent ↔ d.allows P.dialect s.state = false := by
  constructor
  · rintro ⟨f, s', t', hrun, hkind⟩
    obtain ⟨added, hsent, hcourse⟩ := course_of_run d hrun
    have hnone : added = [] := by simpa using hsent
    cases hcourse with
    | refused hplan => exact not_allows_of_plan hplan hkind hc
    | lost hplan hsends =>
      obtain ⟨m, hm, -⟩ := hsends.mem_of_error
      rw [hnone] at hm
      exact absurd hm List.not_mem_nil
  · intro ha
    rcases check_cases P s d with ⟨c', -, -, ha'⟩ | ⟨f, hcheck, hkind, -⟩
    · rw [ha] at ha'
      cases ha'
    · exact ⟨f, _, _, run_of_check_error hcheck, hkind⟩

end Drive

/-! ## Guarded sessions -/

/-- What the operations of a participant do to a session, whatever it has been through. -/
structure Guarded (P : Participant) (g : Gateway σ κ) (s : Session κ) (t : σ)
    (sent : List (Sent κ)) : Prop where
  /-- An open session is in the middle of the protocol. -/
  live : s.isOpen = true → s.state = .started ∨ s.state = .ended ∨ s.state = .prepared
  /-- An operation that succeeds takes a step of the table. -/
  moves : ∀ d s' t' sent', (Drive.run P g.watched d).run (s, t, sent) = (.ok (), s', t', sent') →
    s.state.canMove d.target = true ∧ (d.inPlace = true → s' = { s with state := d.target })
  /-- One that fails takes none. -/
  stays : ∀ d f s' t' sent',
    (Drive.run P g.watched d).run (s, t, sent) = (.error f, s', t', sent') → s'.state = s.state
  /-- There is an operation for each step of the table, but for the strict dialect. -/
  guards : s.isOpen = true → ∀ target, target ≠ .idle →
    ((s.state.canMove target = true ∧ ¬ (P.dialect = .strict ∧ target = .rolledBack ∧
        (s.state = .started ∨ s.state = .ended))) ↔
      ∃ d : Drive, d.target = target ∧ ¬ d.TurnsDown P g s t sent)
  /-- A failure for the state of a session, unless it is the answer of the backend, comes before
  anything is sent. -/
  silent : ∀ d f s' t' sent',
    (Drive.run P g.watched d).run (s, t, sent) = (.error f, s', t', sent') →
    f.kind = .invalidState →
    (∃ added, sent' = sent ++ added ∧ ∃ m ∈ added, g.Answers m ∧ m.answer = .error f) ∨
      sent' = sent ∧ (d.inPlace = true → s' = s)
  /-- A statement that fails closes the session, and so does an operation that consumes it. -/
  closes : ∀ d answer s' t' added,
    (Drive.run P g.watched d).run (s, t, sent) = (answer, s', t', sent ++ added) →
    (d.inPlace = false ∨ ∃ m ∈ added, ∃ f, m.answer = .error f) → s'.isOpen = false
  /-- To a closed session nothing happens any more. -/
  finished : s.isOpen = false → ∀ d, ∃ f s', f.kind = .invalidState ∧ s'.isOpen = false ∧
    (Drive.run P g.watched d).run (s, t, sent) = (.error f, s', t, sent)
  /-- Nor does it have a connection for statements of the caller's own. -/
  unlent : s.isOpen = false → ∃ f, s.lend = .error f ∧ f.kind = .invalidState

/-- A gateway that answers no statement with the failure that means a session is in the wrong
state. -/
def Gateway.Candid (g : Gateway σ κ) : Prop :=
  ∀ c sql t f t', (g.execute c sql).run t = (.error f, t') → f.kind ≠ .invalidState

/-- Over such a gateway, this failure always comes before anything is sent. -/
theorem Guarded.silent_of_candid (h : Guarded P g s t sent) (hg : g.Candid) {d : Drive}
    (hr : (d.run P g.watched).run (s, t, sent) = (.error f, s', t', sent'))
    (hkind : f.kind = .invalidState) : sent' = sent ∧ (d.inPlace = true → s' = s) := by
  rcases h.silent d f s' t' sent' hr hkind with ⟨added, -, m, -, ⟨t₁, t₂, hanswer⟩, hf⟩ | hsilent
  · rw [hf] at hanswer
    exact absurd hkind (hg _ _ _ _ _ hanswer)
  · exact hsilent

theorem Session.isOpen_iff : s.isOpen = true ↔ ∃ c, s.connection = some c := by
  rw [Session.isOpen, Option.isSome_iff_exists]

theorem Session.isOpen_eq_false_iff : s.isOpen = false ↔ s.connection = none := by
  rw [Session.isOpen, Option.isSome_eq_false_iff, Option.isNone_iff_eq_none]

namespace Drive

@[simp] theorem isOpen_lost (d : Drive) (s : Session κ) : (d.lost s).isOpen = false := by
  cases d <;> rfl

theorem isOpen_moved {d : Drive} (hd : d.inPlace = false) : (d.moved s).isOpen = false := by
  rw [moved, hd]
  rfl

theorem isOpen_refused {d : Drive} (hd : d.inPlace = false) : (d.refused s).isOpen = false := by
  rw [refused, hd]
  rfl

@[simp] theorem state_lost (d : Drive) (s : Session κ) : (d.lost s).state = s.state := by
  cases d <;> rfl

@[simp] theorem state_refused (d : Drive) (s : Session κ) : (d.refused s).state = s.state := by
  cases d <;> rfl

/-- Nothing was answered badly, unless a statement is what the operation failed by. -/
theorem Course.failed {d : Drive} (h : Course P d s answer s' added) {m : Sent κ} (hm : m ∈ added)
    (hf : m.answer = .error f) : s' = d.lost s := by
  cases h with
  | refused => exact absurd hm List.not_mem_nil
  | lost => rfl
  | moved hplan hsends => exact absurd hf (by rw [hsends.answer_of_ok m hm]; nofun)

theorem Course.live {d : Drive} (h : Course P d s answer s' added) (ho : s'.isOpen = true)
    (hlive : s.isOpen = true → s.state = .started ∨ s.state = .ended ∨ s.state = .prepared) :
    s'.state = .started ∨ s'.state = .ended ∨ s'.state = .prepared := by
  cases h with
  | refused hplan =>
    cases hd : d.inPlace with
    | true =>
      rw [Drive.refused, hd] at ho ⊢
      exact hlive ho
    | false => rw [isOpen_refused hd] at ho; cases ho
  | moved hplan hsends =>
    cases d with
    | finish => exact Or.inr (Or.inl rfl)
    | prepare => exact Or.inr (Or.inr rfl)
    | commit | commitOnePhase | rollback => cases ho
  | lost hplan hsends => rw [isOpen_lost] at ho; cases ho

end Drive

theorem Life.live {o : Option (Session κ)} (h : Life P g x o t sent) {s : Session κ}
    (ho : o = some s) (hopen : s.isOpen = true) :
    s.state = .started ∨ s.state = .ended ∨ s.state = .prepared := by
  induction h generalizing s with
  | unstarted => cases ho
  | started hr =>
    cases ho
    obtain ⟨added, -, hopening⟩ := opening_of_run hr
    cases hopening
    exact Or.inl rfl
  | driven d h hr ih =>
    cases ho
    obtain ⟨added, -, hcourse⟩ := d.course_of_run hr
    exact hcourse.live hopen fun h => ih rfl h
  | dropped => cases ho
  | meanwhile t' h ih => exact ih ho hopen

/-- A session that is in the middle of the protocol while it is open is guarded. -/
theorem guarded_of_live
    (hlive : s.isOpen = true → s.state = .started ∨ s.state = .ended ∨ s.state = .prepared) :
    Guarded P g s t sent where
  live := hlive
  moves d s' t' sent' hr := by
    obtain ⟨added, -, hcourse⟩ := d.course_of_run hr
    cases hcourse with
    | moved hplan hsends =>
      refine ⟨(Drive.canMove_of_allows (Drive.allows_of_plan hplan)).1, fun hd => ?_⟩
      rw [Drive.moved, if_pos hd]
  stays d f s' t' sent' hr := by
    obtain ⟨added, -, hcourse⟩ := d.course_of_run hr
    cases hcourse with
    | refused => exact d.state_refused s
    | lost => exact d.state_lost s
  guards ho target ht := by
    obtain ⟨c, hc⟩ := Session.isOpen_iff.mp ho
    simp only [Drive.turnsDown_iff hc, Bool.not_eq_false]
    constructor
    · rintro ⟨hmove, hstrict⟩
      exact Drive.exists_allows (hlive ho) hmove hstrict
    · rintro ⟨d, rfl, hallows⟩
      exact Drive.canMove_of_allows hallows
  silent d f s' t' sent' hr hkind := by
    obtain ⟨added, rfl, hcourse⟩ := d.course_of_run hr
    cases hcourse with
    | refused =>
      refine Or.inr ⟨List.append_nil _, fun hd => ?_⟩
      rw [Drive.refused, if_pos hd]
    | lost hplan hsends =>
      obtain ⟨m, hm, hf⟩ := hsends.mem_of_error
      exact Or.inl ⟨added, rfl, m, hm, d.answers_of_run hr m hm, hf⟩
  closes d answer s' t' added hr hclose := by
    obtain ⟨added', hsent, hcourse⟩ := d.course_of_run hr
    obtain rfl := List.append_cancel_left hsent
    rcases hclose with hd | ⟨m, hm, f, hf⟩
    · cases hcourse with
      | refused => exact Drive.isOpen_refused hd
      | moved => exact Drive.isOpen_moved hd
      | lost => exact d.isOpen_lost s
    · rw [hcourse.failed hm hf]
      exact d.isOpen_lost s
  finished ho d := by
    have hc := Session.isOpen_eq_false_iff.mp ho
    rcases Drive.check_cases P s d with ⟨c, -, hc', -⟩ | ⟨f, hcheck, hkind, -⟩
    · rw [hc] at hc'
      cases hc'
    · refine ⟨f, d.refused s, hkind, ?_, ?_⟩
      · cases hd : d.inPlace with
        | true => rw [Drive.refused, hd]; exact ho
        | false => exact Drive.isOpen_refused hd
      · rw [Drive.run_of_check_error hcheck, Session.drop, hc]
        simp only [ite_self]
  unlent ho := by
    rw [Session.lend, Session.isOpen_eq_false_iff.mp ho]
    exact ⟨_, rfl, rfl⟩

/-- **Guards and the table of steps agree.**  In every dialect and whatever the backend answers, a
session starts in the first state of the protocol, and is guarded all its life. -/
theorem guarded_of_life (P : Participant) (g : Gateway σ κ) (x : Bytes) :
    (∀ t s t' sent, (P.start g.watched x).run (t, []) = (.ok s, t', sent) →
      s.isOpen = true ∧ s.state = .started ∧ Xa.State.idle.canMove s.state = true) ∧
    ∀ s t sent, Life P g x (some s) t sent → Guarded P g s t sent := by
  constructor
  · intro t s t' sent hr
    obtain ⟨added, -, hopening⟩ := opening_of_run hr
    cases hopening
    exact ⟨rfl, rfl, rfl⟩
  · intro s t sent h
    exact guarded_of_live (h.live rfl)

/-- A participant whose server cannot roll back early. -/
def cautious : Participant := ⟨ascii "p", .strict⟩

/-- The table allows the rollback of an ended branch, which the strict dialect turns down; the
prepare passes and fails, and the session is closed for good. -/
theorem guarded_cautious :
    let ended : Session Unit := ⟨ascii "a", some (), .ended⟩
    let sent : List (Sent Unit) :=
      [⟨(), ascii "XA START 'a'", .ok ()⟩, ⟨(), ascii "XA END 'a'", .ok ()⟩]
    ended.state.canMove .rolledBack = true ∧
      Drive.rollback.TurnsDown cautious .scripted ended [.error Gateway.gone] sent ∧
      ¬ Drive.prepare.TurnsDown cautious .scripted ended [.error Gateway.gone] sent ∧
      ∃ s' sent', (Drive.prepare.run cautious Gateway.scripted.watched).run
          (ended, [.error Gateway.gone], sent) = (.error Gateway.gone, s', [], sent') ∧
        ∀ d, ∃ f s'', f.kind = .invalidState ∧
          (Drive.run cautious Gateway.scripted.watched d).run (s', [], sent') =
            (.error f, s'', [], sent') := by
  intro ended sent
  have hstarted : Life cautious .scripted (ascii "a") (some ⟨ascii "a", some (), .started⟩)
      [.ok (), .error Gateway.gone] [⟨(), ascii "XA START 'a'", .ok ()⟩] :=
    .started (t := [.ok (), .ok (), .error Gateway.gone]) rfl
  have hended : Life cautious .scripted (ascii "a") (some ended) [.error Gateway.gone] sent :=
    .driven .finish hstarted rfl
  have hclosed : Life cautious .scripted (ascii "a") (some ended.closed) []
      (sent ++ [⟨(), ascii "XA PREPARE 'a'", .error Gateway.gone⟩]) :=
    .driven .prepare hended rfl
  have hguarded := (guarded_of_life cautious .scripted (ascii "a")).2
  have hguards := (hguarded _ _ _ hended).guards rfl
  refine ⟨rfl, ?_, ?_, ended.closed, _, rfl, fun d => ?_⟩
  · refine Classical.byContradiction fun hpass => ?_
    have hexcept := ((hguards .rolledBack (by decide)).mpr ⟨.rollback, rfl, hpass⟩).2
    exact hexcept ⟨rfl, rfl, Or.inr rfl⟩
  · obtain ⟨d, hd, hpass⟩ := (hguards .prepared (by decide)).mp (by decide)
    cases d with
    | prepare => exact hpass
    | finish | commit | commitOnePhase | rollback => cases hd
  · obtain ⟨f, s'', hkind, -, hrun⟩ := (hguarded _ _ _ hclosed).finished rfl d
    exact ⟨f, s'', hkind, hrun⟩

end Coordinator

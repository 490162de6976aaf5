import Coordinator.Proofs.Session.Life
import Coordinator.Proofs.Xa.Literal

/-! # Sessions on PostgreSQL

On PostgreSQL a branch is an ordinary transaction until it is prepared.  A `COMMIT` that follows a
`PREPARE TRANSACTION` on the same connection succeeds whatever became of the prepare, and commits
nothing; so after a prepare a session must never send one.  **It never does** (`no_false_commit`):
what is sent for a session, through any operations in any order and with any answers, follows the
script of one of three short plays (`Script`). -/
namespace Coordinator

open Xa

variable {σ κ : Type} {P : Participant} {g : Gateway σ κ} {x q : Bytes} {s s' : Session κ} {t : σ}
  {c : κ} {sent added : List (Sent κ)} {answer : Except Fault Unit}

/-! ## Statements of the dialect -/

namespace Postgres

def begin : Bytes := ascii "BEGIN"

/-- The bare commit, of a transaction that is not prepared. -/
def commit : Bytes := ascii "COMMIT"

/-- The bare rollback, of a transaction that is not prepared. -/
def rollback : Bytes := ascii "ROLLBACK"

def prepare (q : Bytes) : Bytes := ascii "PREPARE TRANSACTION " ++ q

def commitPrepared (q : Bytes) : Bytes := ascii "COMMIT PREPARED " ++ q

def rollbackPrepared (q : Bytes) : Bytes := ascii "ROLLBACK PREPARED " ++ q

/-- The statements of an operation on a session in a given state. -/
def texts (state : State) (q : Bytes) : Drive → List Bytes
  | .finish => []
  | .prepare => [prepare q]
  | .commit => [commitPrepared q]
  | .commitOnePhase => [commit]
  | .rollback => if state = .prepared then [rollbackPrepared q] else [rollback]

theorem statements_eq (hq : Xid.quotePostgres s.xid = .ok q) (d : Drive) :
    d.statements .postgres s = .ok (texts s.state q d) := by
  cases d with
  | finish | commitOnePhase => rfl
  | prepare => rw [Drive.statements, Dialect.prepare_postgres, hq]; rfl
  | commit => rw [Drive.statements, Dialect.commit_postgres, hq]; rfl
  | rollback =>
    rw [Drive.statements, texts]
    by_cases hs : s.state = .prepared
    · rw [if_pos hs, hs, Dialect.rollback_postgres, hq]; rfl
    · rw [if_neg hs, Dialect.rollback, if_neg hs]; rfl

theorem quote_of_valid (hx : x ≠ []) (hlen : x.length ≤ 199) (hnul : (0 : UInt8) ∉ x) :
    ∃ q, Xid.quotePostgres x = .ok q :=
  ⟨_, Xid.quotePostgres_eq_ok_iff.mpr ⟨⟨hx, hlen, hnul⟩, rfl⟩⟩

/-! ## Scripts -/

/-- What may be sent for a session, in order and with the answers, whose literal is `q`. -/
inductive Script (q : Bytes) : List (Bytes × Except Fault Unit) → Prop
  /-- No connection could be had. -/
  | silent : Script q []
  | began (answer : Except Fault Unit) : Script q [(begin, answer)]
  /-- An ordinary transaction. -/
  | plain {sql : Bytes} (answer : Except Fault Unit) (h : sql = commit ∨ sql = rollback) :
      Script q [(begin, .ok ()), (sql, answer)]
  | prepared (answer : Except Fault Unit) : Script q [(begin, .ok ()), (prepare q, answer)]
  /-- Both phases. -/
  | settled {sql : Bytes} (answer : Except Fault Unit)
      (h : sql = commitPrepared q ∨ sql = rollbackPrepared q) :
      Script q [(begin, .ok ()), (prepare q, .ok ()), (sql, answer)]

/-- A statement that carries the literal is longer than those that carry none. -/
theorem front_ne_bare (front q : Bytes) (h : 8 < front.length) :
    front ++ q ≠ begin ∧ front ++ q ≠ commit ∧ front ++ q ≠ rollback := by
  have hlong (sql : Bytes) (hs : sql.length ≤ 8) : front ++ q ≠ sql := by
    intro heq
    rw [← heq, List.length_append] at hs
    omega
  exact ⟨hlong begin (by decide), hlong commit (by decide), hlong rollback (by decide)⟩

/-- In a script with a prepare there is no bare commit and no bare rollback. -/
theorem Script.not_bare {said : List (Bytes × Except Fault Unit)} (h : Script q said)
    {answer : Except Fault Unit} (hprepare : (prepare q, answer) ∈ said) :
    ∀ m ∈ said, m.1 ≠ commit ∧ m.1 ≠ rollback := by
  have hq : prepare q ≠ begin ∧ prepare q ≠ commit ∧ prepare q ≠ rollback :=
    front_ne_bare (ascii "PREPARE TRANSACTION ") q (by decide)
  have hbegin : begin ≠ commit ∧ begin ≠ rollback := by decide
  cases h with
  | silent => exact absurd hprepare List.not_mem_nil
  | began => simp [hq] at hprepare
  | plain _ h => rcases h with rfl | rfl <;> simp [hq] at hprepare
  | prepared =>
    intro m hm
    simp only [List.mem_cons, List.not_mem_nil, or_false] at hm
    rcases hm with rfl | rfl
    · exact hbegin
    · exact hq.2
  | settled _ h =>
    intro m hm
    simp only [List.mem_cons, List.not_mem_nil, or_false] at hm
    rcases hm with rfl | rfl | rfl
    · exact hbegin
    · exact hq.2
    · rcases h with rfl | rfl
      · exact (front_ne_bare (ascii "COMMIT PREPARED ") q (by decide)).2
      · exact (front_ne_bare (ascii "ROLLBACK PREPARED ") q (by decide)).2

/-- The statements on record, with their answers. -/
def said (sent : List (Sent κ)) : List (Bytes × Except Fault Unit) :=
  sent.map fun m => (m.sql, m.answer)

/-- A session and what was said for it so far: an open one has begun, and if it is prepared, it was
prepared. -/
inductive Told (x q : Bytes) : Option (Session κ) → List (Bytes × Except Fault Unit) → Prop
  | finished {o : Option (Session κ)} {said : List (Bytes × Except Fault Unit)}
      (hclosed : ∀ s, o = some s → s.connection = none) (h : Script q said) : Told x q o said
  | begun {s : Session κ} (hx : s.xid = x) (hs : s.state = .started ∨ s.state = .ended) :
      Told x q (some s) [(begin, .ok ())]
  | prepared {s : Session κ} (hx : s.xid = x) (hs : s.state = .prepared) :
      Told x q (some s) [(begin, .ok ()), (prepare q, .ok ())]

theorem Told.script {o : Option (Session κ)} {said : List (Bytes × Except Fault Unit)}
    (h : Told x q o said) : Script q said := by
  cases h with
  | finished _ h => exact h
  | begun => exact .began _
  | prepared => exact .prepared _

/-- After an operation that consumes the session, the script has only to be one. -/
theorem Told.of_consumed {d : Drive} {said : List (Bytes × Except Fault Unit)}
    (h : Drive.Course P d s answer s' added) (hd : d.inPlace = false) (hscript : Script q said) :
    Told x q (some s') said := by
  refine .finished (fun s'' hs'' => ?_) hscript
  cases hs''
  cases h <;> simp [Drive.refused, Drive.moved, Drive.lost, hd, Session.handedOver]

/-- An operation that is refused leaves things as they were, or takes the session along. -/
theorem Told.of_refused {d : Drive} {said : List (Bytes × Except Fault Unit)}
    (h : Told x q (some s) said) : Told x q (some (d.refused s)) said := by
  cases hd : d.inPlace with
  | true =>
    rw [Drive.refused, if_pos hd]
    exact h
  | false =>
    refine .finished (fun s' hs' => ?_) h.script
    cases hs'
    rw [Drive.refused, hd]
    rfl

/-- What an operation sends fits what was said before. -/
theorem Told.drive {d : Drive} {before : List (Bytes × Except Fault Unit)}
    (hP : P.dialect = .postgres) (hq : Xid.quotePostgres x = .ok q)
    (h : Told x q (some s) before) (hcourse : Drive.Course P d s answer s' added) :
    Told x q (some s') (before ++ said added) := by
  rcases hcourse.sends with ⟨rfl, rfl⟩ | ⟨c, sqls, hplan, hsends, hmoved, hlost⟩
  · rw [said, List.map_nil, List.append_nil]
    exact h.of_refused
  obtain ⟨hcheck, hsqls⟩ := Drive.plan_eq_ok hplan
  cases h with
  | finished hclosed hscript =>
    have hc := Drive.connection_of_plan hplan
    rw [hclosed s rfl] at hc
    cases hc
  | begun hx hs =>
    rw [hP, statements_eq (hx ▸ hq)] at hsqls
    cases hsqls
    cases d with
    | finish =>
      cases hsends with
      | done =>
        rw [hmoved rfl]
        exact .begun hx (Or.inr rfl)
    | prepare =>
      rw [hsends.eq_of_one]
      cases answer with
      | ok u =>
        rw [hmoved rfl]
        exact .prepared hx rfl
      | error f =>
        rw [hlost f rfl]
        exact .finished (fun s' hs' => by cases hs'; rfl) (.prepared _)
    | commit =>
      have hstate := (Session.expect_eq_ok hcheck).2
      rcases hs with hs | hs <;> rw [hs] at hstate <;> cases hstate
    | commitOnePhase =>
      rw [hsends.eq_of_one] at hcourse ⊢
      exact .of_consumed hcourse rfl (.plain _ (Or.inl rfl))
    | rollback =>
      have hnot : s.state ≠ .prepared := by
        rcases hs with hs | hs <;> rw [hs] <;> decide
      rw [texts, if_neg hnot] at hsends
      rw [hsends.eq_of_one] at hcourse ⊢
      exact .of_consumed hcourse rfl (.plain _ (Or.inr rfl))
  | prepared hx hs =>
    rw [hP, statements_eq (hx ▸ hq)] at hsqls
    cases hsqls
    cases d with
    | finish | prepare | commitOnePhase =>
      have hstate := (Session.expect_eq_ok hcheck).2
      rw [hs] at hstate
      cases hstate
    | commit =>
      rw [hsends.eq_of_one] at hcourse ⊢
      exact .of_consumed hcourse rfl (.settled _ (Or.inl rfl))
    | rollback =>
      rw [texts, if_pos hs] at hsends
      rw [hsends.eq_of_one] at hcourse ⊢
      exact .of_consumed hcourse rfl (.settled _ (Or.inr rfl))

/-- All that was said in the life of a session fits. -/
theorem told_of_life (hP : P.dialect = .postgres) (hq : Xid.quotePostgres x = .ok q)
    {o : Option (Session κ)} (h : Life P g x o t sent) : Told x q o (said sent) := by
  have hbegin {sql : Bytes} (hsql : P.dialect.start x = .ok sql) : sql = begin := by
    rw [hP, Dialect.start_postgres, hq] at hsql
    cases hsql
    rfl
  induction h with
  | unstarted hr =>
    obtain ⟨added, hsent, hopening⟩ := opening_of_run hr
    rw [List.nil_append] at hsent
    subst hsent
    cases hopening with
    | refused => exact .finished nofun .silent
    | failed hsql =>
      obtain rfl := hbegin hsql
      exact .finished nofun (.began _)
  | started hr =>
    obtain ⟨added, hsent, hopening⟩ := opening_of_run hr
    rw [List.nil_append] at hsent
    subst hsent
    cases hopening with
    | started hsql =>
      obtain rfl := hbegin hsql
      exact .begun rfl (Or.inl rfl)
  | driven d h hr ih =>
    obtain ⟨added, rfl, hcourse⟩ := d.course_of_run hr
    rw [said, List.map_append]
    exact ih.drive hP hq hcourse
  | dropped h ih => exact .finished nofun ih.script
  | meanwhile t' h ih => exact ih

/-- **No false commit.**  For an xid that PostgreSQL takes, what is sent for a session follows the
script, whatever is done with the session and however the statements end; and once a prepare was
sent, no bare commit or rollback is ever sent. -/
theorem no_false_commit (hP : P.dialect = .postgres) (hx : x ≠ []) (hlen : x.length ≤ 199)
    (hnul : (0 : UInt8) ∉ x) : ∃ q, Xid.quotePostgres x = .ok q ∧
      ∀ (g : Gateway σ κ) (o : Option (Session κ)) (t : σ) (sent : List (Sent κ)),
        Life P g x o t sent → Script q (said sent) ∧
          ∀ answer, (prepare q, answer) ∈ said sent →
            ∀ m ∈ said sent, m.1 ≠ commit ∧ m.1 ≠ rollback := by
  obtain ⟨q, hq⟩ := quote_of_valid hx hlen hnul
  refine ⟨q, hq, fun g o t sent h => ?_⟩
  have hscript := (told_of_life hP hq h).script
  exact ⟨hscript, fun answer hprepare => hscript.not_bare hprepare⟩

/-- A session whose prepare fails, and which the caller tries to commit in one phase all the
same. -/
theorem no_false_commit_unprepared :
    let sent : List (Sent Unit) :=
      [⟨(), begin, .ok ()⟩, ⟨(), ascii "PREPARE TRANSACTION 'it''s'", .error Gateway.gone⟩]
    Life ⟨ascii "p", .postgres⟩ .scripted (ascii "it's")
        (some ⟨[], none, .ended⟩) [] sent ∧
      ∃ q, Xid.quotePostgres (ascii "it's") = .ok q ∧ Script q (said sent) ∧
        ∀ m ∈ said sent, m.1 ≠ commit ∧ m.1 ≠ rollback := by
  intro sent
  have hstarted : Life ⟨ascii "p", .postgres⟩ .scripted (ascii "it's")
      (some ⟨ascii "it's", some (), .started⟩) [.error Gateway.gone] [⟨(), begin, .ok ()⟩] :=
    .started (t := [.ok (), .error Gateway.gone]) rfl
  have hended : Life ⟨ascii "p", .postgres⟩ .scripted (ascii "it's")
      (some ⟨ascii "it's", some (), .ended⟩) [.error Gateway.gone] [⟨(), begin, .ok ()⟩] :=
    .driven .finish hstarted rfl
  have hlost : Life ⟨ascii "p", .postgres⟩ .scripted (ascii "it's")
      (some ⟨ascii "it's", none, .ended⟩) [] sent := .driven .prepare hended rfl
  have htried : Life ⟨ascii "p", .postgres⟩ .scripted (ascii "it's")
      (some ⟨[], none, .ended⟩) [] sent := .driven .commitOnePhase hlost rfl
  obtain ⟨q, hq, hlife⟩ := no_false_commit (P := ⟨ascii "p", .postgres⟩) (x := ascii "it's")
    rfl (by decide) (by decide) (by decide)
  obtain ⟨hscript, hbare⟩ := hlife Gateway.scripted _ _ _ htried
  refine ⟨htried, q, hq, hscript, ?_⟩
  cases hq
  exact hbare _ (List.mem_cons_of_mem _ List.mem_cons_self)

end Postgres
end Coordinator

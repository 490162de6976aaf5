import Coordinator.Client.Mysql
import Coordinator.Client.Sqlite
import Coordinator.Proofs.Contract
import Coordinator.Proofs.Sql.Binding

/-! # Courses of statements

A statement takes one of a few **courses** through a client library.  `Sqlite.Course` and
`Mysql.Course` list them by what the library says: each with the calls that are made and with how
the statement ends.  `course_of_query` and `course_of_submit` say that there are no others, and what
of a connection stays as it was.  What the adapters promise is read off the courses. -/
namespace Coordinator

/-- A failure is of the kind of its class. -/
theorem ErrorClass.fault_kind (x : ErrorClass) (message : Bytes) :
    (x.fault message).kind = x.kind := by cases x <;> rfl

/-! ## Requests -/

namespace Request

/-- The statement of a request, as it is given. -/
def sql : Request → Bytes
  | plain sql => sql
  | bound sql _ => sql
  | rows sql _ => sql

/-- The parameters of a request. -/
def params : Request → List Sql.Param
  | plain _ => []
  | bound _ params => params
  | rows _ params => params

/-- The parameters of a request match its statement: there are none, or one for each placeholder. -/
def Matched (q : Request) : Prop :=
  q.params = [] ∨ q.params.length = Sql.Template.placeholders .outside q.sql

/-- The statement that a request is sent as where parameters are written into statements. -/
def sentAs (quote : Bytes → Bytes) (q : Request) : Except Fault Bytes :=
  if q.params.isEmpty then .ok q.sql
  else (Sql.Template.bind quote q.sql q.params).mapError Sql.Template.BindFault.fault

/-- What a request gives back of the rows of its result. -/
def answer (result : Sql.Rows) : Request → Option Sql.Rows
  | plain _ => none
  | bound _ _ => none
  | rows _ _ => some result

/-- Only a request whose parameters do not match cannot be sent, and that is fatal. -/
theorem sentAs_cases (quote : Bytes → Bytes) (q : Request) : (∃ sql, q.sentAs quote = .ok sql) ∨
    ∃ f, q.sentAs quote = .error f ∧ f.kind = .fatal ∧ ¬ q.Matched := by
  by_cases hempty : q.params.isEmpty
  · exact Or.inl ⟨q.sql, if_pos hempty⟩
  cases hb : Sql.Template.bind quote q.sql q.params with
  | ok text => exact Or.inl ⟨text, by simp [sentAs, hempty, hb]⟩
  | error e =>
    refine Or.inr ⟨e.fault, by simp [sentAs, hempty, hb], by cases e <;> rfl, ?_⟩
    rintro (hnil | hlength)
    · exact hempty (List.isEmpty_iff.mpr hnil)
    · obtain ⟨parts, hlaid⟩ := Sql.Template.exists_laid hlength
      rw [Sql.Template.bind_of_laid hlaid] at hb
      cases hb

end Request

namespace Client
namespace Sqlite

variable {s t : Sqlite} {c : ConnectionId} {r : Reply} {sql : Bytes} {params : List Sql.Param}

/-- The connections after more calls to the library. -/
def made (cs : List Call) (s : Sqlite) : Sqlite := { s with calls := s.calls ++ cs }

@[simp] theorem made_nil (s : Sqlite) : made [] s = s := by simp [made]

@[simp] theorem made_made (cs cs' : List Call) (s : Sqlite) :
    made cs' (made cs s) = made (cs ++ cs') s := by simp [made]

@[simp] theorem run_call (x : Call) (s : Sqlite) : (call x).run s = (.ok (), made [x] s) := rfl

theorem run_failWith {α : Type} (c : ConnectionId) (code : Int32) (operation : String)
    (s : Sqlite) : ∃ f, (failWith c code operation : Action Sqlite α).run s = (.error f, s) :=
  ⟨_, rfl⟩

/-- What a script says to a statement. -/
def replyTo (sql : Bytes) (s : Sqlite) : Reply := (s.script.answer sql.untilNul).1.getD {}

/-! ## Parameters and rows of a prepared statement -/

/-- Whether the library turns down the parameter at an index. -/
def Reply.Refuses (r : Reply) (index : Nat) : Prop :=
  r.bindFailAt = some (index : Int) ∧ r.bindCode ≠ 0

/-- The calls that bind parameters from an index on. -/
def bindCalls : Nat → List Sql.Param → List Call
  | _, [] => []
  | index, p :: rest => bindCall index p :: bindCalls (index + 1) rest

@[simp] theorem length_bindCalls (index : Nat) (params : List Sql.Param) :
    (bindCalls index params).length = params.length := by
  induction params generalizing index with
  | nil => rfl
  | cons p rest ih => rw [bindCalls, List.length_cons, List.length_cons, ih]

theorem getElem?_bindCalls (index : Nat) (params : List Sql.Param) (i : Nat) :
    (bindCalls index params)[i]? = params[i]?.map (bindCall (index + i)) := by
  induction params generalizing index i with
  | nil => rfl
  | cons p rest ih =>
    cases i with
    | zero => rfl
    | succ i =>
      rw [bindCalls, List.getElem?_cons_succ, List.getElem?_cons_succ, ih,
        Nat.add_assoc, Nat.add_comm 1 i]

/-- The calls that step through the rows of a statement and beyond the last one. -/
def stepCalls (r : Reply) : List Call := List.replicate (r.rows.length + 1) .step

/-- Binding ends at the first parameter that the library turns down. -/
theorem bindFrom_cases (c : ConnectionId) (r : Reply) (index : Nat) (params : List Sql.Param)
    (s : Sqlite) :
    (∃ f k, k < params.length ∧ r.Refuses (index + k) ∧ (bindFrom c r index params).run s =
        (.error f, made ((bindCalls index params).take (k + 1)) s)) ∨
      (∀ k < params.length, ¬ r.Refuses (index + k)) ∧
        (bindFrom c r index params).run s = (.ok (), made (bindCalls index params) s) := by
  -- By induction on the parameters that are left; the index is that of the first of them.
  induction params generalizing index s with
  | nil => exact Or.inr ⟨nofun, by rw [bindCalls, made_nil]; rfl⟩
  | cons p rest ih =>
    by_cases hrefuses : r.Refuses index
    · obtain ⟨f, hf⟩ := run_failWith (α := Unit) c r.bindCode "sqlite bind"
        (made [bindCall index p] s)
      refine Or.inl ⟨f, 0, Nat.succ_pos _, hrefuses, ?_⟩
      have hcond : r.bindFailAt = some (index : Int) ∧ r.bindCode ≠ 0 := hrefuses
      simp only [bindFrom, Action.run_bind, run_call, if_pos hcond, hf]
      rfl
    · have hhead : (bindFrom c r index (p :: rest)).run s =
          (bindFrom c r (index + 1) rest).run (made [bindCall index p] s) := by
        have hcond : ¬ (r.bindFailAt = some (index : Int) ∧ r.bindCode ≠ 0) := hrefuses
        simp only [bindFrom, Action.run_bind, run_call, if_neg hcond]
      rw [hhead]
      rcases ih (index + 1) (made [bindCall index p] s) with
        ⟨f, k, hk, hrefused, hrun⟩ | ⟨hnone, hrun⟩
      · refine Or.inl ⟨f, k + 1, Nat.succ_lt_succ hk, ?_, ?_⟩
        · rwa [Nat.add_comm k 1, ← Nat.add_assoc]
        · rw [hrun, made_made]
          rfl
      · refine Or.inr ⟨?_, by rw [hrun, made_made]; rfl⟩
        intro k hk
        cases k with
        | zero => exact hrefuses
        | succ k =>
          rw [Nat.add_comm k 1, ← Nat.add_assoc]
          exact hnone k (Nat.lt_of_succ_lt_succ hk)

theorem run_steps {α : Type} (rows : List α) (s : Sqlite) :
    (Action.forEach (fun _ => call .step) rows).run s =
      (.ok (), made (List.replicate rows.length .step) s) := by
  induction rows generalizing s with
  | nil => exact congrArg _ (made_nil s).symm
  | cons row rows ih =>
    rw [Action.forEach, Action.run_bind, run_call]
    simp only [ih, made_made, List.length_cons, List.replicate_succ]
    rfl

/-- A cell comes out as it is: a null as a null, a text without bytes as a text. -/
theorem readCell_eq (cell : Option Bytes) : readCell cell = cell := by
  cases cell with
  | none => rfl
  | some s =>
    by_cases hs : s = []
    · rw [hs]
      rfl
    · have hpointer : pointer (some s) = some s := Option.filter_some_pos (decide_eq_true hs)
      rw [readCell, hpointer]
      rfl

/-- Stepping goes beyond the last row, and ends well unless the library fails there. -/
theorem fetch_cases (c : ConnectionId) (r : Reply) (s : Sqlite) :
    ((r.endCode ≠ 100 ∧ r.endCode ≠ 101) ∧
        ∃ f, (fetch c r).run s = (.error f, made (stepCalls r) s)) ∨
      (r.endCode = 100 ∨ r.endCode = 101) ∧
        (fetch c r).run s = (.ok r.rows, made (stepCalls r) s) := by
  have hsteps : List.replicate r.rows.length Call.step ++ [.step] = stepCalls r :=
    List.replicate_succ'.symm
  have hcells : (r.rows.map fun row => row.map readCell) = r.rows := by
    rw [funext readCell_eq]
    simp only [List.map_id']
  by_cases hend : r.endCode ≠ 100 ∧ r.endCode ≠ 101
  · obtain ⟨f, hf⟩ := run_failWith (α := Unit) c r.endCode "sqlite step" (made (stepCalls r) s)
    refine Or.inl ⟨hend, f, ?_⟩
    simp only [fetch, Action.run_bind, run_steps, run_call, made_made, hsteps, if_pos hend, hf]
  · refine Or.inr ⟨Decidable.or_iff_not_not_and_not.mpr hend, ?_⟩
    simp only [fetch, Action.run_bind, run_steps, run_call, made_made, hsteps, if_neg hend,
      Action.run_pure, hcells]

/-! ## Courses -/

/-- The courses of a prepared statement, up to its end. -/
inductive Prepared (r : Reply) (params : List Sql.Param) :
    Except Fault Sql.Rows → List Call → Prop
  | miscounted {f : Fault} (hcount : Int32.ofNat params.length ≠ r.paramCount) :
      Prepared r params (.error f) []
  | unbound {f : Fault} {k : Nat} (hcount : Int32.ofNat params.length = r.paramCount)
      (hk : k < params.length) (hrefuses : r.Refuses (1 + k)) :
      Prepared r params (.error f) ((bindCalls 1 params).take (k + 1))
  | unstepped {f : Fault} (hcount : Int32.ofNat params.length = r.paramCount)
      (hbound : ∀ k < params.length, ¬ r.Refuses (1 + k))
      (hend : r.endCode ≠ 100 ∧ r.endCode ≠ 101) :
      Prepared r params (.error f) (bindCalls 1 params ++ stepCalls r)
  | fetched (hcount : Int32.ofNat params.length = r.paramCount)
      (hbound : ∀ k < params.length, ¬ r.Refuses (1 + k))
      (hend : r.endCode = 100 ∨ r.endCode = 101) :
      Prepared r params (.ok r.rows) (bindCalls 1 params ++ stepCalls r)

/-- The courses of a statement with parameters. -/
inductive Course (r : Reply) (sql : Bytes) (params : List Sql.Param) :
    Except Fault Sql.Rows → List Call → Prop
  | unprepared {f : Fault} (hcode : r.code ≠ 0) :
      Course r sql params (.error f) [.prepare sql.untilNul]
  /-- Nothing is prepared of a comment. -/
  | empty (hcode : r.code = 0) (hnull : r.nullStatement = true) :
      Course r sql params (.ok []) [.prepare sql.untilNul]
  | prepared {answer : Except Fault Sql.Rows} {cs : List Call} (hcode : r.code = 0)
      (hnull : r.nullStatement = false) (hrun : Prepared r params answer cs) :
      Course r sql params answer (.prepare sql.untilNul :: cs ++ [.finalize])

theorem prepared_of_runPrepared (c : ConnectionId) (r : Reply) (params : List Sql.Param)
    (s : Sqlite) : ∃ cs, Prepared r params ((runPrepared c r params).run s).1 cs ∧
      ((runPrepared c r params).run s).2 = made cs s := by
  by_cases hcount : Int32.ofNat params.length = r.paramCount
  · have hhead : (runPrepared c r params).run s =
        (bindFrom c r 1 params >>= fun _ => fetch c r).run s := by
      simp only [runPrepared, hcount, ne_eq, not_true_eq_false, if_false, Action.run_bind]
    rw [hhead, Action.run_bind]
    rcases bindFrom_cases c r 1 params s with ⟨f, k, hk, hrefuses, hrun⟩ | ⟨hbound, hrun⟩
    · rw [hrun]
      exact ⟨_, .unbound hcount hk hrefuses, rfl⟩
    · rw [hrun]
      rcases fetch_cases c r (made (bindCalls 1 params) s) with
        ⟨hend, f, hfetch⟩ | ⟨hend, hfetch⟩
      · simp only [hfetch, made_made]
        exact ⟨_, .unstepped hcount hbound hend, rfl⟩
      · simp only [hfetch, made_made]
        exact ⟨_, .fetched hcount hbound hend, rfl⟩
  · refine ⟨[], ?_⟩
    simp only [runPrepared, ne_eq, hcount, not_false_eq_true, if_true, Action.run_bind,
      Action.run_fail, made_nil, and_true]
    exact .miscounted hcount

/-- A statement with parameters takes one of the courses.  Besides the calls it leaves what the
library said to it. -/
theorem course_of_query (c : ConnectionId) (sql : Bytes) (params : List Sql.Param) (s : Sqlite) :
    ∃ cs, Course (s.replyTo sql) sql params ((query c sql params).run s).1 cs ∧
      ∃ script message, ((query c sql params).run s).2 =
        { s with script, calls := s.calls ++ cs,
                 connections := s.connections.modify c fun x => { x with message } } := by
  generalize hr : s.replyTo sql = r
  generalize hscript : (s.script.answer sql.untilNul).2 = script
  have hreply : (reply sql.untilNul).run (made [.prepare sql.untilNul] s) =
      (.ok r, { made [.prepare sql.untilNul] s with script }) := by
    rw [← hr, ← hscript]
    rfl
  generalize hnoted : ({ made [.prepare sql.untilNul] s with
    script,
    connections := s.connections.modify c ({ · with message := r.message.getD noError }) } :
      Sqlite) = t
  have hmessage : (setMessage c (r.message.getD noError)).run
      { made [.prepare sql.untilNul] s with script } = (.ok (), t) := by
    rw [← hnoted]
    rfl
  by_cases hcode : r.code = 0
  · cases hnull : r.nullStatement with
    | true =>
      have hrun : (query c sql params).run s = (.ok [], t) := by
        simp only [query, Action.run_bind, run_call, hreply, hmessage, hcode, hnull, ne_eq,
          not_true_eq_false, if_false, if_true, Action.run_pure]
      rw [hrun]
      exact ⟨_, .empty hcode hnull, script, _, hnoted.symm⟩
    | false =>
      have hrun : (query c sql params).run s = (((runPrepared c r params).run t).1,
          made [.finalize] ((runPrepared c r params).run t).2) := by
        simp only [query, Action.run_bind, run_call, hreply, hmessage, hcode, hnull, ne_eq,
          not_true_eq_false, if_false, Bool.false_eq_true, Action.run_ensuring]
        rfl
      obtain ⟨cs, hcourse, hafter⟩ := prepared_of_runPrepared c r params t
      rw [hrun, hafter, made_made]
      refine ⟨_, .prepared hcode hnull hcourse, script, r.message.getD noError, ?_⟩
      rw [← hnoted]
      simp [made]
  · obtain ⟨f, hf⟩ := run_failWith (α := Sql.Rows) c r.code "sqlite prepare" t
    have hrun : (query c sql params).run s = (.error f, t) := by
      simp only [query, Action.run_bind, run_call, hreply, hmessage, ne_eq, hcode,
        not_false_eq_true, if_true, hf]
    rw [hrun]
    exact ⟨_, .unprepared hcode, script, _, hnoted.symm⟩

end Sqlite

namespace Mysql

variable {s t : Mysql} {sql : Bytes} {params : List Sql.Param}

/-- What a script says to a statement. -/
def replyTo (sql : Bytes) (s : Mysql) : Reply := (s.script.answer sql).1.getD {}

/-- Sends a statement and frees the result. -/
def exchange (sql : Bytes) : Action Mysql (Option Reply) := do
  let r ← send sql
  free r
  return r

/-- The rows of a result, if there is one. -/
def rowsOf (r : Option Reply) : Sql.Rows := (r.map Reply.table).getD []

theorem submit_eq (o : Options) (q : Request) :
    (backend o).submit () q = .ofExcept (q.sentAs quote) >>= fun sql =>
      exchange sql >>= fun r => pure (q.answer (rowsOf r)) := by
  cases q with
  | plain sql =>
    show (execute sql >>= fun _ => pure none) = .ofExcept (.ok sql) >>= _
    simp only [execute, exchange, Request.answer, Action.ofExcept, bind_assoc, pure_bind]
  | bound sql params =>
    show (query sql params >>= fun _ => pure none) = .ofExcept (bind sql params) >>= _
    simp only [query, exchange, Request.answer, bind_assoc, pure_bind]
  | rows sql params =>
    show (query sql params >>= fun rows => pure (some rows)) = .ofExcept (bind sql params) >>= _
    simp only [query, exchange, Request.answer, rowsOf, bind_assoc, pure_bind]

/-- A request comes to what the statement that it is sent as comes to. -/
theorem run_submit (o : Options) {q : Request} (s : Mysql) (hsql : q.sentAs quote = .ok sql) :
    ((backend o).submit () q).run s =
      (((exchange sql).run s).1.map fun stored => q.answer (rowsOf stored),
        ((exchange sql).run s).2) := by
  rw [submit_eq, hsql, Action.ofExcept, pure_bind, Action.run_bind]
  rcases (exchange sql).run s with ⟨_ | _, _⟩ <;> rfl

/-- One that cannot be written comes to nothing. -/
theorem run_submit_of_error (o : Options) {q : Request} {f : Fault} (s : Mysql)
    (hf : q.sentAs quote = .error f) : ((backend o).submit () q).run s = (.error f, s) := by
  rw [submit_eq, hf]
  rfl

/-- The fault of what the library reports is one of the connection just if the server is lost. -/
theorem Failure.kind_fault (operation : String) (x : Failure) :
    (x.fault operation).kind = .connection ↔
      ErrorClass.ofMysql x.number x.sqlstate.untilNul = .connectionLost := by
  rw [Failure.fault, ErrorClass.fault_kind]
  cases ErrorClass.ofMysql x.number x.sqlstate.untilNul <;> simp [ErrorClass.kind]

/-- The courses of a statement on a connection that is not broken. -/
inductive Course (r : Reply) (sql : Bytes) : Except Fault (Option Reply) → List Call → Prop
  | refused (hcode : r.code ≠ 0) : Course r sql (.error (r.failure.fault "query")) [.query sql]
  | unstored (hcode : r.code = 0) (hrows : r.rows = none) (hfields : r.fieldCount ≠ 0) :
      Course r sql (.error (r.failure.fault "store_result")) [.query sql, .storeResult]
  /-- There is no result, and there is none to store. -/
  | empty (hcode : r.code = 0) (hrows : r.rows = none) (hfields : r.fieldCount = 0) :
      Course r sql (.ok none) [.query sql, .storeResult]
  | stored {rows : Sql.Rows} (hcode : r.code = 0) (hrows : r.rows = some rows) :
      Course r sql (.ok (some r)) [.query sql, .storeResult, .freeResult]

/-- On a connection that is closed or broken nothing is sent. -/
theorem exchange_of_closed (sql : Bytes) (h : (s.connected && !s.broken) = false) :
    ∃ f, (exchange sql).run s = (.error f, s) ∧ f.kind = .connection := by
  have hclosed : (!s.connected || s.broken) = true := by
    cases hc : s.connected <;> cases hb : s.broken <;> rw [hc, hb] at h <;> cases h <;> rfl
  refine ⟨.of .connection [ascii "mysql connection is closed"], ?_, rfl⟩
  simp only [exchange, send, Action.run_bind, Action.run_read, hclosed, if_true, Action.run_fail]

/-- The connection after a statement that was answered, with the calls it took. -/
def answered (r : Reply) (script : Script Reply) (cs : List Call) (s : Mysql) : Mysql :=
  { s with script, failure := r.failure, calls := s.calls ++ cs }

@[simp] theorem run_call_answered (r : Reply) (script : Script Reply) (cs : List Call) (x : Call)
    (s : Mysql) : (call x).run (answered r script cs s) =
      (.ok (), answered r script (cs ++ [x]) s) := by
  simp [call, answered]

/-- Failing with what the library reports to the statement, which may be that the server is lost. -/
theorem run_failWith_answered {α : Type} (operation : String) (r : Reply) (script : Script Reply)
    (cs : List Call) (hb : s.broken = false) :
    (failWith operation : Action Mysql α).run (answered r script cs s) =
      (.error (r.failure.fault operation), { answered r script cs s with
        broken := (r.failure.fault operation).kind = .connection }) := by
  have hlost : decide ((r.failure.fault operation).kind = .connection) =
      decide (ErrorClass.ofMysql r.failure.number r.failure.sqlstate.untilNul =
        .connectionLost) := decide_eq_decide.mpr (r.failure.kind_fault operation)
  rw [hlost]
  simp only [failWith, Action.run, answered, hb, Bool.false_or]

/-- What follows the reply to a statement. -/
theorem run_send (sql : Bytes) (hc : s.connected = true) (hb : s.broken = false) :
    let r := s.replyTo sql
    let t (cs : List Call) := answered r (s.script.answer sql).2 cs s
    (send sql).run s =
      if r.code ≠ 0 then (failWith "query").run (t [.query sql])
      else if r.rows.isNone then
        if r.fieldCount ≠ 0 then (failWith "store_result").run (t [.query sql, .storeResult])
        else (.ok none, t [.query sql, .storeResult])
      else (.ok (some r), t [.query sql, .storeResult]) := by
  intro r t
  have hopen : (!s.connected || s.broken) = false := by rw [hc, hb]; rfl
  have hhead : (send sql).run s = (do
      if r.code ≠ 0 then failWith "query"
      call .storeResult
      if r.rows.isNone then
        if r.fieldCount ≠ 0 then failWith "store_result" else return none
      else return some r : Action Mysql (Option Reply)).run (t [.query sql]) := by
    simp only [send, Action.run_bind, Action.run_read, hopen, Bool.false_eq_true, if_false]
    rfl
  have hstore : (call .storeResult).run (t [.query sql]) =
      (.ok (), t [.query sql, .storeResult]) := run_call_answered ..
  rw [hhead]
  by_cases hcode : r.code = 0
  · simp only [hcode, ne_eq, not_true_eq_false, if_false, Action.run_bind, hstore]
    split <;> [split; skip] <;> rfl
  · simp only [ne_eq, hcode, not_false_eq_true, if_true, Action.run_bind]
    rfl

/-- On any other a statement takes one of the courses, and the connection is broken after it just if
the fault says so. -/
theorem course_of_exchange (sql : Bytes) (hc : s.connected = true) (hb : s.broken = false) :
    ∃ cs, Course (s.replyTo sql) sql ((exchange sql).run s).1 cs ∧
      ∃ script failure broken, ((exchange sql).run s).2 =
          { s with script, failure, broken, calls := s.calls ++ cs } ∧
        (broken = true ↔ ∃ f, ((exchange sql).run s).1 = .error f ∧ f.kind = .connection) := by
  have hsend := run_send sql hc hb
  generalize s.replyTo sql = r at hsend ⊢
  generalize (s.script.answer sql).2 = script at hsend
  have hkept (cs : List Call) : answered r script cs s = { s with
      script, failure := r.failure, broken := false, calls := s.calls ++ cs } := by
    rw [← hb]
    rfl
  by_cases hcode : r.code = 0
  · cases hrows : r.rows with
    | some rows =>
      have hrun : (exchange sql).run s =
          (.ok (some r), answered r script [.query sql, .storeResult, .freeResult] s) := by
        simp [exchange, Action.run_bind, hsend, hcode, hrows, free, -bind_pure_comp]
      rw [hrun, hkept]
      exact ⟨_, .stored hcode hrows, _, _, _, rfl, by simp⟩
    | none =>
      by_cases hfields : r.fieldCount = 0
      · have hrun : (exchange sql).run s =
            (.ok none, answered r script [.query sql, .storeResult] s) := by
          simp [exchange, Action.run_bind, hsend, hcode, hrows, hfields, free]
        rw [hrun, hkept]
        exact ⟨_, .empty hcode hrows hfields, _, _, _, rfl, by simp⟩
      · have hrun : (exchange sql).run s = (.error (r.failure.fault "store_result"),
            { answered r script [.query sql, .storeResult] s with
              broken := (r.failure.fault "store_result").kind = .connection }) := by
          simp [exchange, Action.run_bind, hsend, hcode, hrows, hfields,
            run_failWith_answered _ _ _ _ hb]
        rw [hrun]
        exact ⟨_, .unstored hcode hrows hfields, _, _, _, rfl, by simp⟩
  · have hrun : (exchange sql).run s = (.error (r.failure.fault "query"),
        { answered r script [.query sql] s with
          broken := (r.failure.fault "query").kind = .connection }) := by
      simp [exchange, Action.run_bind, hsend, hcode, run_failWith_answered _ _ _ _ hb]
    rw [hrun]
    exact ⟨_, .refused hcode, _, _, _, rfl, by simp⟩

end Mysql
end Client
end Coordinator

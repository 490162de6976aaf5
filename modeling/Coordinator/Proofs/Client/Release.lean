import Coordinator.Proofs.Client.Statements

/-! # Releases

In its life a connection is opened, takes requests and is closed (`Backend.live`).  Each request
settles what the library gave for it: a prepared statement is finalized and a stored result freed,
once and as the last thing; **it returns just if the library reported no failure**, and then with
the rows as they are (`Settled`).  Over a whole life **a handle is closed once, as the very last
thing**, also when the connection cannot be opened (`Released`). -/
namespace Coordinator

/-! ## Lives of connections -/

/-- A request, the surroundings before and after it, and how it was answered. -/
structure Turn (σ : Type) where
  request : Request
  before : σ
  answer : Except Fault (Option Sql.Rows)
  after : σ

namespace Backend

variable {σ κ : Type}

/-- Takes a request. -/
def turn (b : Backend σ κ) (c : κ) (q : Request) (s : σ) : Turn σ :=
  ⟨q, s, ((b.submit c q).run s).1, ((b.submit c q).run s).2⟩

/-- Takes requests one after another, however each of them ends. -/
def serve (b : Backend σ κ) (c : κ) : List Request → σ → List (Turn σ) × σ
  | [], s => ([], s)
  | q :: rest, s =>
    let taken := b.turn c q s
    let served := b.serve c rest taken.after
    (taken :: served.1, served.2)

/-- The life of a connection: the requests it takes, and what is there when it is gone. -/
def live (b : Backend σ κ) (requests : List Request) (s : σ) : List (Turn σ) × σ :=
  match b.connect.run s with
  | (.error _, t) => ([], t)
  | (.ok c, t) =>
    let served := b.serve c requests t
    (served.1, b.close c served.2)

theorem live_of_error {b : Backend σ κ} {s t : σ} {f : Fault} (requests : List Request)
    (h : b.connect.run s = (.error f, t)) : b.live requests s = ([], t) := by
  rw [live, h]

theorem live_of_ok {b : Backend σ κ} {s t : σ} {c : κ} (requests : List Request)
    (h : b.connect.run s = (.ok c, t)) :
    b.live requests s = ((b.serve c requests t).1, b.close c (b.serve c requests t).2) := by
  rw [live, h]

/-- What every request keeps, holds of all turns and at the end. -/
theorem serve_spec (b : Backend σ κ) (c : κ) (inv : σ → Prop) (P : Turn σ → Prop)
    (step : ∀ q s, inv s → inv (b.turn c q s).after ∧ P (b.turn c q s))
    (requests : List Request) {s : σ} (hs : inv s) :
    (∀ turn ∈ (b.serve c requests s).1, P turn) ∧ inv (b.serve c requests s).2 := by
  induction requests generalizing s with
  | nil => exact ⟨nofun, hs⟩
  | cons q rest ih =>
    obtain ⟨hinv, hturn⟩ := step q s hs
    obtain ⟨hturns, hend⟩ := ih hinv
    refine ⟨?_, hend⟩
    intro turn hmem
    rcases List.mem_cons.mp hmem with rfl | hmem
    · exact hturn
    · exact hturns turn hmem

end Backend

namespace Client
namespace Sqlite

variable {r : Reply} {sql : Bytes} {params : List Sql.Param} {q : Request} {cs : List Call}
  {answer : Except Fault (Option Sql.Rows)}

/-! ## What the library reports -/

/-- Whether the library reports a failure to a call, having given some number of rows. -/
def Reply.Fails (r : Reply) (given : Nat) : Call → Prop
  | .execute _ => r.code ≠ 0
  | .prepare _ => r.code ≠ 0
  | .bindNull index => r.Refuses index
  | .bindText index _ => r.Refuses index
  | .bindReal index _ => r.Refuses index
  | .bindInteger index _ => r.Refuses index
  | .step => r.rows.length ≤ given ∧ r.endCode ≠ 100 ∧ r.endCode ≠ 101
  | _ => False

/-- Whether the library reports a failure to one of the calls made for a statement.  It gives a row
for each step, while there are any. -/
def Reply.Reports (r : Reply) : Nat → List Call → Prop
  | _, [] => False
  | given, x :: rest =>
    r.Fails given x ∨ r.Reports (if x = .step then given + 1 else given) rest

theorem fails_bindCall (r : Reply) (given index : Nat) (p : Sql.Param) :
    r.Fails given (bindCall index p) ↔ r.Refuses index := by
  cases p <;> rfl

theorem bindCall_ne_step (index : Nat) (p : Sql.Param) : bindCall index p ≠ .step := by
  cases p <;> exact nofun

/-- After parameters that were bound, the library has given no more rows than before. -/
theorem reports_bindCalls_append (r : Reply) (given index : Nat) (params : List Sql.Param)
    (cs : List Call) : r.Reports given (bindCalls index params ++ cs) ↔
      (∃ k < params.length, r.Refuses (index + k)) ∨ r.Reports given cs := by
  induction params generalizing index with
  | nil => simp [bindCalls]
  | cons p rest ih =>
    rw [bindCalls, List.cons_append, Reply.Reports, fails_bindCall,
      if_neg (bindCall_ne_step index p), ih, ← or_assoc]
    refine or_congr_left ?_
    constructor
    · rintro (h | ⟨k, hk, h⟩)
      · exact ⟨0, Nat.succ_pos _, h⟩
      · refine ⟨k + 1, Nat.succ_lt_succ hk, ?_⟩
        rwa [Nat.add_comm k 1, ← Nat.add_assoc]
    · rintro ⟨k, hk, h⟩
      cases k with
      | zero => exact Or.inl h
      | succ k =>
        refine Or.inr ⟨k, Nat.lt_of_succ_lt_succ hk, ?_⟩
        rwa [Nat.add_assoc, Nat.add_comm 1 k]

theorem reports_steps_append (r : Reply) (given more : Nat) (cs : List Call)
    (hgiven : given + more = r.rows.length) :
    r.Reports given (List.replicate (more + 1) .step ++ cs) ↔
      (r.endCode ≠ 100 ∧ r.endCode ≠ 101) ∨ r.Reports (r.rows.length + 1) cs := by
  induction more generalizing given with
  | zero =>
    obtain rfl : given = r.rows.length := hgiven
    simp [Reply.Reports, Reply.Fails, List.replicate_succ]
  | succ more ih =>
    rw [List.replicate_succ, List.cons_append, Reply.Reports, if_pos rfl,
      ih (given + 1) (by omega)]
    refine or_iff_right ?_
    rintro ⟨hall, -⟩
    omega

theorem take_bindCalls (index : Nat) (params : List Sql.Param) (k : Nat) :
    (bindCalls index params).take k = bindCalls index (params.take k) := by
  induction params generalizing index k with
  | nil => simp [bindCalls]
  | cons p rest ih =>
    cases k with
    | zero => rfl
    | succ k => simp [bindCalls, ih]

/-! ## Requests -/

/-- Whether a call prepares a statement. -/
def Call.prepares : Call → Bool
  | .prepare _ => true
  | _ => false

/-- The check that a request has as many parameters as the statement, if one is prepared. -/
def Reply.Counted (r : Reply) : Request → Prop
  | .plain _ => True
  | .bound _ params => r.code = 0 → r.nullStatement = false →
      Int32.ofNat params.length = r.paramCount
  | .rows _ params => r.code = 0 → r.nullStatement = false →
      Int32.ofNat params.length = r.paramCount

/-- What a request gives back when it returns. -/
def Reply.given (r : Reply) : Request → Option Sql.Rows
  | .plain _ => none
  | .bound _ _ => none
  | .rows _ _ => some (if r.nullStatement then [] else r.rows)

/-- What the calls for a request come to. -/
structure Settled (r : Reply) (q : Request) (answer : Except Fault (Option Sql.Rows))
    (cs : List Call) : Prop where
  unclosed : .close ∉ cs
  /-- A statement that is prepared is finalized once. -/
  finalized : cs.count .finalize =
    if r.code = 0 ∧ r.nullStatement = false then cs.countP Call.prepares else 0
  last : .finalize ∈ cs → cs.getLast? = some .finalize
  /-- Only a library that never runs out of rows is left out: its statements do not end. -/
  returns : r.endCode ≠ 100 → r.Counted q → ((∃ x, answer = .ok x) ↔ ¬ r.Reports 0 cs)
  rows : ∀ x, answer = .ok x → x = r.given q

/-- A turn settles what the library gave for its request. -/
def Settles (turn : Turn Sqlite) : Prop :=
  ∃ cs, turn.after.calls = turn.before.calls ++ cs ∧
    Settled (turn.before.replyTo turn.request.sql) turn.request turn.answer cs

theorem run_execute (c : ConnectionId) (sql : Bytes) (s : Sqlite) :
    ∃ answer script, (execute c sql).run s =
        (answer, { s with script, calls := s.calls ++ [.execute sql.untilNul] }) ∧
      (answer = .ok () ↔ (s.replyTo sql).code = 0) := by
  have hreply : (reply sql.untilNul).run (made [.execute sql.untilNul] s) =
      (.ok (s.replyTo sql), { made [.execute sql.untilNul] s with
        script := (s.script.answer sql.untilNul).2 }) := rfl
  by_cases hcode : (s.replyTo sql).code = 0
  · refine ⟨.ok (), (s.script.answer sql.untilNul).2, ?_, iff_of_true rfl hcode⟩
    simp only [execute, Action.run_bind, run_call, hreply, hcode, ne_eq, not_true_eq_false,
      if_false, Action.run_pure]
    rfl
  · have hrun : ((execute c sql).run s).2 =
          { s with
            script := (s.script.answer sql.untilNul).2
            calls := s.calls ++ [.execute sql.untilNul] } ∧
        ((execute c sql).run s).1 ≠ .ok () := by
      simp only [execute, Action.run_bind, run_call, hreply, hcode, ne_eq, not_false_eq_true,
        if_true, Action.run_fail, reduceCtorEq, and_true]
      rfl
    exact ⟨_, _, Prod.ext rfl hrun.1, iff_of_false hrun.2 hcode⟩

/-- Between preparing and finalizing, parameters are bound and rows stepped through. -/
theorem inner_of_prepared {answer : Except Fault Sql.Rows} (h : Prepared r params answer cs) :
    ∀ x ∈ cs, (∃ index p, x = bindCall index p) ∨ x = .step := by
  have hbinds (index : Nat) (params : List Sql.Param) :
      ∀ x ∈ bindCalls index params, ∃ index p, x = bindCall index p := by
    induction params generalizing index with
    | nil => exact nofun
    | cons p rest ih =>
      intro x hx
      rcases List.mem_cons.mp hx with rfl | hx
      · exact ⟨index, p, rfl⟩
      · exact ih (index + 1) x hx
  have hall : ∀ x ∈ bindCalls 1 params ++ stepCalls r,
      (∃ index p, x = bindCall index p) ∨ x = .step := by
    intro x hx
    rcases List.mem_append.mp hx with hx | hx
    · exact Or.inl (hbinds 1 params x hx)
    · exact Or.inr (List.eq_of_mem_replicate hx)
  cases h with
  | miscounted _ => exact nofun
  | unbound _ _ _ => exact fun x hx => Or.inl (hbinds 1 params x (List.mem_of_mem_take hx))
  | unstepped _ _ _ => exact hall
  | fetched _ _ _ => exact hall

theorem Prepared.returns_iff {answer : Except Fault Sql.Rows} (h : Prepared r params answer cs)
    (hcount : Int32.ofNat params.length = r.paramCount) :
    (∃ rows, answer = .ok rows) ↔ ¬ r.Reports 0 (cs ++ [.finalize]) := by
  have hall : r.Reports 0 (bindCalls 1 params ++ stepCalls r ++ [.finalize]) ↔
      (∃ k < params.length, r.Refuses (1 + k)) ∨ (r.endCode ≠ 100 ∧ r.endCode ≠ 101) := by
    rw [List.append_assoc, reports_bindCalls_append, stepCalls,
      reports_steps_append r 0 r.rows.length _ (Nat.zero_add _)]
    simp [Reply.Reports, Reply.Fails]
  cases h with
  | miscounted hmiscount => exact absurd hcount hmiscount
  | @unbound f k _ hk hrefuses =>
    refine iff_of_false nofun (not_not_intro ?_)
    rw [take_bindCalls, reports_bindCalls_append]
    refine Or.inl ⟨k, ?_, hrefuses⟩
    rw [List.length_take]
    omega
  | unstepped _ hbound hend =>
    exact iff_of_false nofun (not_not_intro (hall.mpr (Or.inr hend)))
  | fetched _ hbound hend =>
    refine iff_of_true ⟨_, rfl⟩ fun hreports => ?_
    rcases hall.mp hreports with ⟨k, hk, hrefuses⟩ | ⟨hrow, hdone⟩
    · exact hbound k hk hrefuses
    · exact hend.elim hrow hdone

/-- Every course of a statement settles what it was given. -/
theorem Course.settled {answer : Except Fault Sql.Rows} (h : Course r sql params answer cs)
    {view : Sql.Rows → Option Sql.Rows}
    (hcounted : r.Counted q → r.code = 0 → r.nullStatement = false →
      Int32.ofNat params.length = r.paramCount)
    (hgiven : view (if r.nullStatement then [] else r.rows) = r.given q) :
    Settled r q (answer.map view) cs := by
  have hok (answer : Except Fault Sql.Rows) :
      (∃ x, answer.map view = .ok x) ↔ ∃ rows, answer = .ok rows := by
    cases answer <;> simp [Except.map]
  cases h with
  | @unprepared f hcode =>
    refine ⟨by simp, by simp [hcode], by simp, fun _ _ => ?_, fun x hx => by cases hx⟩
    rw [hok]
    refine iff_of_false nofun (not_not_intro ?_)
    exact Or.inl hcode
  | empty hcode hnull =>
    refine ⟨by simp, by simp [hnull], by simp, fun _ _ => ?_, fun x hx => ?_⟩
    · rw [hok]
      exact iff_of_true ⟨_, rfl⟩ (by simp [Reply.Reports, Reply.Fails, hcode])
    · rw [← hgiven, if_pos hnull]
      exact (Except.ok.inj hx).symm
  | @prepared _ inner hcode hnull hrun =>
    -- Between preparing and finalizing there are no calls that prepare, finalize or close.
    have hinner := inner_of_prepared hrun
    have hnone (x : Call) (hbind : ∀ index p, x ≠ bindCall index p) (hstep : x ≠ .step) :
        x ∉ inner := fun hx => (hinner x hx).elim (fun ⟨index, p, h⟩ => hbind index p h) hstep
    have hclose : Call.close ∉ inner := hnone _ (fun _ p => by cases p <;> exact nofun) nofun
    have hfinalize : Call.finalize ∉ inner := hnone _ (fun _ p => by cases p <;> exact nofun) nofun
    have hprepares : inner.countP Call.prepares = 0 := by
      refine List.countP_eq_zero.mpr fun x hx => ?_
      rcases hinner x hx with ⟨index, p, rfl⟩ | rfl
      · cases p <;> exact Bool.false_ne_true
      · exact Bool.false_ne_true
    refine ⟨?_, ?_, ?_, ?_, ?_⟩
    · simp [hclose]
    · have hcount := List.count_eq_zero_of_not_mem hfinalize
      rw [if_pos ⟨hcode, hnull⟩]
      simp [List.countP_cons, hcount, hprepares, Call.prepares]
    · intro _
      rw [List.getLast?_append]
      rfl
    · intro _ hcheck
      rw [hok, hrun.returns_iff (hcounted hcheck hcode hnull), List.cons_append, Reply.Reports]
      simp [Reply.Fails, hcode]
    · intro x hx
      cases hrun with
      | miscounted _ => cases hx
      | unbound _ _ _ => cases hx
      | unstepped _ _ _ => cases hx
      | fetched _ _ _ =>
        rw [← hgiven, hnull]
        exact (Except.ok.inj hx).symm

theorem settled_of_execute {r : Reply} {sql : Bytes} {answer : Except Fault Unit}
    (h : answer = .ok () ↔ r.code = 0) :
    Settled r (.plain sql) (answer.map fun _ => none) [.execute sql.untilNul] where
  unclosed := by simp
  finalized := by simp [Call.prepares]
  last := by simp
  returns _ _ := by
    have hreports : r.Reports 0 [.execute sql.untilNul] ↔ r.code ≠ 0 := by
      simp [Reply.Reports, Reply.Fails]
    rw [hreports, not_not, ← h]
    cases answer with
    | ok _ => exact iff_of_true ⟨_, rfl⟩ rfl
    | error f => exact iff_of_false nofun nofun
  rows x hx := by
    cases answer with
    | ok _ => exact (Except.ok.inj hx).symm
    | error f => cases hx

theorem isHealthy_noted (s : Sqlite) (script : Script Reply) (calls : List Call)
    (message : Bytes) (c c' : ConnectionId) :
    isHealthy c' { s with
      script, calls, connections := s.connections.modify c fun x => { x with message } } =
      s.isHealthy c' := by
  simp only [isHealthy, Table.get?_modify]
  split <;> cases s.connections.get? c' <;> rfl

/-- A request settles what the library gave for it, and leaves every connection as healthy as it
was. -/
theorem settles_turn (path : Bytes) (timeout : Int32) (c : ConnectionId) (q : Request)
    (s : Sqlite) : Settles ((backend .whole path timeout).turn c q s) ∧
      ∀ c', ((backend .whole path timeout).turn c q s).after.isHealthy c' = s.isHealthy c' := by
  have hquery (sql : Bytes) (params : List Sql.Param) (view : Sql.Rows → Option Sql.Rows)
      (hsql : q.sql = sql)
      (hcounted : (s.replyTo sql).Counted q → (s.replyTo sql).code = 0 →
        (s.replyTo sql).nullStatement = false →
        Int32.ofNat params.length = (s.replyTo sql).paramCount)
      (hgiven : view (if (s.replyTo sql).nullStatement then [] else (s.replyTo sql).rows) =
        (s.replyTo sql).given q)
      (hrun : (backend .whole path timeout).turn c q s =
        ⟨q, s, ((query c sql params).run s).1.map view, ((query c sql params).run s).2⟩) :
      Settles ((backend .whole path timeout).turn c q s) ∧
        ∀ c', ((backend .whole path timeout).turn c q s).after.isHealthy c' =
          s.isHealthy c' := by
    obtain ⟨cs, hcourse, script, message, hafter⟩ := course_of_query c sql params s
    rw [hrun, hafter]
    refine ⟨⟨cs, rfl, ?_⟩, isHealthy_noted s script _ message c⟩
    show Settled (s.replyTo q.sql) q _ cs
    rw [hsql]
    exact hcourse.settled hcounted hgiven
  have hturn {α : Type} (x : Action Sqlite α) (view : α → Option Sql.Rows)
      (h : (backend .whole path timeout).submit c q = x >>= fun a => pure (view a)) :
      (backend .whole path timeout).turn c q s =
        ⟨q, s, (x.run s).1.map view, (x.run s).2⟩ := by
    rw [Backend.turn, h, Action.run_bind]
    rcases x.run s with ⟨_ | _, _⟩ <;> rfl
  cases q with
  | plain sql =>
    obtain ⟨answer, script, hrun, hcode⟩ := run_execute c sql s
    rw [hturn (execute c sql) (fun _ => none) rfl, hrun]
    exact ⟨⟨_, rfl, settled_of_execute hcode⟩, fun _ => rfl⟩
  | bound sql params =>
    exact hquery sql params (fun _ => none) rfl (fun h => h) rfl (hturn _ _ rfl)
  | rows sql params => exact hquery sql params some rfl (fun h => h) rfl (hturn _ _ rfl)

/-! ## Opening and closing -/

/-- Calls were made since, none of them to close a handle, and the connection is as healthy as
said. -/
def Since (calls : List Call) (c : ConnectionId) (healthy : Bool) (s : Sqlite) : Prop :=
  (∃ cs, s.calls = calls ++ cs ∧ .close ∉ cs) ∧ s.isHealthy c = healthy

theorem Since.made {calls : List Call} {c : ConnectionId} {healthy : Bool} {s t : Sqlite}
    (h : Since calls c healthy s) (cs : List Call) (ht : t.calls = s.calls ++ cs)
    (hcs : .close ∉ cs) (hhealthy : t.isHealthy c = s.isHealthy c) :
    Since calls c healthy t := by
  obtain ⟨⟨before, hbefore, hopen⟩, hs⟩ := h
  refine ⟨⟨before ++ cs, ?_, ?_⟩, hhealthy.trans hs⟩
  · rw [ht, hbefore, List.append_assoc]
  · rw [List.mem_append]
    exact fun hmem => hmem.elim hopen hcs

theorem configure_since (calls : List Call) (c : ConnectionId) (healthy : Bool)
    (timeout : Int32) : (configure c timeout).Meets (Since calls c healthy)
      (fun _ => Since calls c healthy) fun _ => Since calls c healthy := by
  have hexecute (sql : Bytes) : (execute c sql).Meets (Since calls c healthy)
      (fun _ => Since calls c healthy) fun _ => Since calls c healthy := by
    intro s hs
    obtain ⟨answer, script, hrun, -⟩ := run_execute c sql s
    rw [hrun]
    cases answer <;> exact hs.made [.execute sql.untilNul] rfl (by simp) rfl
  have htimeout : (call (.busyTimeout timeout)).Meets (Since calls c healthy)
      (fun _ => Since calls c healthy) fun _ => Since calls c healthy :=
    fun s hs => hs.made [.busyTimeout timeout] rfl (by simp) rfl
  have hread : (Action.read Sqlite.opening).Meets (Since calls c healthy)
      (fun _ => Since calls c healthy) fun _ => Since calls c healthy := fun s hs => hs
  have hmessage (message : Bytes) : (setMessage c message).Meets (Since calls c healthy)
      (fun _ => Since calls c healthy) fun _ => Since calls c healthy :=
    fun s hs => hs.made [] (List.append_nil _).symm List.not_mem_nil
      (isHealthy_noted s s.script s.calls message c c)
  refine .bind (.forEach fun sql _ => hexecute sql) fun _ => .bind htimeout fun _ =>
    .bind hread fun opening => .bind (hmessage opening.busyMessage) fun _ => ?_
  split
  · exact fun s hs => hs
  · exact .pure fun s hs => hs

/-- Calls were made since, and the last of them, and no other, closed a handle. -/
def Closed (calls : List Call) (s : Sqlite) : Prop :=
  ∃ cs, s.calls = calls ++ cs ++ [.close] ∧ .close ∉ cs

theorem Since.closed {calls : List Call} {c : ConnectionId} {healthy : Bool} {s t : Sqlite}
    (h : Since calls c healthy s) (ht : t.calls = s.calls ++ [.close]) : Closed calls t := by
  obtain ⟨⟨cs, hcs, hopen⟩, -⟩ := h
  exact ⟨cs, by rw [ht, hcs], hopen⟩

/-- Once there is a handle, an opening that fails closes it, and one that succeeds keeps it. -/
theorem connect_cases (path : Bytes) (timeout : Int32) {s : Sqlite}
    (hhandle : s.opening.nullHandle = false) :
    (∃ f t, (connect path timeout).run s = (.error f, t) ∧ Closed s.calls t) ∨
      ∃ c t, (connect path timeout).run s = (.ok c, t) ∧ Since s.calls c true t := by
  by_cases hcode : s.opening.code = 0
  · generalize hopened : ({ s with
      calls := s.calls ++ [.openDatabase path.untilNul openFlags]
      next := s.next + 1
      connections := s.connections.insert s.next
        { hasHandle := !s.opening.nullHandle, message := s.opening.message } } : Sqlite) = t
    have hsince : Since s.calls s.next true t := by
      subst hopened
      refine ⟨⟨_, rfl, by simp⟩, ?_⟩
      simp [isHealthy, hhandle]
    have hrun : (connect path timeout).run s =
        (((configure s.next timeout).onFailure fun _ => discard s.next) >>=
          fun _ => pure s.next).run t := by
      subst hopened
      simp only [connect, Action.run_bind, run_call, Action.run_read, made, hcode, ne_eq,
        not_true_eq_false, if_false, Action.run_update]
    -- The handle is there now, and only configuring it may fail.
    have hconfigured := configure_since s.calls s.next true timeout
    rw [hrun, Action.run_bind, Action.run_onFailure]
    rcases hend : (configure s.next timeout).run t with ⟨f | _, u⟩
    · exact Or.inl ⟨f, _, rfl, (hconfigured.bad_of_run hsince hend).closed rfl⟩
    · exact Or.inr ⟨s.next, u, rfl, hconfigured.ok_of_run hsince hend⟩
  · have hrun : (connect path timeout).run s =
        (.error (.of .connection [ascii "sqlite open '", path, ascii "': ",
            s.opening.message.untilNul]),
          { s with calls := s.calls ++ [.openDatabase path.untilNul openFlags] ++ [.close] }) := by
      simp [connect, Action.run_bind, made, hcode, hhandle]
    exact Or.inl ⟨_, _, hrun, _, rfl, by simp⟩

/-- What a connection makes of all it gets from the library. -/
structure Released (path : Bytes) (timeout : Int32) (requests : List Request) (s : Sqlite) :
    Prop where
  /-- The handle is closed once and last. -/
  closed : s.opening.nullHandle = false →
    Closed s.calls ((backend .whole path timeout).live requests s).2
  settled : ∀ turn ∈ ((backend .whole path timeout).live requests s).1, Settles turn

/-- A connection releases whatever it gets. -/
theorem released (path : Bytes) (timeout : Int32) (requests : List Request) (s : Sqlite) :
    Released path timeout requests s where
  closed hhandle := by
    rcases connect_cases path timeout hhandle with ⟨f, t, hrun, hclosed⟩ | ⟨c, t, hrun, hsince⟩
    · have hconnect : (backend .whole path timeout).connect.run s = (.error f, t) := hrun
      rw [Backend.live_of_error requests hconnect]
      exact hclosed
    · have hconnect : (backend .whole path timeout).connect.run s = (.ok c, t) := hrun
      have hstep (q : Request) (u : Sqlite) (hu : Since s.calls c true u) :
          Since s.calls c true ((backend .whole path timeout).turn c q u).after := by
        obtain ⟨⟨cs, hcalls, hsettled⟩, hhealthy⟩ := settles_turn path timeout c q u
        exact hu.made cs hcalls hsettled.unclosed (hhealthy c)
      have hend := (Backend.serve_spec (backend .whole path timeout) c (Since s.calls c true)
        (fun _ => True) (fun q u hu => ⟨hstep q u hu, trivial⟩) requests hsince).2
      rw [Backend.live_of_ok requests hconnect]
      exact hend.closed (congrArg Sqlite.calls (if_pos hend.2))
  settled := by
    rcases hconnect : (backend .whole path timeout).connect.run s with ⟨f | c, t⟩
    · rw [Backend.live_of_error requests hconnect]
      exact fun turn hturn => absurd hturn List.not_mem_nil
    · have hstep (q : Request) (u : Sqlite) := (settles_turn path timeout c q u).1
      rw [Backend.live_of_ok requests hconnect]
      exact (Backend.serve_spec (backend .whole path timeout) c (fun _ => True) Settles
        (fun q u _ => ⟨trivial, hstep q u⟩) requests trivial).1

end Sqlite

namespace Mysql

variable {r : Reply} {q : Request} {cs : List Call} {answer : Except Fault (Option Sql.Rows)}

/-! ## MySQL -/

/-- Whether the library reports a failure to a call. -/
def Reply.Fails (r : Reply) : Call → Prop
  | .query _ => r.code ≠ 0
  | .storeResult => r.rows = none ∧ r.fieldCount ≠ 0
  | _ => False

/-- The number of columns of the stored result. -/
def Reply.width (r : Reply) : Nat :=
  r.columns.getD (((r.rows.getD []).head?.map List.length).getD 0)

/-- Rows come back in order, and cell by cell: no null becomes a text, nor a text a null. -/
structure Reply.Returned (r : Reply) (stored returned : Sql.Rows) : Prop where
  count : returned.length = stored.length
  /-- The cells of a result are those of its columns. -/
  cells : ∀ (i j : Nat) (row : Sql.Row) (cell : Option Bytes), stored[i]? = some row →
    row[j]? = some cell → j < r.width →
      ∃ row' : Sql.Row, returned[i]? = some row' ∧ row'[j]? = some cell
  whole : (∀ row ∈ stored, row.length = r.width) → returned = stored

/-- What a request gives back when it returns: the rows of the stored result, if there is one. -/
def Reply.Gives (r : Reply) (q : Request) (answer : Option Sql.Rows) : Prop :=
  match q with
  | .plain _ => answer = none
  | .bound _ _ => answer = none
  | .rows _ _ => ∃ returned, answer = some returned ∧ r.Returned (r.rows.getD []) returned

/-- What the calls for a request come to. -/
structure Settled (r : Reply) (broken : Bool) (q : Request)
    (answer : Except Fault (Option Sql.Rows)) (cs : List Call) : Prop where
  unclosed : .close ∉ cs
  /-- A result that is stored is freed once. -/
  freed : cs.count .freeResult = if r.rows.isSome then cs.count .storeResult else 0
  last : .freeResult ∈ cs → cs.getLast? = some .freeResult
  returns : broken = false → q.Matched → ((∃ x, answer = .ok x) ↔ ∀ x ∈ cs, ¬ r.Fails x)
  rows : ∀ x, answer = .ok x → r.Gives q x

theorem returned_table (r : Reply) : r.Returned (r.rows.getD []) r.table where
  count := by simp [Reply.table]
  cells i j row cell hi hj hwidth := by
    refine ⟨(List.range r.width).map fun k => row[k]?.join, ?_, ?_⟩
    · simp only [Reply.table, List.getElem?_map, hi, Option.map_some]
      rfl
    · rw [List.getElem?_map, List.getElem?_range hwidth, Option.map_some, hj]
      rfl
  whole h := by
    have hrow : ∀ row ∈ r.rows.getD [], ((List.range r.width).map fun k => row[k]?.join) = row := by
      intro row hmem
      refine List.ext_getElem? fun k => ?_
      rw [List.getElem?_map, ← h row hmem]
      by_cases hk : k < row.length
      · rw [List.getElem?_range hk, Option.map_some, List.getElem?_eq_getElem hk]
        rfl
      · rw [List.getElem?_eq_none (by simpa using hk), List.getElem?_eq_none (by simpa using hk)]
        rfl
    exact (List.map_congr_left hrow).trans (List.map_id _)

/-- What the library says to a request, if its parameters can be written into the statement. -/
def replyFor (q : Request) (s : Mysql) : Reply :=
  match q.sentAs quote with
  | .ok text => s.replyTo text
  | .error _ => {}

/-- A turn settles what the library gave for its request. -/
def Settles (turn : Turn Mysql) : Prop :=
  ∃ cs, turn.after.calls = turn.before.calls ++ cs ∧
    Settled (turn.before.replyFor turn.request) turn.before.broken turn.request turn.answer cs

/-- Every course of a statement settles what it was given. -/
theorem Course.settled {sql : Bytes} {answer : Except Fault (Option Reply)}
    (h : Course r sql answer cs) (broken : Bool) :
    Settled r broken q (answer.map fun stored => q.answer (rowsOf stored)) cs := by
  have hgives (stored : Option Reply) (rows : Sql.Rows)
      (hrows : rowsOf stored = rows)
      (hreturned : r.Returned (r.rows.getD []) rows) (x : Option Sql.Rows)
      (hx : (Except.ok (q.answer (rowsOf stored)) : Except Fault (Option Sql.Rows)) = .ok x) :
      r.Gives q x := by
    cases hx
    cases q with
    | plain _ => exact rfl
    | bound _ _ => exact rfl
    | rows _ _ => exact ⟨rows, congrArg some hrows, hreturned⟩
  cases h with
  | refused hcode =>
    refine ⟨by simp, by simp, by simp, fun _ _ => ?_, fun x hx => by cases hx⟩
    exact iff_of_false nofun fun hall => hall _ List.mem_cons_self hcode
  | unstored hcode hrows hfields =>
    refine ⟨by simp, by simp [hrows], by simp, fun _ _ => ?_, fun x hx => by cases hx⟩
    exact iff_of_false nofun fun hall =>
      hall .storeResult (List.mem_cons_of_mem _ List.mem_cons_self) ⟨hrows, hfields⟩
  | empty hcode hrows hfields =>
    refine ⟨by simp, by simp [hrows], by simp, fun _ _ => ?_, fun x hx => ?_⟩
    · exact iff_of_true ⟨_, rfl⟩ (by simp [Reply.Fails, hcode, hfields])
    · have hnone : r.Returned (r.rows.getD []) [] := by
        rw [hrows]
        exact ⟨rfl, nofun, fun _ => rfl⟩
      exact hgives none [] rfl hnone x hx
  | stored hcode hrows =>
    refine ⟨by simp, by simp [hrows], by simp, fun _ _ => ?_, fun x hx => ?_⟩
    · exact iff_of_true ⟨_, rfl⟩ (by simp [Reply.Fails, hcode, hrows])
    · exact hgives (some r) r.table rfl (returned_table r) x hx

theorem settles_turn (o : Options) (q : Request) {s : Mysql} (hc : s.connected = true) :
    Settles ((backend o).turn () q s) ∧ ((backend o).turn () q s).after.connected = true := by
  have hnothing {f : Fault} (hfails : s.broken = false → ¬ q.Matched)
      (hrun : ((backend o).submit () q).run s = (.error f, s)) :
      Settles ((backend o).turn () q s) ∧ ((backend o).turn () q s).after.connected = true := by
    rw [Backend.turn, hrun]
    refine ⟨⟨[], (List.append_nil _).symm, ?_⟩, hc⟩
    exact ⟨List.not_mem_nil, by simp, nofun, fun hb hq => absurd hq (hfails hb),
      fun x hx => by cases hx⟩
  -- Nothing is sent if the request cannot be written, or on a connection that is broken.
  rcases q.sentAs_cases quote with ⟨sql, htext⟩ | ⟨f, htext, -, hnot⟩
  · have hsubmit := run_submit o s htext
    by_cases hb : s.broken = true
    · obtain ⟨f, hf, -⟩ := exchange_of_closed (s := s) sql (by rw [hc, hb]; rfl)
      refine hnothing (fun hnot => ?_) (hsubmit.trans (by rw [hf]; rfl))
      rw [hb] at hnot
      cases hnot
    · obtain ⟨cs, hcourse, script, failure, broken, hafter, -⟩ :=
        course_of_exchange sql hc (Bool.not_eq_true _ ▸ hb)
      have hreply : s.replyFor q = s.replyTo sql := by rw [replyFor, htext]
      rw [Backend.turn, hsubmit, hafter]
      refine ⟨⟨cs, rfl, ?_⟩, hc⟩
      show Settled (s.replyFor q) s.broken q _ cs
      rw [hreply]
      exact hcourse.settled s.broken
  · exact hnothing (fun _ => hnot) (run_submit_of_error o s htext)

/-- Calls were made, none of them to close a handle, and the connection is open. -/
def Unclosed (s : Mysql) : Prop := .close ∉ s.calls ∧ s.connected = true

/-- An opening that fails closes the handle it was given. -/
theorem connect_cases (o : Options) {opening : Opening} (script : Script Reply)
    (hhandle : opening.noHandle = false) :
    (∃ f cs t, (connect o).run { opening, script } = (.error f, t) ∧
        t.calls = cs ++ [.close] ∧ .close ∉ cs) ∨
      ∃ t, (connect o).run { opening, script } = (.ok (), t) ∧ Unclosed t := by
  cases hfails : opening.fails with
  | true =>
    refine Or.inl ⟨.of .connection [ascii "mysql connect: ", opening.failure.message.untilNul],
      [.init, .optionTimeout o.timeout.toUInt64.toUInt32, .optionCharset (ascii "utf8mb4"),
        .connect (textOrNull o.host) (textOrNull o.user) (textOrNull o.password)
          (textOrNull o.database) o.tcpPort (textOrNull o.unixSocket)], ?_⟩
    simp [connect, call, Action.run_bind, hhandle, hfails]
  | false =>
    refine Or.inr ?_
    simp [connect, call, Action.run_bind, hhandle, hfails, Unclosed]

/-- What a connection makes of all it gets from the library. -/
structure Released (o : Options) (requests : List Request) (opening : Opening)
    (script : Script Reply) : Prop where
  /-- The handle is closed once and last. -/
  closed : opening.noHandle = false →
    ∃ cs, ((backend o).live requests { opening, script }).2.calls = cs ++ [.close] ∧ .close ∉ cs
  settled : ∀ turn ∈ ((backend o).live requests { opening, script }).1, Settles turn

theorem unclosed_of_connect {o : Options} {opening : Opening} {script : Script Reply} {t : Mysql}
    (h : (connect o).run { opening, script } = (.ok (), t)) : Unclosed t := by
  cases hhandle : opening.noHandle with
  | true =>
    have hrun : (connect o).run { opening, script } =
        (.error (.of .connection [ascii "mysql_init failed: out of memory"]),
          { opening, script, calls := [.init] }) := by
      simp [connect, call, Action.run_bind, hhandle]
    rw [h] at hrun
    cases hrun
  | false =>
    rcases connect_cases o script hhandle with ⟨f, cs, u, hf, -⟩ | ⟨u, hu, hunclosed⟩
    · rw [h] at hf
      cases hf
    · rw [h] at hu
      cases hu
      exact hunclosed

/-- A connection releases whatever it gets. -/
theorem released (o : Options) (requests : List Request) (opening : Opening)
    (script : Script Reply) : Released o requests opening script := by
  have hserve {s : Mysql} (hs : Unclosed s) :
      (∀ turn ∈ ((backend o).serve () requests s).1, Settles turn) ∧
        Unclosed ((backend o).serve () requests s).2 := by
    refine Backend.serve_spec (backend o) () Unclosed Settles (fun q t ht => ?_) requests hs
    obtain ⟨⟨cs, hcalls, hsettled⟩, hconnected⟩ := settles_turn o q ht.2
    have hopen : Call.close ∉ ((backend o).turn () q t).after.calls := by
      rw [hcalls, List.mem_append]
      exact fun hmem => hmem.elim ht.1 hsettled.unclosed
    exact ⟨⟨hopen, hconnected⟩, ⟨cs, hcalls, hsettled⟩⟩
  constructor
  · intro hhandle
    rcases connect_cases o script hhandle with ⟨f, cs, t, hrun, hclosed⟩ | ⟨t, hrun, hunclosed⟩
    · rw [Backend.live_of_error (b := backend o) requests hrun]
      exact ⟨cs, hclosed⟩
    · rw [Backend.live_of_ok (b := backend o) requests hrun]
      exact ⟨_, rfl, (hserve hunclosed).2.1⟩
  · rcases hrun : (connect o).run { opening, script } with ⟨f | c, t⟩
    · rw [Backend.live_of_error (b := backend o) requests hrun]
      exact fun turn hturn => absurd hturn List.not_mem_nil
    · rw [Backend.live_of_ok (b := backend o) requests hrun]
      exact (hserve (unclosed_of_connect hrun)).1

end Mysql

/-- Connections of either library release what they obtain and report what fails, whatever the
library does and whatever they are asked. -/
theorem released_whatever_fails (requests : List Request) (path : Bytes) (timeout : Int32)
    (s : Sqlite) (o : Mysql.Options) (opening : Mysql.Opening) (script : Script Mysql.Reply) :
    Sqlite.Released path timeout requests s ∧ Mysql.Released o requests opening script :=
  ⟨Sqlite.released path timeout requests s, Mysql.released o requests opening script⟩

end Client
end Coordinator

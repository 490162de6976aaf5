import Coordinator.Host
import Coordinator.Proofs.Plant.Gateway
import Coordinator.Proofs.Pool.Lost

/-! # Connections that lose their server

Connections to an engine and connections to a MySQL server mark themselves when a statement fails
for want of the server, and send nothing after that.  So **they stand as a pool needs it**
(`Host.standings`, `Mysql.Fleet.standings`): whatever an engine does between statements and around
them, and whatever a MySQL server answers, a connection that failed so once is of no more use, and
a pool destroys it. -/
namespace Coordinator

open Pool (Standing Standings StaysLost Scene)

/-! ## Connections to an engine -/

namespace Host

variable {h h' : Host} {c d : Engine.ConnectionId} {sql : Bytes} {q : Request}

/-- How a connection stands: its number was given out, and it has a link until it is closed. -/
def standing (c : Engine.ConnectionId) (h : Host) : Standing :=
  if h.engine.nextConnection ≤ c then .unopened
  else match h.links.get? c with
    | none => .destroyed
    | some link => if link.broken then .lost else .usable

/-- The engine is what something else made of it; but numbers of connections are not given out
twice. -/
def become (e : Engine) (h : Host) : Host :=
  { h with engine := { e with nextConnection := max h.engine.nextConnection e.nextConnection } }

/-- What happens around an engine before it runs a statement: the engine may change, and the
statement may fail. -/
def around (hook : Bytes → Host → Except Fault Unit × Engine) (sql : Bytes) : Action Host Unit :=
  fun h => ((hook sql h).1, h.become (hook sql h).2)

theorem standing_eq_usable : standing c h = .usable ↔
    c < h.engine.nextConnection ∧ ∃ link, h.links.get? c = some link ∧ link.broken = false := by
  unfold standing
  split
  · next hle => simp [Nat.not_lt.mpr hle]
  · next hle =>
    cases hlink : h.links.get? c with
    | none => simp
    | some link => cases hbroken : link.broken <;> simp [hbroken, Nat.lt_of_not_le hle]

theorem standing_eq_lost : standing c h = .lost ↔
    c < h.engine.nextConnection ∧ ∃ link, h.links.get? c = some link ∧ link.broken = true := by
  unfold standing
  split
  · next hle => simp [Nat.not_lt.mpr hle]
  · next hle =>
    cases hlink : h.links.get? c with
    | none => simp
    | some link => cases hbroken : link.broken <;> simp [hbroken, Nat.lt_of_not_le hle]

/-- What does not concern the link of a connection leaves it as it stands. -/
theorem standing_of_link (hnext : h.engine.nextConnection ≤ h'.engine.nextConnection)
    (hlink : h'.links.get? d = h.links.get? d) (hopened : standing d h ≠ .unopened) :
    standing d h' = standing d h := by
  have hlt : ¬ h.engine.nextConnection ≤ d := fun hle => hopened (if_pos hle)
  have hlt' : ¬ h'.engine.nextConnection ≤ d := fun hle => hlt (hnext.trans hle)
  rw [standing, standing, if_neg hlt, if_neg hlt', hlink]

theorem isBroken_of_lost (hlost : standing c h = .lost) : h.isBroken c = true := by
  obtain ⟨-, link, hlink, hbroken⟩ := standing_eq_lost.mp hlost
  rw [isBroken, hlink]
  exact hbroken

theorem isBroken_of_usable (husable : standing c h = .usable) : h.isBroken c = false := by
  obtain ⟨-, link, hlink, hbroken⟩ := standing_eq_usable.mp husable
  rw [isBroken, hlink]
  exact hbroken

/-- Nothing that happens around and in the engine touches the links. -/
structure Apart (h h' : Host) : Prop where
  links : h'.links = h.links
  next : h.engine.nextConnection ≤ h'.engine.nextConnection

theorem next_run (c : Engine.ConnectionId) (sql : Bytes) (e : Engine) :
    ((Engine.run c sql).run e).2.nextConnection = e.nextConnection := by
  rcases hr : (Engine.run c sql).run e with ⟨f | rows, e'⟩
  · obtain ⟨statements, injected, rfl⟩ := Engine.run_error hr
    rfl
  · obtain ⟨⟨statements, branches, committed, rfl⟩, -⟩ := Engine.branches_of_run_ok hr
    rfl

/-- What a statement comes to on a connection that is not broken. -/
theorem send_cases (hook : Bytes → Host → Except Fault Unit × Engine) (sql : Bytes)
    (hbroken : h.isBroken c = false) :
    (∃ rows h', (send .whole (around hook) c sql).run h = (.ok rows, h') ∧ Apart h h') ∨
      ∃ f h', (send .whole (around hook) c sql).run h = (.error f, noteFailure c f h') ∧
        Apart h h' := by
  generalize hx : (do
    around hook sql
    (Cell.whole.within engineCell).run (Engine.run c sql) : Action Host Sql.Rows) = x
  -- Neither what happens around the engine nor the engine itself knows of the links.
  have hapart : Apart h (x.run h).2 := by
    have haround : (around hook sql).run h = ((hook sql h).1, h.become (hook sql h).2) := rfl
    have hengine (h : Host) : ((Cell.whole.within engineCell).run (Engine.run c sql)).run h =
        (((Engine.run c sql).run h.engine).1,
          { h with engine := ((Engine.run c sql).run h.engine).2 }) := rfl
    rw [← hx, Action.run_bind, haround]
    rcases (hook sql h).1 with f | _
    · exact ⟨rfl, Nat.le_max_left _ _⟩
    · dsimp only
      rw [hengine]
      refine ⟨rfl, ?_⟩
      show h.engine.nextConnection ≤
        ((Engine.run c sql).run (h.become (hook sql h).2).engine).2.nextConnection
      rw [next_run]
      exact Nat.le_max_left _ _
  have hsend : (send .whole (around hook) c sql).run h =
      (x.onFailure fun f => Cell.whole.modify (noteFailure c f)).run h := by
    have hread : (Action.read fun h => (Cell.whole.get h).isBroken c).run h = (.ok false, h) :=
      congrArg (fun broken => (Except.ok broken, h)) hbroken
    rw [send, Action.run_bind, hread, ← hx]
    rfl
  rw [hsend, Action.run_onFailure]
  rcases hr : x.run h with ⟨f | rows, h'⟩
  · rw [hr] at hapart
    exact Or.inr ⟨f, h', rfl, hapart⟩
  · rw [hr] at hapart
    exact Or.inl ⟨rows, h', rfl, hapart⟩

theorem submit_eq (interrupt : Bytes → Action Host Unit) (c : Engine.ConnectionId) (q : Request) :
    (backend .whole interrupt).submit c q = .ofExcept (q.sentAs Sql.Literal.quote) >>= fun sql =>
      send .whole interrupt c sql >>= fun rows => pure (q.answer rows) := by
  have hquery (sql : Bytes) (params : List Sql.Param) (view : Sql.Rows → Option Sql.Rows) :
      (query .whole interrupt c sql params >>= fun rows => pure (view rows)) =
        .ofExcept (if params.isEmpty then .ok sql else (Sql.Template.bind Sql.Literal.quote sql
          params).mapError Sql.Template.BindFault.fault) >>= fun sql =>
            send .whole interrupt c sql >>= fun rows => pure (view rows) := by
    unfold query
    split
    · rw [Action.ofExcept, pure_bind]
    · rw [bind_assoc]
  cases q with
  | plain sql =>
    show ((send .whole interrupt c sql >>= fun _ => pure ()) >>= fun _ => pure none) =
      .ofExcept (.ok sql) >>= _
    rw [bind_assoc, Action.ofExcept, pure_bind]
    rfl
  | bound sql params => exact hquery sql params fun _ => none
  | rows sql params => exact hquery sql params some

/-- A request comes to what the statement that it is sent as comes to. -/
theorem run_submit {interrupt : Bytes → Action Host Unit} (c : Engine.ConnectionId)
    (hsql : q.sentAs Sql.Literal.quote = .ok sql) :
    ((backend .whole interrupt).submit c q).run h =
      (((send .whole interrupt c sql).run h).1.map q.answer,
        ((send .whole interrupt c sql).run h).2) := by
  rw [submit_eq, hsql, Action.ofExcept, pure_bind, Action.run_bind]
  rcases (send .whole interrupt c sql).run h with ⟨_ | _, _⟩ <;> rfl

/-- One that cannot be written comes to nothing. -/
theorem run_submit_of_error {interrupt : Bytes → Action Host Unit} {f : Fault}
    (c : Engine.ConnectionId) (hf : q.sentAs Sql.Literal.quote = .error f) :
    ((backend .whole interrupt).submit c q).run h = (.error f, h) := by
  rw [submit_eq, hf]
  rfl

theorem Apart.refl (h : Host) : Apart h h := ⟨rfl, Nat.le_refl _⟩

/-- What a request comes to on a connection that is not broken: a failure for want of the server
breaks it. -/
theorem submit_cases (hook : Bytes → Host → Except Fault Unit × Engine) (q : Request)
    (hbroken : h.isBroken c = false) : ∃ h', Apart h h' ∧
      ((∃ answer, ((backend .whole (around hook)).submit c q).run h = (.ok answer, h')) ∨
        ∃ f, ((backend .whole (around hook)).submit c q).run h =
          (.error f, noteFailure c f h')) := by
  rcases q.sentAs_cases Sql.Literal.quote with ⟨sql, hsql⟩ | ⟨f, hf, hfatal, -⟩
  · rw [run_submit c hsql]
    rcases send_cases hook sql hbroken with ⟨rows, h', hrun, hapart⟩ | ⟨f, h', hrun, hapart⟩
    · rw [hrun]
      exact ⟨h', hapart, Or.inl ⟨_, rfl⟩⟩
    · rw [hrun]
      exact ⟨h', hapart, Or.inr ⟨f, rfl⟩⟩
  · have hnoted : noteFailure c f h = h := if_neg (by rw [hfatal]; exact nofun)
    refine ⟨h, .refl h, Or.inr ⟨f, ?_⟩⟩
    rw [run_submit_of_error c hf, hnoted]

theorem standing_of_apart (hapart : Apart h h') (hopened : standing d h ≠ .unopened) :
    standing d h' = standing d h :=
  standing_of_link hapart.next (by rw [hapart.links]) hopened

theorem standing_noteFailure (f : Fault) (hne : d ≠ c) :
    standing d (noteFailure c f h) = standing d h := by
  unfold noteFailure
  split
  · simp only [standing, Table.get?_modify, if_neg hne]
  · rfl

/-- Whether a failure breaks a connection is a matter of its kind. -/
theorem standing_noteFailure_self (f : Fault) (husable : standing c h = .usable) :
    standing c (noteFailure c f h) = if f.kind = .connection then .lost else .usable := by
  obtain ⟨hlt, link, hlink, hbroken⟩ := standing_eq_usable.mp husable
  unfold noteFailure
  split
  · refine standing_eq_lost.mpr ⟨hlt, { link with broken := true }, ?_, rfl⟩
    rw [Table.get?_modify, if_pos rfl, hlink]
    rfl
  · exact husable

/-- A broken connection takes no request. -/
theorem submit_of_broken (interrupt : Bytes → Action Host Unit) (q : Request)
    (hbroken : h.isBroken c = true) :
    ∃ f, ((backend .whole interrupt).submit c q).run h = (.error f, h) ∧
      (q.Matched → f.kind = .connection) := by
  rcases q.sentAs_cases Sql.Literal.quote with ⟨sql, hsql⟩ | ⟨f, hf, -, hnot⟩
  · have hsend : (send .whole interrupt c sql).run h = (.error (brokenFault c), h) := by
      have hread : (Action.read fun h => (Cell.whole.get h).isBroken c).run h = (.ok true, h) :=
        congrArg (fun broken => (Except.ok broken, h)) hbroken
      rw [send, Action.run_bind, hread]
      rfl
    refine ⟨brokenFault c, ?_, fun _ => rfl⟩
    rw [run_submit c hsql, hsend]
    rfl
  · exact ⟨f, run_submit_of_error c hf, fun h => absurd h hnot⟩

theorem standing_close (hopened : standing c h ≠ .unopened) :
    standing c (h.close c) = .destroyed := by
  have hlt : ¬ h.engine.nextConnection ≤ c := fun hle => hopened (if_pos hle)
  show (if h.engine.nextConnection ≤ c then Standing.unopened else _) = _
  rw [if_neg hlt, close, Table.get?_erase, if_pos rfl]

theorem standing_poison (c d : Engine.ConnectionId) (h : Host) :
    standing d (h.poison c) = standing d h := by
  unfold standing poison
  simp only [Table.get?_modify]
  by_cases hd : d = c
  · rw [if_pos hd]
    cases h.links.get? d <;> rfl
  · rw [if_neg hd]

/-- Connections to an engine stand as a pool needs it, whatever happens to the engine and around
it. -/
def standings (hook : Bytes → Host → Except Fault Unit × Engine) :
    Standings (backend .whole (around hook)) become where
  of := standing
  connect := by
    intro s t c hr
    have hconnect : connect.run s = (.ok c, t) := hr
    rw [Plant.connect_run_host] at hconnect
    split at hconnect
    · cases hconnect
      refine ⟨if_pos (Nat.le_refl _), standing_eq_usable.mpr ⟨Nat.lt_succ_self _, {}, ?_, rfl⟩,
        fun d hd hopened => standing_of_link (Nat.le_succ _) ?_ hopened⟩
      · exact (Table.get?_insert ..).trans (if_pos rfl)
      · exact (Table.get?_insert ..).trans (if_neg hd)
    · cases hconnect
  connect_failed := by
    intro s t f hr d _
    have hconnect : connect.run s = (.error f, t) := hr
    rw [Plant.connect_run_host] at hconnect
    split at hconnect <;> cases hconnect
    rfl
  submit_usable := by
    intro s c q husable
    have hopened : standing c s ≠ .unopened := by rw [husable]; exact nofun
    obtain ⟨h', hapart, ⟨answer, hr⟩ | ⟨f, hr⟩⟩ :=
      submit_cases hook q (isBroken_of_usable husable)
    · rw [hr]
      exact Or.inl ⟨(standing_of_apart hapart hopened).trans husable, nofun⟩
    · have husable' := (standing_of_apart hapart hopened).trans husable
      rw [hr]
      dsimp only
      rw [standing_noteFailure_self f husable']
      by_cases hkind : f.kind = .connection
      · exact Or.inr ⟨if_pos hkind, f, rfl, hkind⟩
      · refine Or.inl ⟨if_neg hkind, fun f' hf' => ?_⟩
        cases hf'
        exact hkind
  submit_others := by
    intro s c q d hne hopened
    cases hbroken : s.isBroken c with
    | true =>
      obtain ⟨f, hf, -⟩ := submit_of_broken (around hook) q hbroken
      rw [hf]
    | false =>
      obtain ⟨h', hapart, ⟨answer, hr⟩ | ⟨f, hr⟩⟩ := submit_cases hook q hbroken
      · rw [hr]
        exact standing_of_apart hapart hopened
      · rw [hr]
        exact (standing_noteFailure f hne).trans (standing_of_apart hapart hopened)
  submit_lost q hlost := submit_of_broken (around hook) q (isBroken_of_lost hlost)
  unhealthy := by
    intro s c hlost
    show (!s.isBroken c && s.engine.available) = false
    rw [isBroken_of_lost hlost]
    rfl
  close hopened := standing_close hopened
  close_others s c d hne hopened := by
    have hlink : (s.close c).links.get? d = s.links.get? d := by
      rw [close, Table.get?_erase, if_neg hne]
    exact standing_of_link (Nat.le_refl _) hlink hopened
  poison s c d _ := standing_poison c d s
  weather e s d hopened := standing_of_apart ⟨rfl, Nat.le_max_left _ _⟩ hopened

end Host

/-! ## Connections to a MySQL server -/

namespace Client.Mysql

/-- Connections to a MySQL server, by number, and how the library will open the next one. -/
structure Fleet where
  connections : Table Nat Mysql := ∅
  next : Nat := 0
  opening : Opening := {}
  script : Script Reply := []

/-- What the server does by itself: it comes to answer differently, to one connection or to new
ones. -/
inductive Weather
  | answering (c : Nat) (script : Script Reply)
  | opening (opening : Opening) (script : Script Reply)

namespace Fleet

variable {s : Fleet} {m : Mysql} {c d : Nat} {q : Request}

def cell (c : Nat) : Cell Fleet Mysql where
  get s := (s.connections.get? c).getD {}
  set m s := { s with connections := s.connections.modify c fun _ => m }

def connect (o : Options) : Action Fleet Nat := fun s =>
  match (Mysql.connect o).run { opening := s.opening, script := s.script } with
  | (.ok _, m) =>
    (.ok s.next, { s with connections := s.connections.insert s.next m, next := s.next + 1 })
  | (.error f, _) => (.error f, s)

/-- The connections as a backend. -/
def backend (o : Options) : Backend Fleet Nat where
  connect := connect o
  close c := (cell c).modify Mysql.close
  isHealthy c s := (Mysql.backend o).isHealthy () ((cell c).get s)
  isPoisoned c s := (Mysql.backend o).isPoisoned () ((cell c).get s)
  poison c := (cell c).modify ((Mysql.backend o).poison ())
  execute c sql := (cell c).run ((Mysql.backend o).execute () sql)
  query c sql params := (cell c).run ((Mysql.backend o).query () sql params)
  placeholders := (Mysql.backend o).placeholders

def weather : Weather → Fleet → Fleet
  | .answering c script, s => (cell c).modify ({ · with script }) s
  | .opening opening script, s => { s with opening, script }

/-- How a connection stands: its number was given out, and it has a handle until it is closed. -/
def standing (c : Nat) (s : Fleet) : Standing :=
  let m := (cell c).get s
  if s.next ≤ c then .unopened
  else if !m.connected then .destroyed
  else if m.broken then .lost
  else .usable

theorem standing_eq_usable : standing c s = .usable ↔
    c < s.next ∧ ((cell c).get s).connected = true ∧ ((cell c).get s).broken = false := by
  unfold standing
  by_cases hle : s.next ≤ c
  · simp [hle, Nat.not_lt.mpr hle]
  · cases hc : ((cell c).get s).connected <;> cases hb : ((cell c).get s).broken <;>
      simp [hle, hc, hb, Nat.lt_of_not_le hle]

theorem standing_eq_lost : standing c s = .lost ↔
    c < s.next ∧ ((cell c).get s).connected = true ∧ ((cell c).get s).broken = true := by
  unfold standing
  by_cases hle : s.next ≤ c
  · simp [hle, Nat.not_lt.mpr hle]
  · cases hc : ((cell c).get s).connected <;> cases hb : ((cell c).get s).broken <;>
      simp [hle, hc, hb, Nat.lt_of_not_le hle]

/-- A connection stands by its number, its handle and whether it is broken. -/
theorem standing_congr {s' : Fleet} (hnext : s'.next ≤ d ↔ s.next ≤ d)
    (hconnected : ((cell d).get s').connected = ((cell d).get s).connected)
    (hbroken : ((cell d).get s').broken = ((cell d).get s).broken) :
    standing d s' = standing d s := by
  unfold standing
  simp only [hnext, hconnected, hbroken]

theorem get_set_of_ne (hne : d ≠ c) (m : Mysql) (s : Fleet) :
    (cell d).get ((cell c).set m s) = (cell d).get s := by
  simp only [cell, Table.get?_modify, if_neg hne]

/-- A number without a connection is like that of one which is closed, and stays so. -/
theorem get_modify (c : Nat) (f : Mysql → Mysql) (s : Fleet) :
    (cell c).get ((cell c).modify f s) = ((s.connections.get? c).map f).getD {} := by
  simp only [cell, Cell.modify, Table.get?_modify, if_true]
  cases s.connections.get? c <;> rfl

theorem get_set (hconnected : ((cell c).get s).connected = true) (m : Mysql) :
    (cell c).get ((cell c).set m s) = m := by
  have hset := get_modify c (fun _ => m) s
  cases hm : s.connections.get? c with
  | some m' =>
    rw [hm] at hset
    exact hset
  | none =>
    have hnone : (cell c).get s = {} := by simp only [cell, hm, Option.getD_none]
    rw [hnone] at hconnected
    cases hconnected

theorem set_get (c : Nat) (s : Fleet) : (cell c).set ((cell c).get s) s = s := by
  have hsame : s.connections.modify c (fun _ => (cell c).get s) = s.connections := by
    refine Table.modify_eq_self fun m hm => ?_
    simp only [cell, hm, Option.getD_some]
  exact congrArg (fun connections => { s with connections }) hsame

theorem standing_set_of_ne (hne : d ≠ c) (m : Mysql) (s : Fleet) :
    standing d ((cell c).set m s) = standing d s :=
  standing_congr Iff.rfl (by rw [get_set_of_ne hne]) (by rw [get_set_of_ne hne])

/-- A request concerns its connection alone. -/
theorem run_submit_cell (o : Options) (c : Nat) (q : Request) (s : Fleet) :
    ((backend o).submit c q).run s =
      ((((Mysql.backend o).submit () q).run ((cell c).get s)).1,
        (cell c).set (((Mysql.backend o).submit () q).run ((cell c).get s)).2 s) := by
  have hview {α : Type} (x : Action Mysql α) (view : α → Option Sql.Rows) :
      ((cell c).run x >>= fun a => pure (view a)).run s =
        (((x >>= fun a => pure (view a)).run ((cell c).get s)).1,
          (cell c).set ((x >>= fun a => pure (view a)).run ((cell c).get s)).2 s) := by
    have hx : ((cell c).run x).run s =
        ((x.run ((cell c).get s)).1, (cell c).set (x.run ((cell c).get s)).2 s) := rfl
    rw [Action.run_bind, Action.run_bind, hx]
    rcases x.run ((cell c).get s) with ⟨_ | _, _⟩ <;> rfl
  cases q with
  | plain sql => exact hview ((Mysql.backend o).execute () sql) fun _ => none
  | bound sql params => exact hview ((Mysql.backend o).query () sql params) fun _ => none
  | rows sql params => exact hview ((Mysql.backend o).query () sql params) some

/-- A connection that is new is not broken. -/
theorem usable_of_connect {o : Options} {opening : Opening} {script : Script Reply}
    (h : (Mysql.connect o).run { opening, script } = (.ok (), m)) :
    m.connected = true ∧ m.broken = false := by
  cases hhandle : opening.noHandle <;> cases hfails : opening.fails <;>
    simp [Mysql.connect, call, Action.run_bind, hhandle, hfails] at h
  subst h
  exact ⟨rfl, rfl⟩

theorem standing_set_usable (hlt : c < s.next) (hc : ((cell c).get s).connected = true)
    (hm : m.connected = true) :
    standing c ((cell c).set m s) = if m.broken then .lost else .usable := by
  have hnext : ¬ ((cell c).set m s).next ≤ c := Nat.not_le.mpr hlt
  unfold standing
  rw [get_set hc, if_neg hnext, hm]
  rfl

/-- A request leaves a connection usable or loses it, as its fault says. -/
theorem submit_of_usable (o : Options) (q : Request) (husable : standing c s = .usable) :
    (standing c (((backend o).submit c q).run s).2 = .usable ∧
        ∀ f, (((backend o).submit c q).run s).1 = .error f → f.kind ≠ .connection) ∨
      standing c (((backend o).submit c q).run s).2 = .lost ∧
        ∃ f, (((backend o).submit c q).run s).1 = .error f ∧ f.kind = .connection := by
  obtain ⟨hlt, hc, hb⟩ := standing_eq_usable.mp husable
  rw [run_submit_cell]
  rcases q.sentAs_cases quote with ⟨sql, hsql⟩ | ⟨f, hf, hfatal, -⟩
  · obtain ⟨cs, -, script, failure, broken, hafter, hbroken⟩ := course_of_exchange sql hc hb
    rw [run_submit o _ hsql, hafter]
    dsimp only
    rw [standing_set_usable (m := { (cell c).get s with script, failure, broken, calls := _ })
      hlt hc hc]
    cases broken with
    | false =>
      refine Or.inl ⟨rfl, fun f hf hkind => Bool.false_ne_true (hbroken.mpr ⟨f, ?_, hkind⟩)⟩
      cases hrun : ((exchange sql).run ((cell c).get s)).1 with
      | ok stored => rw [hrun] at hf; cases hf
      | error f' => rw [hrun] at hf; cases hf; rfl
    | true =>
      obtain ⟨f, hf, hkind⟩ := hbroken.mp rfl
      exact Or.inr ⟨rfl, f, by rw [hf]; rfl, hkind⟩
  · rw [run_submit_of_error o _ hf]
    dsimp only
    rw [set_get]
    refine Or.inl ⟨husable, fun f' hf' => ?_⟩
    cases hf'
    rw [hfatal]
    exact nofun

theorem submit_of_lost (o : Options) (q : Request) (hlost : standing c s = .lost) :
    ∃ f, ((backend o).submit c q).run s = (.error f, s) ∧ (q.Matched → f.kind = .connection) := by
  obtain ⟨-, hc, hb⟩ := standing_eq_lost.mp hlost
  rw [run_submit_cell]
  rcases q.sentAs_cases quote with ⟨sql, hsql⟩ | ⟨f, hf, -, hnot⟩
  · obtain ⟨f, hrun, hkind⟩ := exchange_of_closed (s := (cell c).get s) sql
      (by rw [hc, hb]; rfl)
    refine ⟨f, ?_, fun _ => hkind⟩
    rw [run_submit o _ hsql, hrun]
    exact congrArg (Prod.mk (Except.error f)) (set_get c s)
  · refine ⟨f, ?_, fun h => absurd h hnot⟩
    rw [run_submit_of_error o _ hf]
    exact congrArg (Prod.mk (Except.error f)) (set_get c s)

/-- What changes a connection but for its handle and whether it is broken, leaves it as it
stands. -/
theorem standing_modify (f : Mysql → Mysql)
    (hf : ∀ m, (f m).connected = m.connected ∧ (f m).broken = m.broken) :
    standing d ((cell c).modify f s) = standing d s := by
  by_cases hd : d = c
  · subst hd
    have hget : ((cell d).get ((cell d).modify f s)).connected = ((cell d).get s).connected ∧
        ((cell d).get ((cell d).modify f s)).broken = ((cell d).get s).broken := by
      rw [get_modify]
      simp only [cell]
      cases s.connections.get? d with
      | none => exact ⟨rfl, rfl⟩
      | some m => exact hf m
    exact standing_congr Iff.rfl hget.1 hget.2
  · exact standing_set_of_ne hd _ s

theorem standing_close (hopened : standing c s ≠ .unopened) :
    standing c ((cell c).modify Mysql.close s) = .destroyed := by
  have hlt : ¬ s.next ≤ c := fun hle => hopened (if_pos hle)
  have hclosed : ((cell c).get ((cell c).modify Mysql.close s)).connected = false := by
    rw [get_modify]
    cases s.connections.get? c <;> rfl
  have hnext : ((cell c).modify Mysql.close s).next = s.next := rfl
  unfold standing
  rw [hnext, if_neg hlt, hclosed]
  rfl

theorem connect_eq (o : Options) (s : Fleet) : (connect o).run s =
    match (Mysql.connect o).run { opening := s.opening, script := s.script } with
    | (.ok _, m) =>
      (.ok s.next, { s with connections := s.connections.insert s.next m, next := s.next + 1 })
    | (.error f, _) => (.error f, s) := rfl

/-- Connections to a MySQL server stand as a pool needs it, whatever the server answers. -/
def standings (o : Options) : Standings (backend o) weather where
  of := standing
  connect := by
    intro s t c hr
    have hconnect : (connect o).run s = (.ok c, t) := hr
    rw [connect_eq] at hconnect
    rcases hm : (Mysql.connect o).run { opening := s.opening, script := s.script } with ⟨f | u, m⟩
    · rw [hm] at hconnect
      cases hconnect
    · rw [hm] at hconnect
      cases hconnect
      obtain ⟨hc, hb⟩ := usable_of_connect hm
      have hget (d : Nat) (hd : d ≠ s.next) :
          (cell d).get { s with
            connections := s.connections.insert s.next m, next := s.next + 1 } =
              (cell d).get s := by
        simp only [cell, Table.get?_insert, if_neg hd]
      refine ⟨if_pos (Nat.le_refl _), standing_eq_usable.mpr ?_, fun d hd hopened => ?_⟩
      · simp only [cell, Table.get?_insert, if_true, Option.getD_some]
        exact ⟨Nat.lt_succ_self _, hc, hb⟩
      · have hlt : ¬ s.next ≤ d := fun hle => hopened (if_pos hle)
        have hnext : s.next + 1 ≤ d ↔ s.next ≤ d :=
          iff_of_false (fun hle => hlt (Nat.le_of_succ_le hle)) hlt
        exact standing_congr hnext (by rw [hget d hd]) (by rw [hget d hd])
  connect_failed := by
    intro s t f hr d _
    have hconnect : (connect o).run s = (.error f, t) := hr
    rw [connect_eq] at hconnect
    rcases hm : (Mysql.connect o).run { opening := s.opening, script := s.script } with
      ⟨f' | u, m⟩ <;> rw [hm] at hconnect <;> cases hconnect
    rfl
  submit_usable q husable := submit_of_usable o q husable
  submit_others s c q d hne _ := by
    rw [run_submit_cell]
    exact standing_set_of_ne hne _ s
  submit_lost q hlost := submit_of_lost o q hlost
  unhealthy := by
    intro s c hlost
    obtain ⟨-, hc, hb⟩ := standing_eq_lost.mp hlost
    show (((cell c).get s).connected && !((cell c).get s).broken) = false
    rw [hb, Bool.not_true, Bool.and_false]
  close hopened := standing_close hopened
  close_others s c d hne _ := standing_set_of_ne hne _ s
  poison s c d _ := standing_modify _ fun m => ⟨rfl, rfl⟩
  weather := by
    intro w s d hopened
    cases w with
    | answering c script => exact standing_modify _ fun m => ⟨rfl, rfl⟩
    | opening opening script => rfl

end Fleet
end Client.Mysql

/-- **Lost for good**: connections to an engine, whatever happens in it and around it, and those to
a MySQL server, whatever it answers. -/
theorem connections_lost_for_good (hook : Bytes → Host → Except Fault Unit × Engine)
    (o : Client.Mysql.Options) : Pool.LostForGood (Host.standings hook) ∧
      Pool.LostForGood (Client.Mysql.Fleet.standings o) :=
  ⟨Pool.lostForGood _, Pool.lostForGood _⟩

/-- An engine is switched off while a connection to it is lent, and the connection does not recover
when the engine is back. -/
theorem lost_in_outage :
    let hook : Bytes → Host → Except Fault Unit × Engine := fun _ h => (.ok (), h.engine)
    StaysLost (Host.standings hook) 0 1
      (Scene.run (Host.backend .whole (Host.around hook)) Host.become (.new {} [] 1 0)
        ([.arrive 0, .advance 0 false, .advance 0 false, .weather { available := false }] ++
          .submit 0 (.plain []) :: [.weather {}])) := by
  intro hook
  exact (connections_lost_for_good hook {}).1 {} [] 1 0 _ _ 0 1 (.plain []) Engine.unavailable rfl
    rfl rfl

end Coordinator

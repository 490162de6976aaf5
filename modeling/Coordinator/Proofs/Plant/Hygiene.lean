import Coordinator.Proofs.Plant.Workshop

/-! # Connection hygiene

After any run of a workshop (`hygienic_run`), whatever succeeded in it and whatever failed:

* an unprepared branch belongs to a connection that an open session of exactly its xid holds, and so
  none belongs to a waiting connection;
* no connection is held by two sessions, nor held and waiting at once;
* as many connections are out of the pool as sessions are open;
* the engine counts as many open connections as the pool.

This is `Orderly` told in terms of sessions instead of loans. -/
namespace Coordinator.Plant.Workshop

open Engine (Branch ConnectionId)

variable {exact : Prop} {w : Workshop} {x : Bytes}

/-- What holds of the connections of a workshop between operations. -/
structure Hygienic (w : Workshop) : Prop where
  owned : ∀ x b, w.backend.engine.branches.get? x = some b → b.stage ≠ .prepared →
    ∃ s ∈ w.sessions, s.xid = x ∧ ∃ l, s.connection = some l ∧ l.number = b.owner
  clean : ∀ l ∈ w.pool.idle, w.backend.engine.branches.hasOpen l.number = false
  distinct : ((w.pool.idle ++ w.sessions.filterMap (·.connection)).map Line.number).Nodup
  counted : w.pool.live = w.pool.idle.length + (w.sessions.filter (·.isOpen)).length
  opened : w.backend.engine.openConnections = w.pool.live

/-! ## Loans and sessions -/

/-- The sessions in the workshop with the dialects they are driven in. -/
def spoken (w : Workshop) : List (Xa.Dialect × Session Line) :=
  w.held.entries.map (fun e => (e.1.1.dialect, e.2)) ++
    w.plant.registries.entries.flatMap fun e => e.2.values.map (e.1.owner.component.dialect, ·)

/-- The loans of a workshop. -/
def loans (w : Workshop) : List Loan := heldLoans w.held ++ filedLoans w.plant.registries

theorem sessions_eq (w : Workshop) : w.sessions = w.spoken.map Prod.snd := by
  have hvalues : w.plant.registries.values.flatMap Table.values =
      (w.plant.registries.entries.flatMap fun e =>
        e.2.values.map (e.1.owner.component.dialect, ·)).map Prod.snd := by
    simp [Table.values, List.flatMap_map, List.map_flatMap, Function.comp_def]
  rw [sessions, spoken, List.map_append, ← hvalues, List.map_map]
  rfl

theorem loans_eq (w : Workshop) : w.loans = w.spoken.filterMap fun e => loanOf? e.1 e.2 := by
  have hheld : heldLoans w.held =
      (w.held.entries.map fun e => (e.1.1.dialect, e.2)).filterMap fun e => loanOf? e.1 e.2 := by
    rw [List.filterMap_map, List.filterMap_eq_flatMap_toList]
    rfl
  have hfiled : filedLoans w.plant.registries =
      (w.plant.registries.entries.flatMap fun e =>
        e.2.values.map (e.1.owner.component.dialect, ·)).filterMap fun e => loanOf? e.1 e.2 := by
    rw [List.filterMap_flatMap]
    simp only [List.filterMap_map]
    rfl
  rw [loans, spoken, List.filterMap_append, hheld, hfiled]

theorem connection_of_loanOf? {d : Xa.Dialect} {s : Session Line} {loan : Loan}
    (hl : loanOf? d s = some loan) : ∃ l, s.connection = some l ∧
      loan = ⟨l.number, claim d s.xid (branchOf s.state l.number)⟩ := by
  obtain ⟨l, hc, rfl⟩ := Option.map_eq_some_iff.mp hl
  exact ⟨l, hc, rfl⟩

/-- A loan is that of an open session. -/
theorem exists_session {loan : Loan} (hl : loan ∈ w.loans) :
    ∃ s ∈ w.sessions, ∃ d, loanOf? d s = some loan := by
  rw [loans_eq] at hl
  obtain ⟨⟨d, s⟩, he, hloan⟩ := List.mem_filterMap.mp hl
  rw [sessions_eq]
  exact ⟨s, List.mem_map.mpr ⟨_, he, rfl⟩, d, hloan⟩

/-- The xid that a loan names is that of its session. -/
theorem xid_of_loanOf? {d : Xa.Dialect} {s : Session Line} {loan : Loan}
    (hl : loanOf? d s = some loan) (hx : loan.xid? = some x) : s.xid = x := by
  obtain ⟨l, -, rfl⟩ := connection_of_loanOf? hl
  unfold Loan.xid? claim at hx
  split at hx
  · cases hx
  · cases hx; rfl

/-- The connections on loan are those of the sessions. -/
theorem numbers_loans (w : Workshop) : w.loans.map Loan.number =
    (w.sessions.filterMap (·.connection)).map Line.number := by
  rw [loans_eq, sessions_eq, List.map_filterMap, List.filterMap_map, List.map_filterMap]
  refine List.filterMap_congr fun e _ => ?_
  cases hl : e.2.connection <;> simp [loanOf?, hl]

/-- There is one connection for each open session. -/
theorem length_connections (sessions : List (Session Line)) :
    (sessions.filterMap (·.connection)).length = (sessions.filter (·.isOpen)).length := by
  induction sessions with
  | nil => rfl
  | cons s sessions ih =>
    cases hl : s.connection with
    | none =>
      have ho : ¬ s.isOpen = true := by rw [Session.isOpen, hl]; exact Bool.false_ne_true
      rw [List.filterMap_cons_none hl, List.filter_cons_of_neg ho, ih]
    | some l =>
      have ho : s.isOpen = true := by rw [Session.isOpen, hl]; rfl
      rw [List.filterMap_cons_some hl, List.filter_cons_of_pos ho, List.length_cons, ih,
        List.length_cons]

theorem Orderly.hygienic (hw : Orderly exact w) : Hygienic w := by
  obtain ⟨host', pool', hh, hc, -⟩ := hw.lends
  have hbackend : w.backend = host' := hh.get_host
  have hpool : w.pool = pool' := hh.get_pool
  subst hbackend
  subst hpool
  refine ⟨fun x b hx hb => ?_, fun l hl => hc.free_of_idle hl, ?_, ?_, hc.opened⟩
  · obtain ⟨loan, hl, hnumber, hxid⟩ := hc.owned x b hx hb
    obtain ⟨s, hs, d, hloan⟩ := exists_session hl
    obtain ⟨l, hconn, hline⟩ := connection_of_loanOf? hloan
    refine ⟨s, hs, xid_of_loanOf? hloan hxid, l, hconn, ?_⟩
    rw [← hnumber, hline]
  · rw [List.map_append, ← numbers_loans]
    exact hc.distinct
  · have hcount : w.loans.length = (w.sessions.filter (·.isOpen)).length := by
      rw [← length_connections, ← List.length_map (f := Line.number), ← numbers_loans,
        List.length_map]
    rw [← hcount]
    exact hc.live

/-- **Connection hygiene.**  However long a workshop runs, as long as callers send no protocol
statements of their own, its connections are in order between any two operations. -/
theorem hygienic_run (version name : Bytes) (capacity : Nat) (timeout : Int64) {ops : List Op}
    (hp : ∀ op ∈ ops, op.IsPassive) :
    Hygienic ((new version name capacity timeout).run ops) :=
  have hnew : Orderly False (new version name capacity timeout) :=
    orderly_new version name capacity timeout
  (orderly_run hnew hp False.elim).hygienic

/-- A day's work: a session whose prepare fails, a registered one, a caller's own statements, a
transaction with a script that goes on after a failure, and recovery from outside. -/
theorem hygienic_day : Hygienic ((new (ascii "8.0") (ascii "orders") 2 50).run
    [.start ⟨ascii "p", .mysql⟩ 0 (ascii "a"),
      .submit ⟨ascii "p", .mysql⟩ 0 (.plain (ascii "INSERT INTO t VALUES (1)")),
      .finish ⟨ascii "p", .mysql⟩ 0,
      .inject ⟨ascii "XA PREPARE", .connectionLost, ascii "gone", true⟩,
      .prepare ⟨ascii "p", .mysql⟩ 0,
      .addRegistry ⟨ascii "q", .strict⟩,
      .registered ⟨ascii "q", .strict⟩ 2 (.start (ascii "a")),
      .setAvailable false,
      .registered ⟨ascii "q", .strict⟩ 2 (.rollback (ascii "a")),
      .setAvailable true,
      .injectPrepared (ascii "tx-1"),
      .transact ⟨ascii "m", .cockroach, {}⟩ none fun _ =>
        .submit (.plain (ascii "UPDATE t SET n = 2")) fun _ => .fail Engine.unavailable,
      .sweep ⟨ascii "p", .mysql⟩ (ascii "tx-")]) := by
  refine hygienic_run _ _ _ _ ?_
  simp only [List.forall_mem_cons, Op.IsPassive, Script.IsPassive, true_and, implies_true, and_true,
    List.not_mem_nil, IsEmpty.forall_iff]
  exact ⟨Request.isPassive_plain
      (Engine.Statement.isPlain_cons _ rfl (by decide) (by decide)).isPassive,
    fun _ => Request.isPassive_plain
      (Engine.Statement.isPlain_cons _ rfl (by decide) (by decide)).isPassive⟩

end Coordinator.Plant.Workshop

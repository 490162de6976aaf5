import Coordinator.Proofs.Plant.Hygiene

/-! # Sessions and the engine agree

Where a workshop keeps to itself (`Op.IsLocal`), so that nothing but its sessions settles branches,
the state of every open session is the stage of its branch (`Agrees`), and no two open sessions
share an xid.  This holds after any run (`agrees_run`), through failures, broken connections and
sessions dropped half-way.

It follows that the engine never turns down what a participant lets pass: if a session passes the
check of an operation, the operation succeeds, unless the engine is off, the connection is broken,
or a failure is in store (`Orderly.accepts_drive`).  Only the start of a branch can be refused, as a
duplicate, when the engine has a branch of that xid (`Orderly.accepts_start`). -/
namespace Coordinator.Plant

open Engine (Branch ConnectionId Statement)

variable {h : HostId} {k : Nat} {R : Table RegistryRef (Registry Line)} {p : Plant}
  {n : ConnectionId} {sql x : Bytes} {sqls : List Bytes} {P : Participant} {s : Session Line}
  {e e' : Engine} {host : Host} {pool : Pool Line}

/-! ## Statements that succeed -/

/-- The engine of the plant is as said, and a connection to it is not broken. -/
def Stands (h : HostId) (k : Nat) (R : Table RegistryRef (Registry Line)) (n : ConnectionId)
    (e : Engine) (p : Plant) : Prop :=
  ∃ host pool, Holds h k R host pool p ∧ host.isBroken n = false ∧ host.engine = e

/-- The statements that the engine of the plant has noted. -/
def noted (h : HostId) (p : Plant) : List Bytes := ((hostCell h).get p).engine.statements

theorem Stands.noted_eq (hp : Stands h k R n e p) : noted h p = e.statements := by
  obtain ⟨host, pool, hh, -, rfl⟩ := hp
  rw [noted, hh.get_host]

theorem Stands.log (hp : Stands h k R n e p) (r : Journal.Record) :
    Stands h k R n e ((counter h k).log r p) := by
  obtain ⟨host, pool, hh, hn, he⟩ := hp
  exact ⟨host, pool, hh.log r, hn, he⟩

/-- A connection that goes back sends nothing. -/
theorem Stands.release (hp : Stands h k R n e p) :
    noted h ((counter h k).release (lineTo h k n) p) = e.statements := by
  obtain ⟨host, pool, hh, -, rfl⟩ := hp
  have hr := hh.release n
  split at hr
  · rw [noted, hr.get_host]
  · rw [noted, hr.get_host]; rfl

/-- Where `Φ` says what the engine is, it takes the statements on a connection as the engine
does. -/
def Carried (h : HostId) (k : Nat) (n : ConnectionId) (Φ : Engine → Plant → Prop) : Prop :=
  ∀ ⦃sql rows e e'⦄, (Engine.run n sql).run e = (.ok rows, e') →
    ((counter h k).execute (lineTo h k n) sql).Meets (Φ e) (fun _ => Φ e') fun _ _ => False

theorem carried_stands : Carried h k n (Stands h k R n) := by
  intro sql rows e e' hr
  have hsend : (sendOn h n sql).Meets (Stands h k R n e) (fun _ => Stands h k R n e')
      fun _ _ => False := by
    rintro p ⟨host, pool, hh, hn, rfl⟩
    rw [send_run hh hn, hr]
    exact ⟨_, pool, hh.set_host _, hn, rfl⟩
  exact hsend.bind fun _ => .pure fun _ hp => hp

section Carried
variable {Φ : Engine → Plant → Prop}

theorem send_accepted {rows : Sql.Rows} {operation : Bytes} (hΦ : Carried h k n Φ)
    (hr : (Engine.run n sql).run e = (.ok rows, e')) :
    (P.send (counter h k) (lineTo h k n) operation x sql).Meets (Φ e) (fun _ => Φ e')
      fun _ _ => False :=
  (hΦ hr).onFailure fun _ _ hp => hp.elim

theorem sendAll_accepted {operation : Bytes} (hΦ : Carried h k n Φ)
    (ha : Engine.Accepts n sqls e e') :
    (Action.forEach (P.send (counter h k) (lineTo h k n) operation x) sqls).Meets (Φ e)
      (fun _ => Φ e') fun _ _ => False := by
  induction sqls generalizing e with
  | nil =>
    obtain rfl : e' = e := ha
    exact .pure fun _ hp => hp
  | cons sql rest ih =>
    obtain ⟨rows, mid, hr, hrest⟩ := ha
    exact (send_accepted hΦ hr).bind fun _ => ih hrest

/-- If the engine accepts the statements of an operation, they are sent over the connection of the
session. -/
theorem perform_accepted (drive : Drive) (hΦ : Carried h k n Φ)
    (hl : drive.check P s = .ok (lineTo h k n))
    (hsql : drive.statements P.dialect s = .ok sqls) (ha : Engine.Accepts n sqls e e') :
    (drive.perform P (counter h k) s).Meets (Φ e) (fun l p => l = lineTo h k n ∧ Φ e' p)
      fun _ _ => False := by
  have hplan : drive.plan P s = .ok (lineTo h k n, sqls) := by
    rw [Drive.plan, hl, hsql]
    rfl
  refine Action.Meets.ofExcept_known hplan ?_
  exact (sendAll_accepted hΦ ha).bind fun _ => .pure fun _ hp => ⟨rfl, hp⟩

/-- A session in hand whose statements are sent moves on. -/
theorem held_accepted {drive : Drive} {record : Journal.Record} {moved : Session Line}
    {operation : Action (Session Line × Plant) Unit}
    (hlog : ∀ p, Φ e' p → Φ e' ((counter h k).log record p))
    (hperform : (drive.perform P (counter h k) s).Meets (Φ e)
      (fun l p => l = lineTo h k n ∧ Φ e' p) fun _ _ => False)
    (hop : Participant.onHeld (counter h k) s operation = (do
      let _ ← (drive.perform P (counter h k) s).onFailure fun _ => s.drop (counter h k).toKeeper
      .update ((counter h k).log record)
      return moved : Action Plant (Session Line))) :
    (Participant.onHeld (counter h k) s operation).Meets (Φ e) (fun s' p => s' = moved ∧ Φ e' p)
      fun _ _ => False := by
  rw [hop]
  refine (hperform.onFailure fun _ _ hf => hf.elim).bind fun _ => ?_
  exact Action.Meets.bind (.update fun p hp => hlog p hp.2) fun _ => .pure fun _ hp => ⟨rfl, hp⟩

end Carried

/-! ## Operations that succeed -/

/-- An operation on a session, for what it does to the plant. -/
def inPlace (s : Session Line) (operation : Action (Session Line × Plant) Unit) :
    Action Plant Unit := fun p =>
  let (r, _, p) := operation.run (s, p)
  (r, p)

/-- Runs an operation on a session. -/
def driveWith (P : Participant) (g : Gateway Plant Line) (s : Session Line) :
    Drive → Action Plant Unit
  | .finish => inPlace s (P.finish (g.within .second) .first)
  | .prepare => inPlace s (P.prepare (g.within .second) .first)
  | .commit => P.commit g s
  | .commitOnePhase => P.commitOnePhase g s
  | .rollback => P.rollback g s

/-- A session whose statements are sent gives its connection back and makes a record of it. -/
theorem consumed_accepted {drive : Drive} {record : Journal.Record} {operation : Action Plant Unit}
    (hperform : (drive.perform P (counter h k) s).Meets (Stands h k R n e)
      (fun l p => l = lineTo h k n ∧ Stands h k R n e' p) fun _ _ => False)
    (hop : operation = Participant.consuming (counter h k) s (do
      let l ← drive.perform P (counter h k) s
      .update fun p => (counter h k).log record ((counter h k).release l p))) :
    operation.Meets (Stands h k R n e) (fun _ p => noted h p = e'.statements) fun _ _ => False := by
  rw [hop]
  refine (hperform.bind fun l => .update ?_).onFailure fun _ _ hf => hf.elim
  rintro p ⟨rfl, hp⟩
  exact hp.release

/-- A session in place whose statements are sent moves on. -/
theorem inPlace_accepted {drive : Drive} {record : Journal.Record} {moved : Session Line}
    {operation : Action (Session Line × Plant) Unit}
    (hperform : (drive.perform P (counter h k) s).Meets (Stands h k R n e)
      (fun l p => l = lineTo h k n ∧ Stands h k R n e' p) fun _ _ => False)
    (hop : Participant.onHeld (counter h k) s operation = (do
      let _ ← (drive.perform P (counter h k) s).onFailure fun _ => s.drop (counter h k).toKeeper
      .update ((counter h k).log record)
      return moved : Action Plant (Session Line))) :
    (inPlace s operation).Meets (Stands h k R n e) (fun _ p => noted h p = e'.statements)
      fun _ _ => False := by
  intro p hp
  obtain ⟨s', p', hrun, -, hstands⟩ :=
    (held_accepted (fun _ hp => hp.log record) hperform hop).returns hp
  rw [Participant.onHeld_run] at hrun
  rcases hr : operation.run (s, p) with ⟨f | u, s'', t⟩
  · rw [hr] at hrun
    cases hrun
  · rw [hr] at hrun
    cases hrun
    have hplace : (inPlace s operation).run p = (.ok (), p') := by
      show ((operation.run (s, p)).1, (operation.run (s, p)).2.2) = _
      rw [hr]
    rw [hplace]
    exact hstands.noted_eq

/-- An operation whose statements the engine accepts succeeds, and sends those statements. -/
theorem driveWith_accepted (drive : Drive) (hl : drive.check P s = .ok (lineTo h k n))
    (hsql : drive.statements P.dialect s = .ok sqls) (ha : Engine.Accepts n sqls e e') :
    (driveWith P (counter h k) s drive).Meets (Stands h k R n e)
      (fun _ p => noted h p = e'.statements) fun _ _ => False := by
  have hperform := perform_accepted drive (carried_stands (R := R)) hl hsql ha
  cases drive with
  | finish => exact inPlace_accepted hperform Participant.onHeld_finish
  | prepare => exact inPlace_accepted hperform Participant.onHeld_prepare
  | commit => exact consumed_accepted hperform Participant.commit_eq
  | commitOnePhase => exact consumed_accepted hperform Participant.commitOnePhase_eq
  | rollback => exact consumed_accepted hperform Participant.rollback_eq

/-! ## Branches that start -/

/-- What a start finds once it has a connection: the engine as before in all that matters to it. -/
def Fresh (sql x : Bytes) (b : Option Branch) (S : List Bytes) (host : Host) : Prop :=
  host.engine.available = true ∧ host.engine.Clear sql ∧ host.engine.branches.get? x = b ∧
    host.engine.statements = S

theorem Fresh.close {b : Option Branch} {S : List Bytes}
    (hfree : host.engine.branches.hasOpen n = false) (hf : Fresh sql x b S host) :
    Fresh sql x b S (host.close n) := by
  obtain ⟨ha, hc, hb, hS⟩ := hf
  refine ⟨ha, hc, ?_, hS⟩
  show (host.engine.branches.disconnect n).get? x = b
  rw [Engine.Branches.get?_disconnect_of_free hfree]
  exact hb

/-- What a start does with the connection it got. -/
def opening (P : Participant) (g : Gateway Plant Line) (x sql : Bytes) (l : Line) :
    Action Plant (Session Line) := do
  (P.send g l (ascii "begin") x sql).onFailure fun _ p => g.release l (g.poison l p)
  .update (g.log (P.doneRecord .debug "XA branch started" x))
  return ⟨x, some l, .started⟩

theorem start_run {g : Gateway Plant Line} {l : Line} {p' : Plant}
    (hsql : P.dialect.start x = .ok sql) (hacquire : g.acquire.run p = (.ok l, p')) :
    (P.start g x).run p = (opening P g x sql l).run p' := by
  unfold Participant.start Participant.statement
  rw [hsql]
  show (g.acquire >>= opening P g x sql).run p = _
  rw [Action.run_bind, hacquire]

theorem opening_accepted {rows : Sql.Rows} {Φ : Engine → Plant → Prop} (hΦ : Carried h k n Φ)
    (hlog : ∀ p r, Φ e' p → Φ e' ((counter h k).log r p))
    (hr : (Engine.run n sql).run e = (.ok rows, e')) :
    (opening P (counter h k) x sql (lineTo h k n)).Meets (Φ e)
      (fun s p => s = ⟨x, some (lineTo h k n), .started⟩ ∧ Φ e' p) fun _ _ => False := by
  have hsend : (Action.onFailure (P.send (counter h k) (lineTo h k n) (ascii "begin") x sql)
      fun _ p => (counter h k).release (lineTo h k n)
        ((counter h k).poison (lineTo h k n) p)).Meets (Φ e) (fun _ => Φ e') fun _ _ => False :=
    (send_accepted hΦ hr).onFailure fun _ _ hf => hf.elim
  refine hsend.bind fun _ => ?_
  exact Action.Meets.bind (.update fun p hp => hlog p _ hp) fun _ => .pure fun _ hp => ⟨rfl, hp⟩

/-- A start that the engine refuses fails with the refusal. -/
theorem opening_refused {f : Fault} (hr : (Engine.run n sql).run e = (.error f, e')) :
    (opening P (counter h k) x sql (lineTo h k n)).Meets (Stands h k R n e) (fun _ _ => False)
      fun f' _ => f' = f := by
  have hsend : (sendOn h n sql).Meets (Stands h k R n e) (fun _ _ => False) fun f' _ => f' = f := by
    rintro p ⟨host, pool, hh, hn, rfl⟩
    rw [send_run hh hn, hr]
  have hexecute : ((counter h k).execute (lineTo h k n) sql).Meets (Stands h k R n e)
      (fun _ _ => False) fun f' _ => f' = f :=
    hsend.bind fun _ => .pure fun _ hp => hp
  refine Action.Meets.bind ((hexecute.onFailure fun _ _ hf => hf).onFailure fun _ _ hf => hf)
    fun _ _ hp => hp.elim

namespace Workshop

variable {exact : Prop} {w : Workshop} {d : Xa.Dialect}

/-! ## Sessions and branches -/

/-- Every open session has the branch that its state says, and no two have one xid. -/
structure Agrees (w : Workshop) : Prop where
  branch : ∀ s ∈ w.sessions, ∀ l, s.connection = some l →
    w.backend.engine.Matches s.xid s.state l.number
  apart : ((w.sessions.filter (·.isOpen)).map (·.xid)).Nodup

theorem Orderly.sound (hw : Orderly exact w) (hs : (d, s) ∈ w.spoken) :
    Sound Workshop.host number d s ∧ (exact → d ≠ .postgres) := by
  rcases List.mem_append.mp hs with hs | hs
  · obtain ⟨⟨key, s'⟩, he, heq⟩ := List.mem_map.mp hs
    cases heq
    exact hw.held key s' ((Table.mem_entries_iff _ _ _).mp he)
  · obtain ⟨⟨ref, reg⟩, he, hs⟩ := List.mem_flatMap.mp hs
    obtain ⟨s', hs', heq⟩ := List.mem_map.mp hs
    cases heq
    obtain ⟨-, hsound, hd⟩ := hw.filed ref reg ((Table.mem_entries_iff _ _ _).mp he)
    exact ⟨hsound s hs', hd⟩

/-- The xids of the open sessions are those of the loans. -/
theorem xids_eq (hd : ∀ e ∈ w.spoken, e.1 ≠ .postgres) :
    (w.sessions.filter (·.isOpen)).map (·.xid) = w.loans.filterMap Loan.xid? := by
  rw [loans_eq, sessions_eq, List.filterMap_filterMap]
  generalize w.spoken = spoken at hd
  induction spoken with
  | nil => rfl
  | cons e spoken ih =>
    have ih := ih fun e he => hd e (List.mem_cons_of_mem _ he)
    have hne := hd e List.mem_cons_self
    cases hl : e.2.connection with
    | none =>
      have ho : ¬ e.2.isOpen = true := by rw [Session.isOpen, hl]; exact Bool.false_ne_true
      rw [List.map_cons, List.filter_cons_of_neg ho, ih, List.filterMap_cons_none]
      rw [loanOf?, hl]
      rfl
    | some l =>
      have ho : e.2.isOpen = true := by rw [Session.isOpen, hl]; rfl
      rw [List.map_cons, List.filter_cons_of_pos ho, List.map_cons, ih, List.filterMap_cons_some]
      rw [loanOf?, hl, Option.map_some, claim_of_ne hne]
      rfl

theorem Orderly.agrees (hw : Orderly True w) : Agrees w := by
  obtain ⟨host', pool', hh, hc, -⟩ := hw.lends
  have hbackend : w.backend = host' := hh.get_host
  subst hbackend
  refine ⟨fun s hs l hl => ?_, ?_⟩
  · rw [sessions_eq] at hs
    obtain ⟨⟨d, s'⟩, he, rfl⟩ := List.mem_map.mp hs
    obtain ⟨hsound, hd⟩ := hw.sound he
    have hloan : loanOf? d s' = some ⟨l.number, some (s'.xid, branchOf s'.state l.number)⟩ := by
      rw [loanOf?, hl, Option.map_some, claim_of_ne (hd trivial)]
    have hmem : (⟨l.number, some (s'.xid, branchOf s'.state l.number)⟩ : Loan) ∈ w.loans := by
      rw [loans_eq]
      exact List.mem_filterMap.mpr ⟨_, he, hloan⟩
    have hb := hc.agree trivial _ hmem _ _ rfl
    rcases hsound.state (by rw [Session.isOpen, hl]; rfl) with hs | hs | hs
    · rw [hs] at hb; exact Or.inl ⟨hs, hb⟩
    · rw [hs] at hb; exact Or.inr (Or.inl ⟨hs, hb⟩)
    · rw [hs] at hb; exact Or.inr (Or.inr ⟨hs, hb⟩)
  · rw [xids_eq fun e he => (hw.sound he).2 trivial]
    exact hc.apart trivial

/-! ## What the engine accepts -/

/-- What a participant lets pass, the engine accepts.  An operation on a session of the workshop
that passes its check succeeds and sends all its statements, if the engine is there, the connection
is not broken, and no failure is in store for a statement; so does the start of a session that gets
a connection, unless the engine has a branch of the xid and refuses it as a duplicate. -/
structure Accepts (w : Workshop) : Prop where
  drive : ∀ (P : Participant) (s : Session Line) (drive : Drive) (l : Line), s ∈ w.sessions →
    P.dialect ≠ .postgres → drive.check P s = .ok l →
    ∃ sqls, drive.statements P.dialect s = .ok sqls ∧
      (w.backend.engine.available = true → w.backend.isBroken l.number = false →
        (∀ sql ∈ sqls, w.backend.engine.Clear sql) →
        (∃ e, Engine.Accepts l.number sqls w.backend.engine e) ∧
          ∃ p, (driveWith P (counter Workshop.host number) s drive).run w.plant = (.ok (), p) ∧
            noted Workshop.host p = w.backend.engine.statements ++ sqls)
  start : ∀ (P : Participant) (x sql : Bytes) (l : Line) (p : Plant), P.dialect ≠ .postgres →
    P.dialect.start x = .ok sql → w.backend.engine.available = true →
    w.backend.engine.Clear sql → (counter Workshop.host number).acquire.run w.plant = (.ok l, p) →
    match w.backend.engine.branches.get? x with
    | none => ∃ s p', (P.start (counter Workshop.host number) x).run w.plant = (.ok s, p') ∧
        noted Workshop.host p' = w.backend.engine.statements ++ [sql]
    | some _ => ∃ p', (P.start (counter Workshop.host number) x).run w.plant =
        (.error Engine.Refusal.duplicate.fault, p')

/-- The literal of an xid does not depend on the dialect, PostgreSQL apart. -/
theorem quote_eq (hd : d ≠ .postgres) : d.quote x = Xa.Xid.quoteMysql x := by
  cases d with
  | postgres => exact absurd rfl hd
  | mysql | strict => rfl

theorem Orderly.accepts_drive {drive : Drive} {l : Line} (hw : Orderly True w)
    (hs : s ∈ w.sessions) (hd : P.dialect ≠ .postgres) (hl : drive.check P s = .ok l) :
    ∃ sqls, drive.statements P.dialect s = .ok sqls ∧
      (w.backend.engine.available = true → w.backend.isBroken l.number = false →
        (∀ sql ∈ sqls, w.backend.engine.Clear sql) →
        (∃ e, Engine.Accepts l.number sqls w.backend.engine e) ∧
          ∃ p, (driveWith P (counter Workshop.host number) s drive).run w.plant = (.ok (), p) ∧
            noted Workshop.host p = w.backend.engine.statements ++ sqls) := by
  have hconn := Drive.connection_of_check hl
  have hmatch := hw.agrees.branch s hs l hconn
  have hmem := hs
  rw [sessions_eq] at hmem
  obtain ⟨⟨d, s'⟩, he, rfl⟩ := List.mem_map.mp hmem
  obtain ⟨hsound, hd'⟩ := hw.sound he
  obtain ⟨q, hq⟩ := hsound.quoted (by rw [Session.isOpen, hconn]; rfl)
  rw [quote_eq (hd' trivial)] at hq
  refine ⟨drive.texts s'.state q, ?_, fun ha hn hc => ?_⟩
  · rw [Drive.statements_eq drive hd, hq]
    rfl
  · have hsql : drive.statements P.dialect s' = .ok (drive.texts s'.state q) := by
      rw [Drive.statements_eq drive hd, hq]
      rfl
    obtain ⟨e, haccepts, hnoted⟩ := drive.accepted hd hl hsql hmatch ha hc
    obtain ⟨host', pool', hh, -, -⟩ := hw.lends
    have hbackend : w.backend = host' := hh.get_host
    subst hbackend
    rw [hsound.line l hconn] at hl
    have hrun := driveWith_accepted (R := w.plant.registries) drive hl hsql haccepts
    obtain ⟨_, p, hp, hnoted'⟩ := hrun.returns ⟨_, _, hh, hn, rfl⟩
    exact ⟨⟨e, haccepts⟩, p, hp, hnoted'.trans hnoted⟩

theorem Orderly.accepts_start {l : Line} (hw : Orderly True w) (hd : P.dialect ≠ .postgres)
    (hsql : P.dialect.start x = .ok sql) (ha : w.backend.engine.available = true)
    (hc : w.backend.engine.Clear sql)
    (hacquire : (counter Workshop.host number).acquire.run w.plant = (.ok l, p)) :
    match w.backend.engine.branches.get? x with
    | none => ∃ s p', (P.start (counter Workshop.host number) x).run w.plant = (.ok s, p') ∧
        noted Workshop.host p' = w.backend.engine.statements ++ [sql]
    | some _ => ∃ p', (P.start (counter Workshop.host number) x).run w.plant =
        (.error Engine.Refusal.duplicate.fault, p') := by
  have hparse : Statement.parse sql = .ok (.branch .start x) := by
    rw [Engine.start_eq hd] at hsql
    obtain ⟨q, hq, rfl⟩ := ok_of_map hsql
    exact Engine.parse_start hq
  obtain ⟨host', pool', hh, hcustody, -⟩ := hw.lends
  have hbackend : w.backend = host' := hh.get_host
  subst hbackend
  have hfresh : Fresh sql x (w.backend.engine.branches.get? x) w.backend.engine.statements
      w.backend := ⟨ha, hc, rfl, rfl⟩
  have hready : LendsIf Workshop.host number True w.plant.registries
      (Fresh sql x (w.backend.engine.branches.get? x) w.backend.engine.statements) w.loans
      w.plant := ⟨_, _, hh, hcustody, hfresh⟩
  obtain ⟨n, rfl, host', pool', hh', hcustody', ⟨ha', hc', hb', hS'⟩, hn'⟩ :=
    (acquire_meets (fun _ _ => Fresh.close) fun _ hf => hf).ok_of_run hready hacquire
  rw [start_run hsql hacquire, ← hb', ← hS']
  have hfree := hcustody'.free_of_clean
  cases hx : host'.engine.branches.get? x with
  | none =>
    have hr := Engine.run_of_moves ha' hc' hparse (.start hfree hx)
    obtain ⟨s, p', hrun, -, hstands⟩ :=
      (opening_accepted (P := P) (x := x) carried_stands (fun _ r hp => hp.log r) hr).returns
        ⟨host', pool', hh', hn', rfl⟩
    exact ⟨s, p', hrun, hstands.noted_eq⟩
  | some b =>
    have hr := Engine.run_of_duplicate ha' hc' hparse hfree hx
    obtain ⟨f, p', hrun, rfl⟩ :=
      (opening_refused (P := P) (x := x) hr).fails ⟨host', pool', hh', hn', rfl⟩
    exact ⟨p', hrun⟩

theorem Orderly.accepts (hw : Orderly True w) : Accepts w where
  drive _ _ _ _ hs hd hl := hw.accepts_drive hs hd hl
  start _ _ _ _ _ hd hsql ha hc hacquire := hw.accepts_start hd hsql ha hc hacquire

/-- **Sessions and the engine agree.**  However long a workshop that keeps to itself runs, between
any two operations the open sessions and the branches of the engine agree, and so what a participant
lets pass, the engine accepts. -/
theorem agrees_run (version name : Bytes) (capacity : Nat) (timeout : Int64) {ops : List Op}
    (hp : ∀ op ∈ ops, op.IsPassive) (hl : ∀ op ∈ ops, op.IsLocal) :
    Agrees ((new version name capacity timeout).run ops) ∧
      Accepts ((new version name capacity timeout).run ops) := by
  have hw : Orderly True ((new version name capacity timeout).run ops) :=
    orderly_run (orderly_new version name capacity timeout) hp fun _ => hl
  exact ⟨hw.agrees, hw.accepts⟩

/-- Two participants and a registry at work: a prepare that fails, the same xid again, a statement
of the caller's own, a step of the registry while the engine is away. -/
def shift : List Op :=
  [.start ⟨ascii "p", .mysql⟩ 0 (ascii "a"), .finish ⟨ascii "p", .mysql⟩ 0,
    .inject ⟨ascii "XA PREPARE", .connectionLost, ascii "gone", true⟩,
    .prepare ⟨ascii "p", .mysql⟩ 0, .start ⟨ascii "p", .mysql⟩ 1 (ascii "a"),
    .submit ⟨ascii "p", .mysql⟩ 1 (.plain (ascii "INSERT INTO t VALUES (1)")),
    .addRegistry ⟨ascii "q", .strict⟩, .registered ⟨ascii "q", .strict⟩ 2 (.start (ascii "b")),
    .setAvailable false, .registered ⟨ascii "q", .strict⟩ 2 (.finish (ascii "b")),
    .setAvailable true, .registered ⟨ascii "q", .strict⟩ 2 (.start (ascii "c"))]

theorem agrees_shift : Agrees ((new (ascii "8.0") (ascii "orders") 2 50).run shift) ∧
    Accepts ((new (ascii "8.0") (ascii "orders") 2 50).run shift) := by
  refine agrees_run _ _ _ _ ?_ ?_
  · simp only [shift, List.forall_mem_cons, Op.IsPassive, true_and, and_true, List.not_mem_nil,
      IsEmpty.forall_iff, implies_true]
    exact Request.isPassive_plain
      (Engine.Statement.isPlain_cons _ rfl (by decide) (by decide)).isPassive
  · simp [shift, Op.IsLocal]

end Workshop
end Coordinator.Plant

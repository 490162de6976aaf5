import Coordinator.Proofs.Journal.Records
import Coordinator.Proofs.Registry.Steps

/-! # What operations add to the journal

A gateway is **discreet** (`Gateway.Discreet`) if it keeps the surroundings `good`, which contained
records leave as they are, and its faults tell nothing but printable text and the statement they are
about.  Over such a gateway every operation of a participant and of a registry adds contained
records only, however it ends; and its fault tells no more than the xid (`Tells`), which matters
where the caller of the operation reports it. -/
namespace Coordinator

open Journal Xa

variable {σ κ α : Type}

/-- The fault of an operation is printable. -/
def TellsNothing (good : σ → Prop) (f : Fault) (s : σ) : Prop := f.message.IsPrintable ∧ good s

/-- The fault of an operation tells printable text and bytes of the xid. -/
def Tells (x : Bytes) (good : σ → Prop) (f : Fault) (s : σ) : Prop := x.Covers f.message ∧ good s

/-- A gateway that keeps surroundings good, with connections that are known, and does not tell in
its faults what it was not told. -/
structure Gateway.Discreet (g : Gateway σ κ) (known : κ → Prop) (good : σ → Prop) : Prop where
  acquire : g.acquire.Meets good (fun c s => known c ∧ good s) (TellsNothing good)
  execute : ∀ {c : κ} (sql : Bytes), known c →
    (g.execute c sql).Meets good (fun _ => good) (Tells sql good)
  query : ∀ {c : κ} (sql : Bytes), known c →
    (g.query c sql []).Meets good (fun _ => good) (Tells sql good)
  release : ∀ {c : κ} {s : σ}, known c → good s → good (g.release c s)
  poison : ∀ {c : κ} {s : σ}, known c → good s → good (g.poison c s)
  log : ∀ {r : Record} {s : σ}, Contained r → good s → good (g.log r s)

/-- A session on a known connection, if it has one. -/
def Session.Known (known : κ → Prop) (s : Session κ) : Prop := ∀ c, s.connection = some c → known c

variable {g : Gateway σ κ} {known : κ → Prop} {good : σ → Prop} {P : Participant}
  {x sql operation : Bytes} {c : κ} {s : Session κ} {t : σ}

/-- Where the fault goes to the caller alone, it does not matter what it tells. -/
theorem keeps_of_tells {y : Action σ α} {pre : σ → Prop} {ok : α → σ → Prop}
    (hy : y.Meets pre ok (Tells x good)) : y.Meets pre ok fun _ => good :=
  hy.mono (fun _ h => h) (fun _ _ h => h) fun _ _ h => h.2

/-- What is known after an attempt: nothing of its end but what its fault tells. -/
def Told (x : Bytes) (good : σ → Prop) : Except Fault Unit → σ → Prop
  | .ok () => good
  | .error f => Tells x good f

theorem attempt_told {y : Action σ Unit} (hy : y.Meets good (fun _ => good) (Tells x good)) :
    y.attempt.Meets good (Told x good) fun _ => good :=
  hy.attempt (fun _ _ ht => ht) fun _ _ ht => ht

theorem Session.known_of_none (h : s.connection = none) : s.Known known := by
  intro c hc
  rw [h] at hc
  cases hc

/-- A session that is dropped leaves the surroundings good. -/
theorem Session.good_drop (hg : g.Discreet known good) (hs : s.Known known) (ht : good t) :
    good (s.drop g.toKeeper t) := by
  unfold Session.drop
  cases hc : s.connection with
  | none => exact ht
  | some c => exact hg.release (hs c hc) (hg.log s.contained_dropped (hg.poison (hs c hc) ht))

theorem log_meets (hg : g.Discreet known good) {r : Record} (hr : Contained r)
    {bad : Fault → σ → Prop} : (Action.update (g.log r)).Meets good (fun _ => good) bad :=
  .update fun _ ht => hg.log hr ht

namespace Participant

/-! ## Statements -/

theorem statement_tells {p : α → Prop} {y : Except Xid.QuoteFault α} (hy : Speaks p y) :
    (statement y : Action σ α).Meets good (fun a s => p a ∧ good s) (Tells x good) := by
  unfold statement
  cases y with
  | ok a => exact fun s hs => ⟨hy, hs⟩
  | error f => exact fun s hs => ⟨Bytes.IsPrintable.covers hy, hs⟩

theorem acquire_tells (hg : g.Discreet known good) (x : Bytes) :
    g.acquire.Meets good (fun c s => known c ∧ good s) (Tells x good) :=
  hg.acquire.mono (fun _ h => h) (fun _ _ h => h) fun _ _ h => ⟨h.1.covers, h.2⟩

theorem send_tells (hg : g.Discreet known good) (hP : P.name.IsPrintable)
    (hoperation : operation.IsPrintable) (hc : known c) (hsql : x.Covers sql) :
    (P.send g c operation x sql).Meets good (fun _ => good) (Tells x good) := by
  refine .onFailure (hg.execute sql hc) fun f s hs => ?_
  have hf : x.Covers f.message := hsql.trans hs.1
  exact ⟨hf, hg.log (contained_failed hP hoperation hf) hs.2⟩

/-- One statement after the other. -/
theorem sendAll_tells (hg : g.Discreet known good) (hP : P.name.IsPrintable)
    (hoperation : operation.IsPrintable) (hc : known c) {sqls : List Bytes}
    (hsqls : ∀ sql ∈ sqls, x.Covers sql) :
    (Action.forEach (P.send g c operation x) sqls).Meets good (fun _ => good) (Tells x good) :=
  .forEach fun sql hsql => send_tells hg hP hoperation hc (hsqls sql hsql)

/-! ## Sessions -/

theorem start_tells (hg : g.Discreet known good) (hP : P.name.IsPrintable) (x : Bytes) :
    (P.start g x).Meets good (fun s t => s.xid = x ∧ s.Known known ∧ good t) (Tells x good) := by
  unfold start
  refine .bind (statement_tells (P.dialect.speaks_start x)) fun sql => .assuming fun hsql => ?_
  refine (acquire_tells hg x).bind fun c => .assuming fun hc => ?_
  refine .bind (.onFailure (send_tells hg hP (by decide) hc hsql) fun f s hs => ?_) fun _ => ?_
  · exact ⟨hs.1, hg.release hc (hg.poison hc hs.2)⟩
  · refine .bind (log_meets hg (contained_done hP (by decide) x)) fun _ => .pure fun s hs => ?_
    exact ⟨rfl, fun c' hc' => Option.some.inj hc' ▸ hc, hs⟩

/-- An operation has a printable name. -/
theorem isPrintable_driveName (d : Drive) : d.name.IsPrintable := by
  cases d with
  | finish | prepare | commit | commitOnePhase | rollback => decide

/-- The statements of an operation are covered by the xid. -/
theorem speaks_driveStatements (d : Xa.Dialect) (s : Session κ) (drive : Drive) :
    Speaks (fun sqls => ∀ sql ∈ sqls, s.xid.Covers sql) (drive.statements d s) := by
  have hone {y : Except Xid.QuoteFault Bytes} (hy : Speaks s.xid.Covers y) :
      Speaks (fun sqls => ∀ sql ∈ sqls, s.xid.Covers sql) (y.map ([·])) := by
    cases y with
    | ok sql => exact List.forall_mem_singleton.mpr hy
    | error f => exact hy
  cases drive with
  | finish =>
    have hfinish := d.speaks_finish s.xid
    rw [Drive.statements]
    cases hq : d.finish s.xid with
    | error f => rw [hq] at hfinish; exact hfinish
    | ok sql =>
      rw [hq] at hfinish
      show ∀ sql' ∈ (if sql = [] then [] else [sql]), s.xid.Covers sql'
      split
      · exact fun sql' hsql' => absurd hsql' List.not_mem_nil
      · exact List.forall_mem_singleton.mpr hfinish
  | prepare => exact hone (d.speaks_prepare s.xid)
  | commit => exact hone (d.speaks_commit s.xid)
  | commitOnePhase => exact hone (d.speaks_commitOnePhase s.xid)
  | rollback => exact d.speaks_rollback s.xid s.state

/-- What a check objects to is printable. -/
theorem isPrintable_expect {state : Xa.State} (hoperation : operation.IsPrintable) {f : Fault}
    (h : s.expect state operation = .error f) : f.message.IsPrintable := by
  unfold Session.expect at h
  split at h
  · cases h
    refine Fault.isPrintable_of ?_
    simp only [List.forall_mem_cons, List.not_mem_nil, false_implies, implies_true, and_true]
    exact ⟨hoperation, by decide⟩
  · split at h
    · cases h
    · cases h
      refine Fault.isPrintable_of ?_
      simp only [List.forall_mem_cons, List.not_mem_nil, false_implies, implies_true, and_true]
      exact ⟨hoperation, by decide, state.isPrintable_name, by decide, s.state.isPrintable_name⟩

theorem isPrintable_dialectName (d : Xa.Dialect) : d.name.IsPrintable := by
  cases d with
  | mysql | postgres | strict => decide

theorem isPrintable_expectRollback {f : Fault} (h : P.expectRollback s = .error f) :
    f.message.IsPrintable := by
  unfold expectRollback at h
  split at h
  · cases h
    exact Fault.isPrintable_of (by decide)
  · simp only at h
    split at h
    · cases h
    · cases h
      refine Fault.isPrintable_of ?_
      simp only [List.forall_mem_cons, List.not_mem_nil, false_implies, implies_true, and_true]
      exact ⟨by decide, s.state.isPrintable_name, by decide, isPrintable_dialectName _⟩

theorem isPrintable_check {d : Drive} {f : Fault} (h : d.check P s = .error f) :
    f.message.IsPrintable := by
  cases d with
  | finish | prepare | commit | commitOnePhase => exact isPrintable_expect (by decide) h
  | rollback => exact isPrintable_expectRollback h

/-- Checking a session and sending its statements. -/
theorem perform_tells (hg : g.Discreet known good) (hP : P.name.IsPrintable)
    (hs : s.Known known) (d : Drive) :
    (d.perform P g s).Meets good (fun c t => known c ∧ good t) (Tells s.xid good) := by
  rw [Drive.perform_eq]
  refine .ofExcept_bind (fun c hcheck => ?_) fun f hf t ht => ?_
  · have hc : known c := hs c (Drive.connection_of_check hcheck)
    refine .bind (statement_tells (speaks_driveStatements _ s d)) fun sqls => ?_
    refine .assuming fun hsqls => ?_
    refine .bind (sendAll_tells hg hP (isPrintable_driveName d) hc hsqls) fun _ => ?_
    exact .pure fun t ht => ⟨hc, ht⟩
  · exact ⟨(isPrintable_check hf).covers, ht⟩

/-- An operation that consumes a session drops it on failure. -/
theorem consuming_tells (hg : g.Discreet known good) (hs : s.Known known) {y : Action σ Unit}
    (hy : y.Meets good (fun _ => good) (Tells s.xid good)) :
    (consuming g s y).Meets good (fun _ => good) (Tells s.xid good) :=
  .onFailure hy fun _ _ ht => ⟨ht.1, s.good_drop hg hs ht.2⟩

/-- The end of a session: its statements, and then its connection goes back. -/
theorem conclude_tells (hg : g.Discreet known good) (hP : P.name.IsPrintable)
    (hs : s.Known known) (d : Drive) {r : Record} (hr : Contained r) :
    (consuming g s (do
      let c ← d.perform P g s
      .update fun t => g.log r (g.release c t))).Meets good (fun _ => good) (Tells s.xid good) := by
  refine consuming_tells hg hs (.bind (perform_tells hg hP hs d) fun c => ?_)
  exact .update fun t ht => hg.log hr (hg.release ht.1 ht.2)

theorem commit_tells (hg : g.Discreet known good) (hP : P.name.IsPrintable) (hs : s.Known known) :
    (P.commit g s).Meets good (fun _ => good) (Tells s.xid good) := by
  rw [commit_eq]
  exact conclude_tells hg hP hs .commit (contained_done hP (by decide) s.xid)

theorem commitOnePhase_tells (hg : g.Discreet known good) (hP : P.name.IsPrintable)
    (hs : s.Known known) :
    (P.commitOnePhase g s).Meets good (fun _ => good) (Tells s.xid good) := by
  rw [commitOnePhase_eq]
  exact conclude_tells hg hP hs .commitOnePhase (contained_done hP (by decide) s.xid)

theorem rollback_tells (hg : g.Discreet known good) (hP : P.name.IsPrintable)
    (hs : s.Known known) :
    (P.rollback g s).Meets good (fun _ => good) (Tells s.xid good) := by
  rw [rollback_eq]
  exact conclude_tells hg hP hs .rollback (contained_rolledBack hP s)

/-! ## Sessions in place -/

/-- A known session beside good surroundings. -/
def KnownFirst (known : κ → Prop) (good : σ → Prop) (u : Session κ × σ) : Prop :=
  u.1.Known known ∧ good u.2

theorem sendInPlace_keeps (hg : g.Discreet known good) (hP : P.name.IsPrintable)
    (hoperation : operation.IsPrintable) (hs : s.Known known) (hc : known c)
    (hsql : s.xid.Covers sql) :
    (P.sendInPlace (g.within .second) .first c operation sql).Meets
      (fun u => u.1 = s ∧ good u.2) (fun _ => KnownFirst known good)
      fun _ => KnownFirst known good := by
  rintro ⟨s', t⟩ ⟨rfl, ht⟩
  have hsend := send_tells hg hP hoperation hc hsql t ht
  rw [sendInPlace_run]
  rcases hr : (P.send g c operation s'.xid sql).run t with ⟨f | u, t'⟩ <;> rw [hr] at hsend
  · exact ⟨Session.known_of_none rfl, s'.good_drop hg hs hsend.2⟩
  · exact ⟨hs, hsend⟩

theorem moveOn_keeps (hg : g.Discreet known good) (hP : P.name.IsPrintable) (state : Xa.State)
    {message : String} (hmessage : (ascii message).IsPrintable) :
    (P.moveOn (g.within .second) .first state message).Meets (KnownFirst known good)
      (fun _ => KnownFirst known good) fun _ => KnownFirst known good :=
  .update fun u hu => ⟨hu.1, hg.log (contained_done hP hmessage u.1.xid) hu.2⟩

/-- An operation in place is checked, and its statement is made; nothing is done before. -/
theorem inPlace_keeps {state : Xa.State} {spell : Session κ → Except Xid.QuoteFault Bytes}
    {rest : κ → Bytes → Action (Session κ × σ) Unit} (hspell : ∀ s, Speaks s.xid.Covers (spell s))
    (hrest : ∀ s c sql, s.Known known → known c → s.xid.Covers sql →
      (rest c sql).Meets (fun u => u.1 = s ∧ good u.2) (fun _ => KnownFirst known good)
        fun _ => KnownFirst known good) :
    (do
      let s ← .read Cell.first.get
      let c ← .ofExcept (s.expect state operation)
      let sql ← statement (spell s)
      rest c sql : Action (Session κ × σ) Unit).Meets (KnownFirst known good)
        (fun _ => KnownFirst known good) fun _ => KnownFirst known good := by
  refine .read_bind fun s => ?_
  refine .ofExcept_bind (fun c hcheck => ?_) fun f _ u hu => hu.1
  refine .ofExcept_bind (fun sql hsql => ?_) fun f _ u hu => hu.1
  rintro ⟨s', t⟩ ⟨⟨hs, ht⟩, rfl⟩
  have hc : known c := hs c (Session.expect_eq_ok hcheck).1
  exact hrest s' c sql hs hc ((hspell s').of_ok hsql) (s', t) ⟨rfl, ht⟩

theorem finish_keeps (hg : g.Discreet known good) (hP : P.name.IsPrintable) :
    (P.finish (g.within .second) .first).Meets (KnownFirst known good)
      (fun _ => KnownFirst known good) fun _ => KnownFirst known good := by
  refine inPlace_keeps (fun s => P.dialect.speaks_finish s.xid) fun s c sql hs hc hsql => ?_
  have hmove : (P.moveOn (g.within .second) .first .ended "XA branch ended").Meets
      (KnownFirst known good) (fun _ => KnownFirst known good) fun _ => KnownFirst known good :=
    moveOn_keeps hg hP .ended (by decide)
  split
  · exact (sendInPlace_keeps hg hP (by decide) hs hc hsql).bind fun _ => hmove
  · exact hmove.mono (fun u hu => ⟨hu.1 ▸ hs, hu.2⟩) (fun _ _ h => h) fun _ _ h => h

theorem prepare_keeps (hg : g.Discreet known good) (hP : P.name.IsPrintable) :
    (P.prepare (g.within .second) .first).Meets (KnownFirst known good)
      (fun _ => KnownFirst known good) fun _ => KnownFirst known good := by
  refine inPlace_keeps (fun s => P.dialect.speaks_prepare s.xid) fun s c sql hs hc hsql => ?_
  refine (sendInPlace_keeps hg hP (by decide) hs hc hsql).bind fun _ => ?_
  exact moveOn_keeps hg hP .prepared (by decide)

/-! ## Recovery -/

/-- A connection of the operation's own goes back however the operation ends. -/
theorem withConnection_tells (hg : g.Discreet known good) {f : κ → Action σ α}
    (hf : ∀ c, known c → (f c).Meets good (fun _ => good) (Tells x good)) :
    (g.withConnection f).Meets good (fun _ => good) (Tells x good) := by
  refine (acquire_tells hg x).bind fun c => .assuming fun hc => ?_
  exact (hf c hc).ensuring (fun _ _ ht => hg.release hc ht) fun _ _ ht =>
    ⟨ht.1, hg.release hc ht.2⟩

theorem commitByXid_tells (hg : g.Discreet known good) (hP : P.name.IsPrintable) (x : Bytes) :
    (P.commitByXid g x).Meets good (fun _ => good) (Tells x good) := by
  refine .bind (statement_tells (P.dialect.speaks_commit x)) fun sql => .assuming fun hsql => ?_
  refine withConnection_tells hg fun c hc => ?_
  refine .bind (send_tells hg hP (by decide) hc hsql) fun _ => ?_
  exact log_meets hg (contained_done hP (by decide) x)

theorem rollbackByXid_tells (hg : g.Discreet known good) (hP : P.name.IsPrintable) (x : Bytes) :
    (P.rollbackByXid g x).Meets good (fun _ => good) (Tells x good) := by
  refine .bind (statement_tells (P.dialect.speaks_rollback x .prepared)) fun sqls => ?_
  refine .assuming fun hsqls => withConnection_tells hg fun c hc => ?_
  refine .bind (sendAll_tells hg hP (by decide) hc hsqls) fun _ => ?_
  exact log_meets hg (contained_done hP (by decide) x)

theorem isPrintable_recover (d : Xa.Dialect) : d.recover.IsPrintable := by
  cases d with
  | mysql | postgres | strict => decide

/-- What the rows of a recovery query are like matters to the caller only. -/
theorem recover_keeps (hg : g.Discreet known good) (hP : P.name.IsPrintable) :
    (P.recover g).Meets good (fun _ => good) fun _ => good := by
  refine .bind (keeps_of_tells (acquire_tells hg [])) fun c => .assuming fun hc => ?_
  have hquery : ((g.query c P.dialect.recover []).onFailure
      fun f => g.log (P.queryFailedRecord f)).Meets good (fun _ => good) fun _ => good := by
    refine .onFailure (hg.query P.dialect.recover hc) fun f s hs => ?_
    have hf : f.message.IsPrintable := hs.1.isPrintable (isPrintable_recover _)
    exact hg.log (contained_queryFailed hP hf) hs.2
  refine .ensuring (hquery.bind fun rows => .ofExcept_bind (fun found _ => ?_) fun _ _ _ ht => ht)
    (fun _ _ ht => hg.release hc ht) fun _ _ ht => hg.release hc ht
  exact .bind (log_meets hg (contained_scanned hP found.length)) fun _ => .pure fun t ht => ht

theorem find_keeps (hg : g.Discreet known good) (hP : P.name.IsPrintable) (x : Bytes) :
    (P.find g x).Meets good (fun _ => good) fun _ => good :=
  .bind (recover_keeps hg hP) fun _ => .pure fun _ ht => ht

/-- By induction on the list: a branch that cannot be rolled back is reported by what was told of
it, and the next one is tried. -/
theorem sweepEach_keeps (hg : g.Discreet known good) (hP : P.name.IsPrintable) (n : Sweep)
    (xids : List Bytes) :
    (P.sweepEach g n xids).Meets good (fun _ => good) fun _ => good := by
  induction xids generalizing n with
  | nil => exact .pure fun _ ht => ht
  | cons x rest ih =>
    refine (attempt_told (rollbackByXid_tells hg hP x)).bind fun ending => ?_
    cases ending with
    | ok u => exact ih _
    | error f =>
      refine .assuming fun hf => .bind (log_meets hg (contained_skipped hP hf)) fun _ => ih _

theorem sweep_keeps (hg : g.Discreet known good) (hP : P.name.IsPrintable) (stem : Bytes) :
    (P.sweep g stem).Meets good (fun _ => good) fun _ => good := by
  refine .bind (recover_keeps hg hP) fun found => ?_
  refine .bind (sweepEach_keeps hg hP {} _) fun n => ?_
  exact .bind (log_meets hg (contained_swept hP stem n)) fun _ => .pure fun _ ht => ht

end Participant

/-! ## Registries -/

namespace Registry.Site

/-- A registry of a participant with a printable name, over a discreet gateway, whose sessions have
known connections; putting such sessions in and taking them out keeps the surroundings good. -/
structure Discreet (r : Site σ κ) (known : κ → Prop) (good : σ → Prop) : Prop where
  gateway : r.gateway.Discreet known good
  name : r.participant.name.IsPrintable
  sessions : ∀ {t x s}, good t → (r.registry.get t).get? x = some s → s.Known known
  erase : ∀ {t} x, good t → good (r.registry.set ((r.registry.get t).erase x) t)
  insert : ∀ {t s}, s.Known known → good t →
    good (r.registry.set ((r.registry.get t).insert s.xid s) t)

variable {r : Site σ κ} {required : Option Xa.State}

theorem take_keeps (hr : r.Discreet known good) :
    (r.take x required).Meets good (fun s t => s.Known known ∧ good t) fun _ => good := by
  refine .read_bind fun result => ?_
  refine .ofExcept_bind (fun found hfound => ?_) fun _ _ t ht => ht.1
  refine .bind (.update ?_) fun _ => .pure fun _ ht => ht
  rintro t ⟨ht, rfl⟩
  obtain ⟨hget, hrest⟩ := Registry.take_eq_ok hfound
  rw [hrest]
  exact ⟨hr.sessions ht hget, hr.erase x ht⟩

theorem insert_keeps (hr : r.Discreet known good) (hs : s.Known known) :
    (r.insert s).Meets good (fun _ => good) fun _ => good := by
  intro t ht
  rw [insert_run]
  cases hi : (r.registry.get t).insert? s with
  | none => exact ht
  | some reg =>
    obtain ⟨-, rfl⟩ := insert?_eq_some hi
    exact hr.insert hs ht

theorem putBack_keeps (hr : r.Discreet known good) :
    (r.putBack s).Meets (fun t => s.Known known ∧ good t) (fun _ => good) fun _ => good := by
  refine .assuming fun hs => .bind (insert_keeps hr hs) fun found => ?_
  cases found with
  | true => exact .pure fun _ ht => ht
  | false =>
    have hdrop : (Action.update (s.drop r.gateway.toKeeper)).Meets good (fun _ => good)
        fun _ => good := .update fun t ht => s.good_drop hr.gateway hs ht
    refine .bind (log_meets hr.gateway (contained_record hr.name (by decide) _ ?_)) fun _ =>
      hdrop.bind fun _ => .fail fun _ ht => ht
    exact List.forall_mem_singleton.mpr
      ⟨show (ascii "state").IsPrintable by decide, s.state.isPrintable_name⟩

theorem start_keeps (hr : r.Discreet known good) (x : Bytes) :
    (r.start x).Meets good (fun _ => good) fun _ => good := by
  have hstart : (r.participant.start r.gateway x).Meets good
      (fun s t => s.xid = x ∧ s.Known known ∧ good t) fun _ => good :=
    keeps_of_tells (Participant.start_tells hr.gateway hr.name x)
  refine hstart.bind fun s => .assuming fun hx => .assuming fun hs => ?_
  refine .bind (insert_keeps hr hs) fun found => ?_
  cases found with
  | true => exact .pure fun _ ht => ht
  | false =>
    subst hx
    have hundo := attempt_told (Participant.rollback_tells hr.gateway hr.name hs)
    refine .bind (log_meets hr.gateway (contained_record hr.name (by decide) s.xid ?_)) fun _ =>
      hundo.bind fun ending => ?_
    · exact nofun
    cases ending with
    | ok u => exact .fail fun _ ht => ht
    | error f =>
      refine .assuming fun hf => ?_
      exact .bind (log_meets hr.gateway (contained_record_error hr.name (by decide) hf)) fun _ =>
        .fail fun _ ht => ht

/-- An operation in place on a registered session. -/
theorem drive_keeps (hr : r.Discreet known good) {required : Xa.State}
    {operation : Action (Session κ × σ) Unit}
    (ho : operation.Meets (Participant.KnownFirst known good)
      (fun _ => Participant.KnownFirst known good) fun _ => Participant.KnownFirst known good) :
    (r.drive x required operation).Meets good (fun _ => good) fun _ => good := by
  refine .bind (take_keeps hr) fun s => .bind ?_ fun s' => putBack_keeps hr
  intro t ht
  have hend := ho (s, t) ht
  rcases hrun : operation.run (s, t) with ⟨f | u, s', t'⟩ <;> rw [hrun] at hend
  · simp only [Action.run] at hrun ⊢
    simp only [hrun]
    exact s'.good_drop hr.gateway hend.1 hend.2
  · simp only [Action.run] at hrun ⊢
    simp only [hrun]
    exact hend

theorem finish_keeps (hr : r.Discreet known good) (x : Bytes) :
    (r.finish x).Meets good (fun _ => good) fun _ => good :=
  drive_keeps hr (Participant.finish_keeps hr.gateway hr.name)

theorem prepare_keeps (hr : r.Discreet known good) (x : Bytes) :
    (r.prepare x).Meets good (fun _ => good) fun _ => good :=
  drive_keeps hr (Participant.prepare_keeps hr.gateway hr.name)

theorem commit_keeps (hr : r.Discreet known good) (x : Bytes) :
    (r.commit x).Meets good (fun _ => good) fun _ => good := by
  refine .bind (take_keeps hr) fun s => .assuming fun hs => ?_
  exact keeps_of_tells (Participant.commit_tells hr.gateway hr.name hs)

theorem rollback_keeps (hr : r.Discreet known good) (x : Bytes) :
    (r.rollback x).Meets good (fun _ => good) fun _ => good := by
  refine .bind (take_keeps hr) fun s => .assuming fun hs => ?_
  exact keeps_of_tells (Participant.rollback_tells hr.gateway hr.name hs)

end Registry.Site
end Coordinator

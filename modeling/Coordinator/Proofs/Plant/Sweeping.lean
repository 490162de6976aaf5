import Coordinator.Proofs.Plant.Exchange
import Coordinator.Proofs.Plant.Listing

/-! # Sweeps of stale branches

A sweep lists the prepared branches, and rolls back those whose xid starts with the given stem, one
after the other (`Participant.Course`).  A branch that cannot be rolled back is reported and left,
and the sweep goes on: so a sweep fails only if its listing does (`Participant.sweep_run`).

What one attempt does to the engine does not depend on what stands in its way (`Tried`): it returns,
and then a prepared branch is gone, and no other; or it fails, and then all branches are as they
were.  Along the course this adds up (`Course.branches`).  So **sweeps are exact**
(`sweeps_run`): whatever a workshop has been through, a sweep tries each stale branch once, counts
those that went, and changes no other branch.  With nothing in its way (`Unhindered`), those go
that have a literal, and the attempts on the others stop nothing. -/
namespace Coordinator

namespace Participant

variable {σ κ : Type} {P : Participant} {g : Gateway σ κ}

/-! ## The course of a sweep -/

/-- An attempt of a sweep: at what branch, and how it ended. -/
structure Try where
  xid : Bytes
  answer : Except Fault Unit

/-- The xids of the attempts that succeeded. -/
def rolledBack (tries : List Try) : List Bytes :=
  (tries.filter fun a => a.answer.isOk).map Try.xid

theorem rolledBack_sublist (tries : List Try) : (rolledBack tries).Sublist (tries.map Try.xid) :=
  List.filter_sublist.map _

/-- The xids of the attempts that failed. -/
def skipped (tries : List Try) : List Bytes :=
  (tries.filter fun a => !a.answer.isOk).map Try.xid

/-- Attempts one after the other; each that fails is reported. -/
inductive Course (P : Participant) (g : Gateway σ κ) : List Try → σ → σ → Prop
  | done {s : σ} : Course P g [] s s
  | rolledBack {tries : List Try} {s t u : σ} {x : Bytes}
      (h : (P.rollbackByXid g x).run s = (.ok (), t)) (rest : Course P g tries t u) :
      Course P g (⟨x, .ok ()⟩ :: tries) s u
  | skipped {tries : List Try} {s t u : σ} {x : Bytes} {f : Fault}
      (h : (P.rollbackByXid g x).run s = (.error f, t))
      (rest : Course P g tries (g.log (P.skippedRecord x f) t) u) :
      Course P g (⟨x, .error f⟩ :: tries) s u

variable {s t : σ} {stem : Bytes}

theorem sweepEach_run (P : Participant) (g : Gateway σ κ) (xids : List Bytes) (n : Sweep)
    (s : σ) : ∃ tries t, Course P g tries s t ∧ tries.map Try.xid = xids ∧
      (P.sweepEach g n xids).run s = (.ok ⟨n.rolledBack + (rolledBack tries).length,
        n.failed + (skipped tries).length⟩, t) := by
  induction xids generalizing n s with
  | nil => exact ⟨[], s, .done, rfl, rfl⟩
  | cons x xids ih =>
    rw [sweepEach, Action.run_bind, Action.run_attempt]
    rcases hx : (P.rollbackByXid g x).run s with ⟨f | ⟨⟩, t⟩
    · obtain ⟨tries, u, hcourse, rfl, hrun⟩ :=
        ih { n with failed := n.failed + 1 } (g.log (P.skippedRecord x f) t)
      refine ⟨⟨x, .error f⟩ :: tries, u, .skipped hx hcourse, rfl, ?_⟩
      show (P.sweepEach g { n with failed := n.failed + 1 } (tries.map Try.xid)).run
        (g.log (P.skippedRecord x f) t) = _
      rw [hrun, Nat.add_assoc, Nat.add_comm 1]
      rfl
    · obtain ⟨tries, u, hcourse, rfl, hrun⟩ := ih { n with rolledBack := n.rolledBack + 1 } t
      refine ⟨⟨x, .ok ()⟩ :: tries, u, .rolledBack hx hcourse, rfl, ?_⟩
      show (P.sweepEach g { n with rolledBack := n.rolledBack + 1 } (tries.map Try.xid)).run t = _
      rw [hrun, Nat.add_assoc, Nat.add_comm 1]
      rfl

/-- A sweep without a listing. -/
theorem sweep_run_of_error {f : Fault} (h : (P.recover g).run s = (.error f, t)) :
    (P.sweep g stem).run s = (.error f, t) := by
  rw [sweep, Action.run_bind, h]

/-- A sweep with a listing returns the number of branches rolled back. -/
theorem sweep_run {found : List Xa.Recovered} (h : (P.recover g).run s = (.ok found, t)) :
    ∃ tries u, Course P g tries t u ∧
      tries.map Try.xid = (found.map (·.xid)).filter (·.startsWith stem) ∧
      (P.sweep g stem).run s = (.ok (rolledBack tries).length, g.log (P.sweptRecord stem
        ⟨(rolledBack tries).length, (skipped tries).length⟩) u) := by
  obtain ⟨tries, u, hcourse, hxids, hrun⟩ := sweepEach_run P g
    ((found.filter fun b => b.xid.startsWith stem).map (·.xid)) {} t
  refine ⟨tries, u, hcourse, hxids.trans List.filter_map.symm, ?_⟩
  rw [sweep, Action.run_bind, h]
  simp only [Action.run_bind, hrun, Nat.zero_add]
  rfl

end Participant

namespace Plant

open Engine (ConnectionId Statement)
open Participant (Try Course rolledBack rolledBack_sublist)

/-! ## What an attempt makes of an engine -/

section Engine
variable {n : ConnectionId} {sql x : Bytes} {r : Settlement} {e e₁ e₂ e' : Engine}
  {answer : Except Fault Unit}

/-- An attempt to settle the branch of `x`, whatever is in its way: if it returns, the branch was
prepared and is gone; if it fails, nothing has happened. -/
structure Tried (x : Bytes) (e : Engine) (answer : Except Fault Unit) (e' : Engine) : Prop where
  gone : answer = .ok () → IsPrepared e x ∧
    ∀ y, e'.branches.get? y = if y = x then none else e.branches.get? y
  left : ∀ f, answer = .error f → ∀ y, e'.branches.get? y = e.branches.get? y

theorem Tried.between (h₁ : Undisturbed e e₁) (h : Tried x e₁ answer e₂)
    (h₂ : Undisturbed e₂ e') : Tried x e answer e' where
  gone ha := by
    obtain ⟨hx, hb⟩ := h.gone ha
    exact ⟨h₁.isPrepared_iff.mp hx, fun y => by rw [h₂.branches, hb, h₁.branches]⟩
  left f ha y := by rw [h₂.branches, h.left f ha, h₁.branches]

theorem tried_of_run (hp : Statement.parse sql = .ok (.branch r.verb x))
    (hfree : e.branches.hasOpen n = false) :
    Tried x e (((Engine.run n sql).run e).1.map fun _ => ()) ((Engine.run n sql).run e).2 := by
  rcases hr : (Engine.run n sql).run e with ⟨f | rows, e'⟩
  · obtain ⟨statements, injected, rfl⟩ := Engine.run_error hr
    exact ⟨nofun, fun _ _ _ => rfl⟩
  · obtain ⟨-, ⟨verb, x', hp', hm⟩ | ⟨hnone, -⟩⟩ := Engine.branches_of_run_ok hr
    · rw [hp] at hp'
      cases hp'
      obtain ⟨hbranches, owner, hx⟩ := moves_of_free hm hfree
      exact ⟨fun _ => ⟨⟨_, hx, rfl⟩, fun y => by simp only [hbranches, Table.get?_erase]⟩, nofun⟩
    · exact absurd hp (hnone r.verb x)

/-- A statement that no failure hits leaves the injected failures, and the engine switched on. -/
theorem kept_of_run {verb : Engine.Verb} (ha : e.available = true) (hc : e.Clear sql)
    (hp : Statement.parse sql = .ok (.branch verb x)) :
    ((Engine.run n sql).run e).2.available = e.available ∧
      ((Engine.run n sql).run e).2.injected = e.injected := by
  rw [Engine.run_of_read ha hc hp, Engine.perform_branch]
  split <;> exact ⟨rfl, rfl⟩

end Engine

/-! ## Over a pool -/

section Pool
variable {h : HostId} {k : Nat} {R : Table RegistryRef (Registry Line)} {loans : List Loan}
  {exact : Prop} {host : Host} {pool : Pool Line} {p p' : Plant} {n : ConnectionId}
  {sql x : Bytes} {P : Participant} {r : Settlement} {tries : List Try}

theorem tried_of_lends (hd : P.dialect ≠ .postgres) (hp : Lends h k exact R loans p) :
    Tried x (engineOf h p) ((r.run P (counter h k) x).run p).1
      (engineOf h ((r.run P (counter h k) x).run p).2) := by
  cases hq : Xa.Xid.quoteMysql x with
  | error f =>
    rw [← Workshop.quote_eq hd] at hq
    rw [r.run_of_unquoted hq]
    exact ⟨nofun, fun _ _ _ => rfl⟩
  | ok q =>
    obtain ⟨sql, hsql, hparse⟩ := r.statements_eq hd hq
    rcases ha : (counter h k).acquire.run p with ⟨f | l, p'⟩
    · have hunlent := acquire_undisturbed hp
      rw [ha] at hunlent
      rw [r.run_of_unacquired hsql ha]
      exact ⟨nofun, fun _ _ => hunlent.branches⟩
    · obtain ⟨n, e, hu, hfree, hanswer, hback⟩ := settlement_run hp hsql hparse ha
      rw [hanswer]
      exact (tried_of_run hparse hfree).between hu hback

/-- Along the course of a sweep, the branches that were rolled back are gone, and no others. -/
theorem course_branches (he : ¬ exact) (hd : P.dialect ≠ .postgres)
    (hc : Course P (counter h k) tries p p') (hp : Lends h k exact R loans p) (y : Bytes) :
    (engineOf h p').branches.get? y =
      if y ∈ rolledBack tries then none else (engineOf h p).branches.get? y := by
  induction hc with
  | done => exact (if_neg List.not_mem_nil).symm
  | @rolledBack tries p₀ p₁ p₂ x hx rest ih =>
    have htried := tried_of_lends (x := x) (r := .rollback) hd hp
    rw [Settlement.run, hx] at htried
    rw [ih ((rollbackByXid_meets he).ok_of_run hp hx), (htried.gone rfl).2]
    show _ = if y ∈ x :: rolledBack tries then none else _
    by_cases hy : y = x
    · rw [if_pos hy, ite_self, if_pos (hy ▸ List.mem_cons_self)]
    · rw [if_neg hy]
      simp only [List.mem_cons, hy, false_or]
  | @skipped tries p₀ p₁ p₂ x f hx rest ih =>
    have htried := tried_of_lends (x := x) (r := .rollback) hd hp
    rw [Settlement.run, hx] at htried
    rw [ih (((rollbackByXid_meets he).bad_of_run hp hx).log _)]
    show (if y ∈ rolledBack tries then none else (engineOf h p₁).branches.get? y) =
      if y ∈ rolledBack tries then none else _
    rw [htried.left f rfl]

/-! ### Room for one more connection -/

/-- The most connections that a pool of a plant may have. -/
def capacityOf (h : HostId) (k : Nat) (p : Plant) : Nat := ((poolCell (poolOf h k)).get p).capacity

theorem Holds.capacityOf_eq (hp : Holds h k R host pool p) : capacityOf h k p = pool.capacity := by
  rw [capacityOf, hp.get_pool]

theorem release_capacity (hp : Holds h k R host pool p) (n : ConnectionId) :
    capacityOf h k ((counter h k).release (lineTo h k n) p) = pool.capacity := by
  have hback := hp.release n
  split at hback <;> exact hback.capacityOf_eq

theorem acquire_capacity (hp : Lends h k exact R loans p) :
    capacityOf h k ((counter h k).acquire.run p).2 = capacityOf h k p := by
  obtain ⟨host, pool, hh, hc, -⟩ := hp
  let healthy (l : Line) : Bool := (alone.lines (.engine h) (some (poolOf h k))).isHealthy l p
  have hout := Pool.checkOut_checkedOut healthy pool
  have hbad := mem_idle_of_checkOut pool healthy
  rcases hco : pool.checkOut healthy with ⟨outcome, bad, pool'⟩
  rw [hco] at hout hbad
  have hcapacity : pool'.capacity = pool.capacity := by cases hout <;> rfl
  have hh' := (hh.set_pool pool').discard pool'.discardRecord fun l hl => hc.idle l (hbad l hl)
  rw [acquire_run hh hco, hh.capacityOf_eq, ← hcapacity]
  cases outcome with
  | reuse l => exact hh'.capacityOf_eq
  | exhausted => exact (hh'.log _).capacityOf_eq
  | reserved =>
    generalize bad.foldl (fun host l => host.close l.number) host = host' at hh'
    rw [settle, Action.run_onFailure, connect_run hh']
    by_cases hon : host'.engine.available = true
    · rw [if_pos hon]
      exact (hh'.set_host _).capacityOf_eq
    · rw [if_neg hon]
      exact ((hh'.set_host _).modify_pool Pool.openFailed).capacityOf_eq

theorem settlement_capacity (hp : Lends h k exact R loans p)
    (hsql : r.statements P.dialect x = .ok [sql]) :
    capacityOf h k ((r.run P (counter h k) x).run p).2 = capacityOf h k p := by
  have hlent := acquire_undisturbed hp
  rw [← acquire_capacity hp]
  rcases ha : (counter h k).acquire.run p with ⟨f | l, p'⟩
  · rw [r.run_of_unacquired hsql ha]
  · rw [ha] at hlent
    obtain ⟨n, host', pool, rfl, hh, -, hn, -⟩ := hlent
    obtain ⟨host'', p'', hwork, hh', -⟩ := work_run P r x sql hh hn
    rw [r.run_of_acquired hsql ha, hwork, release_capacity hh', hh.capacityOf_eq]

/-- With the engine there and a place free, a connection is lent. -/
theorem exists_acquired (hp : Lends h k exact R loans p) (hon : (engineOf h p).available = true)
    (hroom : loans.length < capacityOf h k p) :
    ∃ l p', (counter h k).acquire.run p = (.ok l, p') := by
  obtain ⟨host, pool, hh, hc, -⟩ := hp
  rw [hh.engineOf_eq] at hon
  rw [hh.capacityOf_eq] at hroom
  let healthy (l : Line) : Bool := (alone.lines (.engine h) (some (poolOf h k))).isHealthy l p
  have hout := Pool.checkOut_checkedOut healthy pool
  have hbad := mem_idle_of_checkOut pool healthy
  rcases hco : pool.checkOut healthy with ⟨outcome, bad, pool'⟩
  rw [hco] at hout hbad
  rw [acquire_run hh hco]
  have hh' := (hh.set_pool pool').discard pool'.discardRecord fun l hl => hc.idle l (hbad l hl)
  have hon' := foldl_close (Q := fun host => host.engine.available = true) (fun _ _ _ hq => hq) hon
    fun l hl => hc.free_of_idle (hbad l hl)
  cases hout with
  | reuse => exact ⟨_, _, rfl⟩
  | reserved =>
    rw [settle, Action.run_onFailure, connect_run hh', if_pos hon']
    exact ⟨_, _, rfl⟩
  | exhausted hbad hfull =>
    -- All that are not idle are on loan, so a place is free.
    have hlive := hc.live
    omega

/-- Nothing is in the way of an attempt to roll a prepared branch back. -/
structure Unhindered (P : Participant) (h : HostId) (k : Nat) (loans : List Loan) (p : Plant) :
    Prop where
  available : (engineOf h p).available = true
  clear : ∀ x sqls, P.dialect.rollback x .prepared = .ok sqls →
    ∀ sql ∈ sqls, (engineOf h p).Clear sql
  room : loans.length < capacityOf h k p

theorem Unhindered.next (hu : Unhindered P h k loans p)
    (havailable : (engineOf h p').available = (engineOf h p).available)
    (hinjected : (engineOf h p').injected = (engineOf h p).injected)
    (hcapacity : capacityOf h k p' = capacityOf h k p) : Unhindered P h k loans p' where
  available := havailable.trans hu.available
  clear x sqls hsqls sql hsql := by
    unfold Engine.Clear
    rw [hinjected]
    exact hu.clear x sqls hsqls sql hsql
  room := hcapacity ▸ hu.room

/-- With nothing in its way, an attempt at a prepared branch succeeds if its xid has a literal, and
leaves nothing in the way of the next. -/
theorem Unhindered.attempt (hu : Unhindered P h k loans p) (hd : P.dialect ≠ .postgres)
    (hp : Lends h k exact R loans p) (x : Bytes) :
    Unhindered P h k loans ((P.rollbackByXid (counter h k) x).run p).2 ∧
      (IsPrepared (engineOf h p) x →
        (((P.rollbackByXid (counter h k) x).run p).1 = .ok () ↔ 1 ≤ x.length ∧ x.length ≤ 64)) := by
  cases hq : Xa.Xid.quoteMysql x with
  | error f =>
    have hrun : (P.rollbackByXid (counter h k) x).run p = (.error f.fault, p) :=
      Settlement.rollback.run_of_unquoted (by rw [Workshop.quote_eq hd, hq])
    rw [hrun]
    refine ⟨hu, fun _ => iff_of_false nofun fun ⟨hne, hlen⟩ => ?_⟩
    obtain ⟨q, hq'⟩ := Engine.quoteMysql_of_length (List.ne_nil_of_length_pos hne) hlen
    cases hq.symm.trans hq'
  | ok q =>
    obtain ⟨sql, hsql, hparse⟩ := Settlement.rollback.statements_eq hd hq
    obtain ⟨l, p₁, ha⟩ := exists_acquired hp hu.available hu.room
    obtain ⟨n, e, he, hfree, hanswer, hback⟩ := settlement_run hp hsql hparse ha
    have hcapacity := settlement_capacity hp hsql
    have hon : e.available = true := he.available.trans hu.available
    have hclear : e.Clear sql := by
      unfold Engine.Clear
      rw [he.injected]
      exact hu.clear x [sql] hsql sql List.mem_cons_self
    obtain ⟨havailable, hinjected⟩ := kept_of_run (n := n) hon hclear hparse
    have hsettles := settles_of_run (n := n) hon hclear hparse hfree
    rw [Settlement.run] at hanswer hback hcapacity
    rw [hanswer, hsettles.returns_iff, he.isPrepared_iff]
    exact ⟨hu.next (hback.available.trans (havailable.trans he.available))
      (hback.injected.trans (hinjected.trans he.injected)) hcapacity,
      fun hx => iff_of_true hx (Engine.length_of_quoteMysql hq)⟩

/-- So of the branches of a sweep those with a literal are rolled back. -/
theorem Unhindered.course (hu : Unhindered P h k loans p) (he : ¬ exact)
    (hd : P.dialect ≠ .postgres) (hc : Course P (counter h k) tries p p')
    (hp : Lends h k exact R loans p) (hnodup : (tries.map Try.xid).Nodup)
    (hprepared : ∀ x ∈ tries.map Try.xid, IsPrepared (engineOf h p) x) :
    ∀ x ∈ tries.map Try.xid, x ∈ rolledBack tries ↔ 1 ≤ x.length ∧ x.length ≤ 64 := by
  induction hc with
  | done => exact nofun
  | @rolledBack tries p₀ p₁ p₂ x hx rest ih =>
    obtain ⟨hnext, hiff⟩ := hu.attempt hd hp x
    have htried := tried_of_lends (x := x) (r := .rollback) hd hp
    rw [Settlement.run, hx] at htried
    rw [hx] at hnext hiff
    obtain ⟨hnot, hnodup'⟩ := List.nodup_cons.mp hnodup
    have hrest := ih hnext ((rollbackByXid_meets he).ok_of_run hp hx) hnodup' fun y hy => by
      obtain ⟨b, hb, hstage⟩ := hprepared y (List.mem_cons_of_mem _ hy)
      have hyx : y ≠ x := fun hyx => hnot (hyx ▸ hy)
      exact ⟨b, by rw [(htried.gone rfl).2, if_neg hyx, hb], hstage⟩
    intro y hy
    show y ∈ x :: rolledBack tries ↔ _
    by_cases hyx : y = x
    · rw [hyx]
      exact iff_of_true List.mem_cons_self ((hiff (hprepared x List.mem_cons_self)).mp rfl)
    · rw [List.mem_cons, or_iff_right hyx]
      exact hrest y ((List.mem_cons.mp hy).resolve_left hyx)
  | @skipped tries p₀ p₁ p₂ x f hx rest ih =>
    obtain ⟨hnext, hiff⟩ := hu.attempt hd hp x
    have htried := tried_of_lends (x := x) (r := .rollback) hd hp
    rw [Settlement.run, hx] at htried
    rw [hx] at hnext hiff
    obtain ⟨hnot, hnodup'⟩ := List.nodup_cons.mp hnodup
    have hrest := ih ⟨hnext.available, hnext.clear, hnext.room⟩
      (((rollbackByXid_meets he).bad_of_run hp hx).log _) hnodup' fun y hy => by
        obtain ⟨b, hb, hstage⟩ := hprepared y (List.mem_cons_of_mem _ hy)
        exact ⟨b, (htried.left f rfl y).trans hb, hstage⟩
    intro y hy
    show y ∈ rolledBack tries ↔ _
    by_cases hyx : y = x
    · rw [hyx]
      refine iff_of_false (fun hmem => hnot ((rolledBack_sublist tries).subset hmem)) fun hlen => ?_
      cases (hiff (hprepared x List.mem_cons_self)).mpr hlen
    · exact hrest y ((List.mem_cons.mp hy).resolve_left hyx)

/-! ### The listing -/

/-- The recovery query, however it ends. -/
theorem query_meets_recover (hn : host.isBroken n = false) :
    ((counter h k).query (lineTo h k n) (ascii "XA RECOVER") []).Meets (Holds h k R host pool)
      (fun rows p => rows = host.engine.branches.prepared.map Engine.recoveryRow ∧
        ∃ e, Holds h k R { host with engine := e } pool p ∧ Undisturbed host.engine e)
      fun _ p => ∃ host', Holds h k R host' pool p ∧
        ∀ y, host'.engine.branches.get? y = host.engine.branches.get? y := by
  intro p hp
  have hquery : ((counter h k).query (lineTo h k n) (ascii "XA RECOVER") []).run p =
      (sendOn h n (ascii "XA RECOVER")).run p := rfl
  rw [hquery, send_run hp hn]
  rcases hrun : (Engine.run n (ascii "XA RECOVER")).run host.engine with ⟨f | rows, e⟩
  · obtain ⟨statements, injected, rfl⟩ := Engine.run_error hrun
    refine ⟨_, (hp.set_host _).modify_host (Host.noteFailure n f), fun y => ?_⟩
    rw [Host.engine_noteFailure]
  · obtain ⟨hon, hclear, -⟩ := Engine.run_ok hrun
    obtain ⟨e', hrun', hu, -⟩ := run_recover (n := n) hon hclear
    cases hrun.symm.trans hrun'
    exact ⟨rfl, e, hp.set_host _, hu⟩

/-- What a listing does on its connection. -/
def listing (P : Participant) (g : Gateway Plant Line) (l : Line) :
    Action Plant (List Xa.Recovered) := do
  let rows ← (g.query l P.dialect.recover []).onFailure fun f => g.log (P.queryFailedRecord f)
  let found ← .ofExcept ((rows.mapM Xa.Recovered.ofRow).mapError Xa.Recovered.RowFault.fault)
  .update (g.log ⟨.debug, ascii "Recovery scan",
    [P.field, .ofInt (ascii "prepared") found.length]⟩)
  return found

/-- Rows that are read list the branches of the engine. -/
theorem listing_meets (hd : P.dialect ≠ .postgres) (hn : host.isBroken n = false) :
    (listing P (counter h k) (lineTo h k n)).Meets (Holds h k R host pool)
      (fun found p => ListsAll host.engine found ∧
        ∃ e, Holds h k R { host with engine := e } pool p ∧ Undisturbed host.engine e)
      fun _ p => ∃ host', Holds h k R host' pool p ∧
        ∀ y, host'.engine.branches.get? y = host.engine.branches.get? y := by
  unfold listing
  rw [recover_eq hd]
  refine Action.Meets.bind (Action.Meets.onFailure (query_meets_recover hn)
    fun _ _ ⟨host', hh', hb⟩ => ⟨host', hh'.log _, hb⟩) fun rows => ?_
  refine Action.Meets.ofExcept_bind (fun found hfound => ?_) fun f _ p' ⟨_, e, hh', hu'⟩ =>
    ⟨_, hh', hu'.branches⟩
  rintro p' ⟨rfl, e, hh', hu'⟩
  obtain ⟨hfits, rfl⟩ := describe_of_mapM (statement_ok hfound)
  have hall : ListsAll host.engine (host.engine.branches.prepared.map describe) :=
    listsAll fun x hx => hfits x (mem_prepared_iff.mpr hx)
  exact And.intro hall ⟨e, hh'.log _, hu'⟩

/-- What a listing comes to, whatever is in its way. -/
structure Listed (h : HostId) (k : Nat) (p : Plant) (answer : Except Fault (List Xa.Recovered))
    (p' : Plant) : Prop where
  branches : ∀ y, (engineOf h p').branches.get? y = (engineOf h p).branches.get? y
  capacity : capacityOf h k p' = capacityOf h k p
  lists : ∀ found, answer = .ok found →
    ListsAll (engineOf h p) found ∧ Undisturbed (engineOf h p) (engineOf h p')

theorem listed_of_lends (hd : P.dialect ≠ .postgres) (hp : Lends h k exact R loans p) :
    Listed h k p ((P.recover (counter h k)).run p).1 ((P.recover (counter h k)).run p).2 := by
  have hlent := acquire_undisturbed hp
  have hcapacity := acquire_capacity hp
  have hrecover : P.recover (counter h k) =
      (counter h k).withConnection (listing P (counter h k)) := rfl
  rw [hrecover, Gateway.withConnection, Action.run_bind]
  rcases ha : (counter h k).acquire.run p with ⟨f | l, p₁⟩
  · rw [ha] at hlent hcapacity
    exact ⟨hlent.branches, hcapacity, fun _ hfound => by cases hfound⟩
  rw [ha] at hlent hcapacity
  obtain ⟨n, host₁, pool, rfl, hh, hu, hn, hfree⟩ := hlent
  rw [hh.capacityOf_eq] at hcapacity
  have hwork := listing_meets hd hn p₁ hh
  show Listed h k p ((Action.ensuring _ _).run p₁).1 ((Action.ensuring _ _).run p₁).2
  rw [Action.run_ensuring]
  rcases hrun : (listing P (counter h k) (lineTo h k n)).run p₁ with ⟨f | found, p₂⟩
  · rw [hrun] at hwork
    obtain ⟨host₂, hh₂, hb⟩ := hwork
    have hback := hh₂.released
      (Engine.Branches.hasOpen_of_fewer (fun y _ hy => (hb y).symm.trans hy) hfree)
    exact ⟨fun y => by rw [hback.branches, hb, hu.branches],
      (release_capacity hh₂ n).trans hcapacity, fun _ hfound => by cases hfound⟩
  · rw [hrun] at hwork
    obtain ⟨hall, e, hh₂, hu₂⟩ := hwork
    have hback := hh₂.released (hu₂.hasOpen_eq_false hfree)
    have hwhole := (hu.trans hu₂).trans hback
    refine ⟨hwhole.branches, (release_capacity hh₂ n).trans hcapacity, fun _ hfound => ?_⟩
    cases hfound
    exact ⟨hall.of_undisturbed hu, hwhole⟩

end Pool

namespace Workshop

variable {exact : Prop} {w : Workshop} {P : Participant} {stem : Bytes}

/-- A sweep whose attempts were `tries`, from the engine before to the engine after. -/
structure Swept (stem : Bytes) (before : Engine) (tries : List Try) (after : Engine) : Prop where
  /-- Each stale branch is tried once, and nothing else. -/
  once : (tries.map Try.xid).Nodup
  exact : ∀ x, x ∈ tries.map Try.xid ↔ IsPrepared before x ∧ stem <+: x
  /-- What was rolled back was stale and is gone; everything else is there as before. -/
  stale : ∀ x ∈ rolledBack tries, IsPrepared before x ∧ stem <+: x
  branches : ∀ y, after.branches.get? y =
    if y ∈ rolledBack tries then none else before.branches.get? y

/-- Nothing is in the way of sweeps in a workshop: the engine is there, no injected failure is in
store for a statement of a sweep, and not all connections are out. -/
structure IsClear (w : Workshop) (P : Participant) : Prop where
  available : w.backend.engine.available = true
  listing : w.backend.engine.Clear P.dialect.recover
  clear : ∀ x sqls, P.dialect.rollback x .prepared = .ok sqls →
    ∀ sql ∈ sqls, w.backend.engine.Clear sql
  room : w.pool.live - w.pool.idle.length < w.pool.capacity

theorem Orderly.unhindered (hw : Orderly exact w) (hclear : IsClear w P) :
    Unhindered P host number (heldLoans w.held ++ filedLoans w.plant.registries) w.plant where
  available := hclear.available
  clear := hclear.clear
  room := by
    obtain ⟨host', pool, hh, hc, -⟩ := hw.lends
    have hroom := hclear.room
    have hlive := hc.live
    rw [show w.pool = pool from hh.get_pool] at hroom
    rw [hh.capacityOf_eq]
    omega

/-- What sweeps come to in a workshop. -/
structure Sweeps (w : Workshop) (P : Participant) (stem : Bytes) : Prop where
  /-- Without a listing, its failure is all there is. -/
  fails : ∀ f p, (P.recover (counter host number)).run w.plant = (.error f, p) →
    (P.sweep (counter host number) stem).run w.plant = (.error f, p) ∧
      ∀ y, (engineOf host p).branches.get? y = w.backend.engine.branches.get? y
  /-- With one, the sweep returns the number of branches that it removed; with nothing in its way,
  these are the ones whose xids have a literal. -/
  sweeps : ∀ found p, (P.recover (counter host number)).run w.plant = (.ok found, p) →
    ∃ tries p' p'', Course P (counter host number) tries p p' ∧
      (P.sweep (counter host number) stem).run w.plant = (.ok (rolledBack tries).length, p'') ∧
      Swept stem w.backend.engine tries (engineOf host p'') ∧
      (IsClear w P → ∀ x ∈ tries.map Try.xid,
        x ∈ rolledBack tries ↔ 1 ≤ x.length ∧ x.length ≤ 64)
  /-- With nothing in its way, there is a listing. -/
  lists : IsClear w P → Representable w.backend.engine →
    ∃ found p, (P.recover (counter host number)).run w.plant = (.ok found, p)

theorem Orderly.sweeps (hw : Orderly exact w) (he : ¬ exact) (hd : P.dialect ≠ .postgres) :
    Sweeps w P stem where
  fails f p hrun := by
    have hlisted := listed_of_lends hd hw.lends
    rw [hrun] at hlisted
    exact ⟨Participant.sweep_run_of_error hrun, hlisted.branches⟩
  sweeps found p hrun := by
    have hlisted := listed_of_lends hd hw.lends
    rw [hrun] at hlisted
    obtain ⟨hall, hu⟩ := hlisted.lists found rfl
    have hlends := recover_meets.ok_of_run hw.lends hrun
    obtain ⟨tries, p', hcourse, hxids, hsweep⟩ :=
      Participant.sweep_run (P := P) (g := counter host number) hrun
    have hexact (x : Bytes) : x ∈ tries.map Try.xid ↔
        IsPrepared w.backend.engine x ∧ stem <+: x := by
      rw [hxids, List.mem_filter, hall.exact, Bytes.startsWith, List.isPrefixOf_iff_prefix]
      rfl
    have honce : (tries.map Try.xid).Nodup := hxids ▸ hall.once.filter _
    refine ⟨tries, p', _, hcourse, hsweep, ⟨honce, hexact, fun x hx => ?_, fun y => ?_⟩,
      fun hclear => ?_⟩
    · exact (hexact x).mp ((rolledBack_sublist tries).subset hx)
    · exact (course_branches he hd hcourse hlends y).trans (by rw [hu.branches]; rfl)
    · have hnext := (hw.unhindered hclear).next hu.available hu.injected hlisted.capacity
      refine hnext.course he hd hcourse hlends honce fun x hx => ?_
      exact hu.isPrepared_iff.mpr ((hexact x).mp hx).1
  lists hclear hfits := by
    have hlent := exists_acquired hw.lends hclear.available (hw.unhindered hclear).room
    obtain ⟨host', pool, hh, hc, -⟩ := hw.lends
    have heq : w.backend.engine = host'.engine := hh.engineOf_eq
    have hon := hclear.available
    have hlisting := hclear.listing
    rw [heq] at hon hlisting hfits
    rw [recover_eq hd] at hlisting
    obtain ⟨found, p', hrun, -⟩ := recover_run hd hh hc.tended hfits hon hlisting hlent
    exact ⟨found, p', hrun⟩

/-- **Sweeps are exact.** -/
theorem sweeps_run (version name : Bytes) (capacity : Nat) (timeout : Int64) {ops : List Op}
    (hp : ∀ op ∈ ops, op.IsPassive) {P : Participant} (hd : P.dialect ≠ .postgres)
    (stem : Bytes) : Sweeps ((new version name capacity timeout).run ops) P stem :=
  (orderly_run (orderly_new version name capacity timeout) hp False.elim).sweeps id hd

/-- Prepared branches that are stale, one of them with an xid that no literal can be written for, and
one that is not; a session under way with an xid like theirs; and a failure in store for one of
them. -/
def clutter : List Op :=
  [.injectPrepared (ascii "stale-1"), .injectPrepared (ascii "stale-" ++ List.replicate 60 120),
    .injectPrepared (ascii "other"), .injectPrepared (ascii "stale-2"),
    .start ⟨ascii "p", .mysql⟩ 0 (ascii "stale-open"),
    .inject ⟨ascii "XA ROLLBACK 'stale-1'", .busy, ascii "locked", true⟩]

/-- The workshop with the clutter. -/
def cluttered : Workshop := (new (ascii "8.0") (ascii "orders") 2 50).run clutter

theorem sweeps_cluttered :
    let after := (Participant.sweep ⟨ascii "p", .mysql⟩ (counter host number)
      (ascii "stale-")).run cluttered.plant
    after.1 = .ok 1 ∧
      (engineOf host after.2).branches.get? (ascii "other") = some .detached ∧
      (engineOf host after.2).branches.get? (ascii "stale-open") = some ⟨.active, 1⟩ := by
  have hp : ∀ op ∈ clutter, op.IsPassive := by simp [clutter, Op.IsPassive]
  have hsweeps := sweeps_run (ascii "8.0") (ascii "orders") 2 50 hp
    (P := ⟨ascii "p", .mysql⟩) (by decide) (ascii "stale-")
  have hlisting : ((Participant.recover ⟨ascii "p", .mysql⟩ (counter host number)).run
      cluttered.plant).1.isOk = true := by decide +kernel
  have hcount : ((Participant.sweep ⟨ascii "p", .mysql⟩ (counter host number)
      (ascii "stale-")).run cluttered.plant).1 = .ok 1 := by decide +kernel
  rcases hrecover : (Participant.recover ⟨ascii "p", .mysql⟩ (counter host number)).run
    cluttered.plant with ⟨f | found, p⟩
  · rw [hrecover] at hlisting
    cases hlisting
  · obtain ⟨tries, p', p'', -, hrun, hswept, -⟩ := hsweeps.sweeps found p hrecover
    have hrun' : (Participant.sweep ⟨ascii "p", .mysql⟩ (counter host number)
        (ascii "stale-")).run cluttered.plant = (.ok (rolledBack tries).length, p'') := hrun
    refine ⟨hcount, ?_, ?_⟩
    · rw [hrun', hswept.branches, if_neg fun hmem => ?_]
      · rfl
      · exact absurd (hswept.stale _ hmem).2 (by decide)
    · rw [hrun', hswept.branches, if_neg fun hmem => ?_]
      · rfl
      · obtain ⟨b, hb, hstage⟩ := (hswept.stale _ hmem).1
        cases hb
        cases hstage

end Workshop
end Plant
end Coordinator

import Coordinator.Proofs.Engine.Addressing
import Coordinator.Proofs.Plant.Agreement

/-! # Recovery by xid

A recovery operation settles a branch from outside (`Settlement`): it takes a connection of the
pool, sends one statement on it, and gives it back.  A resource manager lets a connection roll back
its own unprepared branch too.  That never happens here: a connection that the pool lends has no
such branch, whatever the sessions of the workshop have done with it before
(`Custody.free_of_clean`).

So **recovery touches prepared branches only** (`recovers_run`).  If nothing stands in the way, a
settlement succeeds just if the branch is prepared, and then takes exactly this branch off the
engine (`Settles`); an xid that has no literal costs no connection; and whatever stands in the way,
no unprepared branch is changed (`Spares`). -/
namespace Coordinator.Plant

open Engine (Branch ConnectionId Statement Verb)

/-! ## Settlements -/

/-- How recovery settles a branch. -/
inductive Settlement
  | commit
  | rollback
deriving DecidableEq, Repr

namespace Settlement

variable {σ κ : Type} {P : Participant} {g : Gateway σ κ} {x : Bytes} {s t : σ} {c : κ}
  {sqls : List Bytes} (r : Settlement)

/-- The recovery operation. -/
def run (P : Participant) (g : Gateway σ κ) (x : Bytes) : Settlement → Action σ Unit
  | commit => P.commitByXid g x
  | rollback => P.rollbackByXid g x

/-- The name of the operation in faults and records. -/
def name : Settlement → Bytes
  | commit => ascii "commit_by_xid"
  | rollback => ascii "rollback_by_xid"

/-- What the journal says of a settlement. -/
def message : Settlement → String
  | commit => "Recovered XA branch committed"
  | rollback => "Recovered XA branch rolled back"

/-- The step that the engine is asked for. -/
def verb : Settlement → Verb
  | commit => .commit false
  | rollback => .rollback

/-- The statements of a settlement, in order. -/
def statements (d : Xa.Dialect) (x : Bytes) : Settlement → Except Xa.Xid.QuoteFault (List Bytes)
  | commit => (d.commit x).map ([·])
  | rollback => d.rollback x .prepared

/-- What is done on the connection. -/
def work (P : Participant) (g : Gateway σ κ) (x : Bytes) (sqls : List Bytes) (c : κ) :
    Action σ Unit := do
  .forEach (P.send g c r.name x) sqls
  .update (g.log (P.doneRecord .info r.message x))

theorem run_eq : r.run P g x = (do
    let sqls ← Participant.statement (r.statements P.dialect x)
    g.withConnection (r.work P g x sqls)) := by
  cases r with
  | commit =>
    have hwork (sql : Bytes) : Settlement.commit.work P g x [sql] = fun c => (do
        P.send g c (ascii "commit_by_xid") x sql
        .update (g.log (P.doneRecord .info "Recovered XA branch committed" x)) :
        Action σ Unit) := by
      funext c
      simp only [work, Action.forEach, bind_assoc, pure_bind]
      rfl
    simp only [statements, Participant.statement_map, bind_assoc, pure_bind, hwork]
    rfl
  | rollback => rfl

/-- With a connection, the statements are sent, and the connection goes back. -/
theorem run_of_acquired (hsql : r.statements P.dialect x = .ok sqls)
    (ha : g.acquire.run s = (.ok c, t)) : (r.run P g x).run s =
      (((r.work P g x sqls c).run t).1, g.release c ((r.work P g x sqls c).run t).2) := by
  have hrun : (g.withConnection (r.work P g x sqls)).run s =
      ((r.work P g x sqls c).ensuring (g.release c)).run t := by
    rw [Gateway.withConnection, Action.run_bind, ha]
  rw [run_eq, hsql]
  exact hrun

/-- Without one, nothing more is done. -/
theorem run_of_unacquired {f : Fault} (hsql : r.statements P.dialect x = .ok sqls)
    (ha : g.acquire.run s = (.error f, t)) : (r.run P g x).run s = (.error f, t) := by
  have hrun : (g.withConnection (r.work P g x sqls)).run s = (.error f, t) := by
    rw [Gateway.withConnection, Action.run_bind, ha]
  rw [run_eq, hsql]
  exact hrun

/-- An xid without a literal is turned down before a connection is asked for. -/
theorem run_of_unquoted {f : Xa.Xid.QuoteFault} (hq : P.dialect.quote x = .error f) :
    (r.run P g x).run s = (.error f.fault, s) := by
  have hsql : r.statements P.dialect x = .error f := by
    cases r with
    | commit =>
      rw [statements, Xa.Dialect.commit, hq]
      rfl
    | rollback =>
      cases hd : P.dialect with
      | postgres | mysql | strict =>
        rw [hd] at hq
        simp only [statements, Xa.Dialect.rollback, hq]
        rfl
  rw [run_eq, hsql]
  rfl

/-- To a server that takes an xid in every step, a settlement is one statement. -/
theorem statements_eq {d : Xa.Dialect} (hd : d ≠ .postgres) {q : Bytes}
    (hq : Xa.Xid.quoteMysql x = .ok q) : ∃ sql, r.statements d x = .ok [sql] ∧
      Statement.parse sql = .ok (.branch r.verb x) := by
  cases r with
  | commit =>
    refine ⟨ascii "XA COMMIT " ++ q, ?_, Engine.parse_commit hq⟩
    rw [statements, Engine.commit_eq hd, hq]
    rfl
  | rollback =>
    refine ⟨ascii "XA ROLLBACK " ++ q, ?_, Engine.parse_rollback hq⟩
    rw [statements, Engine.rollback_eq hd, hq]
    rfl

end Settlement

/-! ## What a settlement makes of an engine -/

section Engine
variable {n : ConnectionId} {sql x : Bytes} {r : Settlement} {e e₁ e₂ e' : Engine}
  {answer : Except Fault Unit}

/-- The branch of `x` is prepared. -/
def IsPrepared (e : Engine) (x : Bytes) : Prop :=
  ∃ b, e.branches.get? x = some b ∧ b.stage = .prepared

/-- A settlement of the branch of `x` with nothing in its way, from the engine before to the engine
after: it returns just if the branch is prepared, and then this branch is gone, and one commit
counted if it was one; else it finds no such branch, and nothing changes. -/
structure Settles (r : Settlement) (x : Bytes) (e : Engine) (answer : Except Fault Unit)
    (e' : Engine) : Prop where
  returns_iff : answer = .ok () ↔ IsPrepared e x
  settled : answer = .ok () →
    (∀ y, e'.branches.get? y = if y = x then none else e.branches.get? y) ∧
      e'.committed = e.committed + if r = .commit then 1 else 0
  refused : ∀ f, answer = .error f → f.kind = .notFound ∧
    (∀ y, e'.branches.get? y = e.branches.get? y) ∧ e'.committed = e.committed

/-- Every unprepared branch stays as it is. -/
def Spares (e e' : Engine) : Prop :=
  ∀ y b, e.branches.get? y = some b → b.stage ≠ .prepared → e'.branches.get? y = some b

/-- Nothing has changed that a settlement looks at or counts. -/
structure Undisturbed (e e' : Engine) : Prop where
  branches : ∀ y, e'.branches.get? y = e.branches.get? y
  committed : e'.committed = e.committed
  available : e'.available = e.available
  injected : e'.injected = e.injected

theorem Undisturbed.refl (e : Engine) : Undisturbed e e := ⟨fun _ => rfl, rfl, rfl, rfl⟩

/-- A connection closes without a branch. -/
theorem Undisturbed.disconnect (h : Undisturbed e e') (hfree : e'.branches.hasOpen n = false) :
    Undisturbed e (e'.disconnect n) := by
  refine ⟨fun y => ?_, h.committed, h.available, h.injected⟩
  show (e'.branches.disconnect n).get? y = e.branches.get? y
  rw [Engine.Branches.get?_disconnect_of_free hfree]
  exact h.branches y

theorem Undisturbed.isPrepared_iff (h : Undisturbed e e') : IsPrepared e' x ↔ IsPrepared e x := by
  rw [IsPrepared, IsPrepared, h.branches]

/-- What happens before and after that is none of its business does not matter to a settlement. -/
theorem Settles.between (h₁ : Undisturbed e e₁) (h : Settles r x e₁ answer e₂)
    (h₂ : Undisturbed e₂ e') : Settles r x e answer e' where
  returns_iff := h.returns_iff.trans h₁.isPrepared_iff
  settled ha := by
    obtain ⟨hb, hc⟩ := h.settled ha
    refine ⟨fun y => ?_, ?_⟩
    · rw [h₂.branches, hb, h₁.branches]
    · rw [h₂.committed, hc, h₁.committed]
  refused f ha := by
    obtain ⟨hkind, hb, hc⟩ := h.refused f ha
    refine ⟨hkind, fun y => ?_, ?_⟩
    · rw [h₂.branches, hb, h₁.branches]
    · rw [h₂.committed, hc, h₁.committed]

theorem Spares.between (h₁ : Undisturbed e e₁) (h : Spares e₁ e₂) (h₂ : Undisturbed e₂ e') :
    Spares e e' := by
  intro y b hy hb
  rw [h₂.branches]
  exact h y b ((h₁.branches y).trans hy) hb

/-- The statement of a settlement, on a connection without an unprepared branch. -/
theorem settles_of_run (ha : e.available = true) (hc : e.Clear sql)
    (hp : Statement.parse sql = .ok (.branch r.verb x)) (hfree : e.branches.hasOpen n = false) :
    Settles r x e (((Engine.run n sql).run e).1.map fun _ => ()) ((Engine.run n sql).run e).2 := by
  have hv : r.verb = .commit false ∨ r.verb = .rollback := by
    cases r with
    | commit => exact Or.inl rfl
    | rollback => exact Or.inr rfl
  have hprepared : (e.branches.get? x).any (fun b => b.stage = .prepared) = true ↔
      IsPrepared e x := by
    rw [Option.any_eq_true]
    simp only [decide_eq_true_iff, IsPrepared]
  rw [Engine.run_eq_outcome ha hc hp, Engine.outcome, hfree, Engine.act_of_free hfree hv]
  by_cases hx : (e.branches.get? x).any (fun b => b.stage = .prepared) = true
  · rw [if_pos hx]
    refine ⟨iff_of_true rfl (hprepared.mp hx), fun _ => ⟨fun y => ?_, ?_⟩, fun f hf => ?_⟩
    · exact Engine.Branches.get?_put e.branches x y none
    · cases r <;> rfl
    · cases hf
  · rw [if_neg hx]
    refine ⟨iff_of_false (fun h => ?_) fun h => hx (hprepared.mpr h), fun h => ?_, fun f hf => ?_⟩
    · cases h
    · cases h
    · cases hf
      exact ⟨rfl, fun _ => rfl, rfl⟩

/-- A connection without an unprepared branch settles a prepared one. -/
theorem moves_of_free {t u : Engine.Branches} (hm : t.Moves n x r.verb u)
    (hfree : t.hasOpen n = false) :
    u = t.erase x ∧ ∃ owner, t.get? x = some ⟨.prepared, owner⟩ := by
  cases r with
  | commit =>
    cases hm with
    | commit owner hx => exact ⟨rfl, owner, hx⟩
  | rollback =>
    cases hm with
    | rollback owner hx => exact ⟨rfl, owner, hx⟩
    | rollbackOwn hx =>
      have hclosed := Engine.Branches.hasOpen_eq_false_iff.mp hfree x _ hx
      simp [Branch.isOpenOn] at hclosed

/-- However the statement ends, no unprepared branch is touched, and its connection has none. -/
theorem spares_of_run (hp : Statement.parse sql = .ok (.branch r.verb x))
    (hfree : e.branches.hasOpen n = false) :
    Spares e ((Engine.run n sql).run e).2 ∧
      ((Engine.run n sql).run e).2.branches.hasOpen n = false := by
  rcases hr : (Engine.run n sql).run e with ⟨f | rows, e'⟩
  · obtain ⟨statements, injected, rfl⟩ := Engine.run_error hr
    exact ⟨fun _ _ hy _ => hy, hfree⟩
  · obtain ⟨-, ⟨verb, x', hp', hm⟩ | ⟨hnone, -⟩⟩ := Engine.branches_of_run_ok hr
    · rw [hp] at hp'
      cases hp'
      obtain ⟨hbranches, owner, hx⟩ := moves_of_free hm hfree
      constructor
      · intro y b hy hb
        have hne : y ≠ x := by
          intro hyx
          rw [hyx, hx] at hy
          cases hy
          exact hb rfl
        simp only [hbranches, Table.get?_erase, if_neg hne, hy]
      · refine Engine.Branches.hasOpen_of_fewer (fun y b hy => ?_) hfree
        simp only [hbranches, Table.get?_erase] at hy
        split at hy
        · cases hy
        · exact hy
    · exact absurd hp (hnone r.verb x)

end Engine

/-! ## On a connection of the pool -/

section Pool
variable {h : HostId} {k : Nat} {R : Table RegistryRef (Registry Line)} {loans : List Loan}
  {exact : Prop} {host : Host} {pool : Pool Line} {p p' : Plant} {n : ConnectionId}
  {sql x : Bytes} {P : Participant} {r : Settlement} {e : Engine}

/-- The engine of a plant. -/
def engineOf (h : HostId) (p : Plant) : Engine := ((hostCell h).get p).engine

theorem Holds.engineOf_eq (hp : Holds h k R host pool p) : engineOf h p = host.engine := by
  rw [engineOf, hp.get_host]

/-- What a settlement does on its connection is up to the engine. -/
theorem work_run (P : Participant) (r : Settlement) (x sql : Bytes)
    (hp : Holds h k R host pool p) (hn : host.isBroken n = false) :
    ∃ host' p', (r.work P (counter h k) x [sql] (lineTo h k n)).run p =
        (((Engine.run n sql).run host.engine).1.map fun _ => (), p') ∧
      Holds h k R host' pool p' ∧ host'.engine = ((Engine.run n sql).run host.engine).2 := by
  have hexecute : ((counter h k).execute (lineTo h k n) sql).run p =
      ((sendOn h n sql >>= fun _ => pure ()) : Action Plant Unit).run p := rfl
  rw [Action.run_bind, send_run hp hn] at hexecute
  rw [Settlement.work, Action.forEach, Action.forEach, Action.run_bind, Action.run_bind,
    Participant.send, Action.run_onFailure, hexecute]
  rcases hr : (Engine.run n sql).run host.engine with ⟨f | rows, e⟩
  · have hh := (hp.set_host { host with engine := e }).modify_host (Host.noteFailure n f)
    refine ⟨_, _, rfl, hh.log _, ?_⟩
    unfold Host.noteFailure
    split <;> rfl
  · exact ⟨_, _, rfl, (hp.set_host { host with engine := e }).log _, rfl⟩

/-- A connection without an unprepared branch goes back, and may be closed. -/
theorem Holds.released (hp : Holds h k R host pool p)
    (hfree : host.engine.branches.hasOpen n = false) :
    Undisturbed host.engine (engineOf h ((counter h k).release (lineTo h k n) p)) := by
  have hr := hp.release n
  split at hr
  · rw [hr.engineOf_eq]
    exact .refl _
  · rw [hr.engineOf_eq]
    exact (Undisturbed.refl _).disconnect hfree

/-- A connection that is lent has no unprepared branch and is not broken; while it is fetched,
nothing happens to the branches. -/
theorem acquire_undisturbed (hp : Lends h k exact R loans p) :
    match (counter h k).acquire.run p with
    | (.ok l, p') => ∃ n host pool, l = lineTo h k n ∧ Holds h k R host pool p' ∧
        Undisturbed (engineOf h p) host.engine ∧ host.isBroken n = false ∧
        host.engine.branches.hasOpen n = false
    | (.error _, p') => Undisturbed (engineOf h p) (engineOf h p') := by
  obtain ⟨host, pool, hh, hc, -⟩ := hp
  have hready : LendsIf h k exact R (fun host => Undisturbed (engineOf h p) host.engine) loans p :=
    ⟨host, pool, hh, hc, by rw [hh.engineOf_eq]; exact .refl _⟩
  have hclose : ∀ (host' : Host) n, host'.engine.branches.hasOpen n = false →
      Undisturbed (engineOf h p) host'.engine →
        Undisturbed (engineOf h p) (host'.close n).engine := by
    intro host' n hfree hq
    exact hq.disconnect hfree
  have hopen : ∀ host' : Host, Undisturbed (engineOf h p) host'.engine →
      Undisturbed (engineOf h p) (connected host').engine := by
    intro host' hq
    exact ⟨hq.branches, hq.committed, hq.available, hq.injected⟩
  have hend := acquire_meets hclose hopen p hready
  rcases ha : (counter h k).acquire.run p with ⟨f | l, p'⟩
  · rw [ha] at hend
    obtain ⟨host', pool', hh', -, hq⟩ := hend
    show Undisturbed (engineOf h p) (engineOf h p')
    rw [hh'.engineOf_eq]
    exact hq
  · rw [ha] at hend
    obtain ⟨n, hl, host', pool', hh', hc', hq, hn⟩ := hend
    exact ⟨n, host', pool', hl, hh', hq, hn, hc'.free_of_clean⟩

/-- A settlement with a connection: the engine is as before when the statement reaches it, and as
the statement left it when the connection is back. -/
theorem settlement_run {l : Line} (hp : Lends h k exact R loans p)
    (hsql : r.statements P.dialect x = .ok [sql])
    (hparse : Statement.parse sql = .ok (.branch r.verb x))
    (ha : (counter h k).acquire.run p = (.ok l, p')) : ∃ n e,
      Undisturbed (engineOf h p) e ∧ e.branches.hasOpen n = false ∧
      ((r.run P (counter h k) x).run p).1 = ((Engine.run n sql).run e).1.map (fun _ => ()) ∧
      Undisturbed ((Engine.run n sql).run e).2
        (engineOf h ((r.run P (counter h k) x).run p).2) := by
  have hlent := acquire_undisturbed hp
  rw [ha] at hlent
  obtain ⟨n, host', pool, rfl, hh, hu, hn, hfree⟩ := hlent
  obtain ⟨host'', p'', hwork, hh', he⟩ := work_run P r x sql hh hn
  have hfree' : host''.engine.branches.hasOpen n = false := by
    rw [he]
    exact (spares_of_run hparse hfree).2
  have hback := hh'.released hfree'
  rw [he] at hback
  rw [r.run_of_acquired hsql ha, hwork]
  exact ⟨n, host'.engine, hu, hfree, rfl, hback⟩

end Pool

namespace Workshop

variable {exact : Prop} {w : Workshop} {P : Participant} {r : Settlement} {x sql : Bytes}

/-- What a settlement by xid does in a workshop. -/
structure Recovers (w : Workshop) (P : Participant) (r : Settlement) (x : Bytes) : Prop where
  /-- With nothing in its way. -/
  settles : x ≠ [] → x.length ≤ 64 → ∃ sql, r.statements P.dialect x = .ok [sql] ∧
    (w.backend.engine.available = true → w.backend.engine.Clear sql →
      (∃ l p, (counter host number).acquire.run w.plant = (.ok l, p)) →
      Settles r x w.backend.engine ((r.run P (counter host number) x).run w.plant).1
        (engineOf host ((r.run P (counter host number) x).run w.plant).2))
  /-- Whatever is in its way. -/
  spares : Spares w.backend.engine
    (engineOf host ((r.run P (counter host number) x).run w.plant).2)
  /-- For an xid without a literal, over any connections. -/
  rejects : ∀ f, P.dialect.quote x = .error f → f.fault.kind = .protocol ∧
    ∀ {σ κ : Type} (g : Gateway σ κ) (s : σ), (r.run P g x).run s = (.error f.fault, s)

theorem Orderly.settles (hw : Orderly exact w) (hsql : r.statements P.dialect x = .ok [sql])
    (hp : Engine.Statement.parse sql = .ok (.branch r.verb x))
    (havailable : w.backend.engine.available = true) (hclear : w.backend.engine.Clear sql)
    (ha : ∃ l p, (counter host number).acquire.run w.plant = (.ok l, p)) :
    Settles r x w.backend.engine ((r.run P (counter host number) x).run w.plant).1
      (engineOf host ((r.run P (counter host number) x).run w.plant).2) := by
  obtain ⟨l, p, ha⟩ := ha
  obtain ⟨n, e, hu, hfree, hanswer, hback⟩ := settlement_run hw.lends hsql hp ha
  have hclear' : e.Clear sql := by
    unfold Engine.Clear
    rw [hu.injected]
    exact hclear
  rw [hanswer]
  exact (settles_of_run (hu.available.trans havailable) hclear' hp hfree).between hu hback

theorem Orderly.spares (hw : Orderly exact w) (hd : P.dialect ≠ .postgres) :
    Spares w.backend.engine (engineOf host ((r.run P (counter host number) x).run w.plant).2) := by
  cases hq : Xa.Xid.quoteMysql x with
  | error f =>
    rw [← quote_eq hd] at hq
    rw [r.run_of_unquoted hq]
    exact fun _ _ hy _ => hy
  | ok q =>
    obtain ⟨sql, hsql, hp⟩ := r.statements_eq hd hq
    rcases ha : (counter host number).acquire.run w.plant with ⟨f | l, p⟩
    · have hunlent := acquire_undisturbed hw.lends
      rw [ha] at hunlent
      rw [r.run_of_unacquired hsql ha]
      exact fun y b hy _ => (hunlent.branches y).trans hy
    · obtain ⟨n, e, hu, hfree, -, hback⟩ := settlement_run hw.lends hsql hp ha
      exact (spares_of_run hp hfree).1.between hu hback

theorem Orderly.recovers (hw : Orderly exact w) (hd : P.dialect ≠ .postgres) :
    Recovers w P r x where
  settles hx hlen := by
    obtain ⟨q, hq⟩ := Engine.quoteMysql_of_length hx hlen
    obtain ⟨sql, hsql, hp⟩ := r.statements_eq hd hq
    exact ⟨sql, hsql, hw.settles hsql hp⟩
  spares := hw.spares hd
  rejects f hf := by
    refine ⟨?_, fun g s => r.run_of_unquoted hf⟩
    cases f <;> rfl

/-- **Recovery touches prepared branches only.**  However long a workshop has run, a settlement by
xid succeeds just if the branch is prepared, and changes no other. -/
theorem recovers_run (version name : Bytes) (capacity : Nat) (timeout : Int64) {ops : List Op}
    (hp : ∀ op ∈ ops, op.IsPassive) {P : Participant} (hd : P.dialect ≠ .postgres)
    (r : Settlement) (x : Bytes) :
    Recovers ((new version name capacity timeout).run ops) P r x :=
  (orderly_run (orderly_new version name capacity timeout) hp False.elim).recovers hd

/-- Two branches that a coordinator left behind, a session under way, and one that is dropped, whose
connection the pool closes. -/
def leftovers : List Op :=
  [.injectPrepared (ascii "tx-1"), .start ⟨ascii "p", .mysql⟩ 0 (ascii "a"),
    .start ⟨ascii "p", .mysql⟩ 1 (ascii "b"), .drop ⟨ascii "p", .mysql⟩ 1,
    .injectPrepared (ascii "tx-2")]

/-- The workshop with the leftovers. -/
def littered : Workshop := (new (ascii "8.0") (ascii "orders") 2 50).run leftovers

theorem recovers_littered :
    let after (r : Settlement) (x : Bytes) :=
      (r.run ⟨ascii "p", .mysql⟩ (counter host number) x).run littered.plant
    (after .commit (ascii "tx-1")).1 = .ok () ∧
      (engineOf host (after .commit (ascii "tx-1")).2).committed = 1 ∧
      (engineOf host (after .commit (ascii "tx-1")).2).branches.get? (ascii "tx-2") =
        some .detached ∧
      (after .rollback (ascii "a")).1 ≠ .ok () ∧
      (engineOf host (after .rollback (ascii "a")).2).branches.get? (ascii "a") =
        some ⟨.active, 1⟩ := by
  have hp : ∀ op ∈ leftovers, op.IsPassive := by simp [leftovers, Op.IsPassive]
  have hrecovers := recovers_run (ascii "8.0") (ascii "orders") 2 50 hp
    (P := ⟨ascii "p", .mysql⟩) (by decide)
  obtain ⟨_, -, hsettles⟩ := (hrecovers .commit (ascii "tx-1")).settles (by decide) (by decide)
  have hcommit := hsettles rfl (fun f hf => by cases hf) ⟨_, _, rfl⟩
  have hok := hcommit.returns_iff.mpr ⟨.detached, rfl, rfl⟩
  obtain ⟨hbranches, hcommitted⟩ := hcommit.settled hok
  obtain ⟨_, -, hsettles⟩ := (hrecovers .rollback (ascii "a")).settles (by decide) (by decide)
  have hrollback := hsettles rfl (fun f hf => by cases hf) ⟨_, _, rfl⟩
  refine ⟨hok, hcommitted, hbranches _, ?_, ?_⟩
  · intro hanswer
    obtain ⟨b, hb, hstage⟩ := hrollback.returns_iff.mp hanswer
    cases hb
    cases hstage
  · exact (hrecovers .rollback (ascii "a")).spares _ _ rfl (by decide)

end Workshop
end Coordinator.Plant

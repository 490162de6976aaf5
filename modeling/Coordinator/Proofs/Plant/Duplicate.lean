import Coordinator.Proofs.Plant.Exchange
import Coordinator.Proofs.Plant.Hygiene

/-! # Starts of a registered xid

A registry turns down the start of an xid that it has a session for.  It finds out late: the
participant has started a branch by then, which must go again, and its rollback may fail too, or be
refused by the dialect.

All of this happens on one connection, lent for the purpose.  Whatever it does with the new branch
is gone as soon as that connection closes (`Around`): a start, the end of the work and a rollback
change the branches of no other connection and no prepared branch (`Moves.get?_disconnect`).  And in
the end the connection is back or closed, so that it has no branch (`Aside.rests`).  So **a start of
a registered xid leaves no trace** (`traceless_run`): it fails, and the registries, the engine's
branches and the number of connections out of the pool are what they were. -/
namespace Coordinator.Plant

open Engine (Branch Branches ConnectionId Statement Verb)

variable {h : HostId} {k j : Nat} {exact : Prop} {R : Table RegistryRef (Registry Line)}
  {loans : List Loan} {p : Plant} {n : ConnectionId} {t : Branches} {Q Q' : Branches → Prop}
  {sql x : Bytes} {d : Xa.Dialect} {P : Participant} {s : Session Line} {reg : Registry Line}

/-! ## One connection at work -/

/-- The branch of `x` is not prepared, if the dialect names it to the engine at all. -/
def Unprepared (d : Xa.Dialect) (x : Bytes) (t : Branches) : Prop :=
  d ≠ .postgres → ∀ b, t.get? x = some b → b.stage ≠ .prepared

/-- A statement on connection `n` that succeeds turns branches with `Q` into branches with `Q'`, and
leaves those alone that stay when the connection closes. -/
def StaysWithin (n : ConnectionId) (sql : Bytes) (Q Q' : Branches → Prop) : Prop :=
  ∀ e rows e', (Engine.run n sql).run e = (.ok rows, e') → Q e.branches →
    Q' e'.branches ∧ ∀ y, (e'.branches.disconnect n).get? y = (e.branches.disconnect n).get? y

namespace StaysWithin

theorem of_passive (hs : Statement.IsPassive sql) : StaysWithin n sql Q Q := by
  intro e rows e' hr hq
  obtain ⟨-, ⟨verb, x, hp, -⟩ | ⟨-, hb⟩⟩ := Engine.branches_of_run_ok hr
  · exact absurd hp (hs verb x)
  · rw [hb]
    exact ⟨hq, fun _ => rfl⟩

theorem of_parse {verb : Verb} (hp : Statement.parse sql = .ok (.branch verb x))
    (hv : verb = .start ∨ verb = .finish ∨ verb = .rollback)
    (hQ : verb = .rollback → ∀ t, Q t → ∀ b, t.get? x = some b → b.stage ≠ .prepared) :
    StaysWithin n sql Q (Unprepared d x) := by
  intro e rows e' hr hq
  obtain ⟨-, ⟨verb', x', hp', hm⟩ | ⟨hnone, -⟩⟩ := Engine.branches_of_run_ok hr
  · rw [hp] at hp'
    cases hp'
    have hprepare : verb ≠ .prepare := by
      rintro rfl
      simp at hv
    refine ⟨fun _ => hm.stage_ne hprepare, hm.get?_disconnect hprepare fun b hb => ?_⟩
    generalize e'.branches = branches at hm
    rcases hv with rfl | rfl | rfl
    · cases hm with
      | start hfree hnew => rw [hnew] at hb; cases hb
    · cases hm with
      | finish hx => rw [hx] at hb; cases hb; exact nofun
    · exact hQ rfl _ hq b hb
  · exact absurd hp (hnone verb x)

theorem start (hsql : d.start x = .ok sql) :
    StaysWithin n sql (fun _ => True) (Unprepared d x) := by
  by_cases hd : d = .postgres
  · subst hd
    intro e rows e' hr hq
    obtain ⟨-, hsame⟩ :=
      of_passive (Engine.isPlain_start hsql).isPassive (Q := fun _ => True) _ _ _ hr hq
    exact ⟨fun hd => absurd rfl hd, hsame⟩
  · rw [Engine.start_eq hd] at hsql
    obtain ⟨q, hq, rfl⟩ := ok_of_map hsql
    exact .of_parse (Engine.parse_start hq) (.inl rfl) nofun

/-- The statements that roll a branch under way back. -/
theorem rollback {sqls : List Bytes} (hsqls : d.rollback x .started = .ok sqls) :
    ∀ sql ∈ sqls, StaysWithin n sql (Unprepared d x) (Unprepared d x) := by
  by_cases hd : d = .postgres
  · subst hd
    obtain ⟨sql, rfl, hplain⟩ := Engine.isPlain_rollback hsqls
    exact List.forall_mem_singleton.mpr (.of_passive hplain.isPassive)
  · rw [Engine.rollback_eq hd] at hsqls
    obtain ⟨q, hq, rfl⟩ := ok_of_map hsqls
    rw [if_pos rfl]
    refine List.forall_mem_cons.mpr ⟨?_, List.forall_mem_singleton.mpr ?_⟩
    · exact .of_parse (Engine.parse_finish hq) (.inr (.inl rfl)) nofun
    · exact .of_parse (Engine.parse_rollback hq) (.inr (.inr rfl)) fun _ t ht => ht hd

end StaysWithin

/-- But for what goes away with connection `n`, the branches of the engine are `t`; and `Q` holds of
them. -/
def Around (h : HostId) (k : Nat) (R : Table RegistryRef (Registry Line)) (t : Branches)
    (n : ConnectionId) (Q : Branches → Prop) (p : Plant) : Prop :=
  ∃ host pool, Holds h k R host pool p ∧ Q host.engine.branches ∧
    ∀ y, (host.engine.branches.disconnect n).get? y = t.get? y

namespace Around

theorem log (hp : Around h k R t n Q p) (r : Journal.Record) :
    Around h k R t n Q ((counter h k).log r p) := by
  obtain ⟨host, pool, hh, hq, hb⟩ := hp
  exact ⟨host, pool, hh.log r, hq, hb⟩

theorem poison (hp : Around h k R t n Q p) :
    Around h k R t n Q ((counter h k).poison (lineTo h k n) p) := by
  obtain ⟨host, pool, hh, hq, hb⟩ := hp
  exact ⟨host.poison n, pool, hh.poison n, hq, hb⟩

/-- The connection goes back, or is closed. -/
theorem release (hp : Around h k R t n Q p) :
    Around h k R t n (fun _ => True) ((counter h k).release (lineTo h k n) p) := by
  obtain ⟨host, pool, hh, -, hb⟩ := hp
  have hback := hh.release n
  split at hback
  · exact ⟨host, _, hback, trivial, hb⟩
  · refine ⟨host.close n, _, hback, trivial, fun y => ?_⟩
    exact (Branches.get?_disconnect_disconnect _ n y).trans (hb y)

theorem drop (hp : Around h k R t n Q p) (hs : s.connection = some (lineTo h k n)) :
    Around h k R t n (fun _ => True) (s.drop (counter h k).toKeeper p) := by
  rw [Session.drop, hs]
  exact (hp.poison.log _).release

/-- A statement that stays within its connection; one that fails does nothing. -/
theorem send_meets {operation : Bytes} (hs : StaysWithin n sql Q Q') :
    (P.send (counter h k) (lineTo h k n) operation x sql).Meets (Around h k R t n Q)
      (fun _ => Around h k R t n Q') fun _ => Around h k R t n Q := by
  have hexecute : ((counter h k).execute (lineTo h k n) sql).Meets (Around h k R t n Q)
      (fun _ => Around h k R t n Q') fun _ => Around h k R t n Q := by
    rintro p ⟨host, pool, hh, hq, hb⟩
    obtain ⟨p', hrun, hh'⟩ := (execute_mirrors n sql).run hh
    rw [hrun]
    rcases hr : (Host.deliver n sql).run host with ⟨f | u, host'⟩
    · rw [hr] at hh'
      have hsame := Host.branches_of_deliver_error hr
      exact ⟨host', pool, hh', hsame ▸ hq, fun y => by rw [hsame, hb]⟩
    · rw [hr] at hh'
      have hn : host.isBroken n = false := Bool.eq_false_iff.mpr fun hn => by
        rw [Host.deliver_run_of_broken hn] at hr
        cases hr
      rw [Host.deliver_run hn] at hr
      rcases he : (Engine.run n sql).run host.engine with ⟨f | rows, e⟩
      · rw [he] at hr
        cases hr
      · rw [he] at hr
        cases hr
        obtain ⟨hq', hsame⟩ := hs _ _ _ he hq
        exact ⟨_, pool, hh', hq', fun y => (hsame y).trans (hb y)⟩
  exact hexecute.onFailure fun _ _ hp => hp.log _

/-- The rollback of a new branch, however it ends. -/
theorem rollback_meets : (P.rollback (counter h k) ⟨x, some (lineTo h k n), .started⟩).Meets
    (Around h k R t n (Unprepared P.dialect x)) (fun _ => Around h k R t n fun _ => True)
    fun _ => Around h k R t n fun _ => True := by
  have hbody : (do
      let l ← .ofExcept (P.expectRollback ⟨x, some (lineTo h k n), .started⟩)
      let sqls ← Participant.statement (P.dialect.rollback x .started)
      .forEach (P.send (counter h k) l (ascii "rollback") x) sqls
      .update fun p => (counter h k).log
        (P.rolledBackRecord ⟨x, some (lineTo h k n), .started⟩)
        ((counter h k).release l p) : Action Plant Unit).Meets
      (Around h k R t n (Unprepared P.dialect x)) (fun _ => Around h k R t n fun _ => True)
      fun _ => Around h k R t n (Unprepared P.dialect x) := by
    refine Action.Meets.ofExcept_bind (fun l hl => ?_) fun _ _ _ hp => hp
    obtain rfl := Option.some.inj (Participant.expectRollback_eq_ok hl).1
    refine Action.Meets.ofExcept_bind (fun sqls hsqls => ?_) fun _ _ _ hp => hp
    refine Action.Meets.bind (.forEach fun sql hsql => ?_) fun _ => .update fun _ hp =>
      hp.release.log _
    exact send_meets (StaysWithin.rollback (statement_ok hsqls) sql hsql)
  exact hbody.onFailure fun _ _ hp => hp.drop rfl

/-- The branch of a new session is started, or nothing is. -/
theorem opening_meets (hsql : P.dialect.start x = .ok sql) :
    (do
      (P.send (counter h k) (lineTo h k n) (ascii "begin") x sql).onFailure
        fun _ p => (counter h k).release (lineTo h k n) ((counter h k).poison (lineTo h k n) p)
      .update ((counter h k).log (P.doneRecord .debug "XA branch started" x))
      return ⟨x, some (lineTo h k n), .started⟩ : Action Plant (Session Line)).Meets
    (Around h k R t n fun _ => True)
    (fun s p => s = ⟨x, some (lineTo h k n), .started⟩ ∧
      Around h k R t n (Unprepared P.dialect x) p)
    fun _ => Around h k R t n fun _ => True := by
  refine Action.Meets.bind (Action.Meets.onFailure (send_meets (StaysWithin.start hsql))
    fun _ _ hp => hp.poison.release) fun _ => ?_
  exact Action.Meets.bind (.update fun _ hp => hp.log _) fun _ => .pure fun _ hp => ⟨rfl, hp⟩

end Around

/-! ## What is left -/

/-- The loans are as said, and the branches of the engine are `t`. -/
abbrev Rests (h : HostId) (k : Nat) (exact : Prop) (R : Table RegistryRef (Registry Line))
    (t : Branches) : List Loan → Plant → Prop :=
  LendsIf h k exact R fun host => ∀ y, host.engine.branches.get? y = t.get? y

/-- All that may have happened to the branches is gone with a connection that is not on loan. -/
def Aside (h : HostId) (k : Nat) (R : Table RegistryRef (Registry Line)) (t : Branches)
    (loans : List Loan) (p : Plant) : Prop :=
  ∃ n, Around h k R t n (fun _ => True) p ∧ ∀ loan ∈ loans, loan.number ≠ n

theorem Rests.aside (hp : Rests h k exact R t loans p) : Aside h k R t loans p := by
  obtain ⟨host, pool, hh, hc, hb⟩ := hp
  -- A connection that does not exist yet is on loan to nobody.
  have hn : ∀ loan ∈ loans, loan.number ≠ host.engine.nextConnection := fun loan hl =>
    Nat.ne_of_lt (hc.known _ (Custody.mem_numbers_lent hl)).1
  refine ⟨_, ⟨host, pool, hh, trivial, fun y => ?_⟩, hn⟩
  rw [Branches.get?_disconnect_of_free (hc.free_of_unlent hn), hb]

/-- A connection that is not on loan has nothing that could go away with it. -/
theorem Aside.rests (hp : Aside h k R t loans p) (hlends : Lends h k exact R loans p) :
    Rests h k exact R t loans p := by
  obtain ⟨n, ⟨host, pool, hh, -, hb⟩, hn⟩ := hp
  obtain ⟨host', pool', hh', hc, -⟩ := hlends
  obtain rfl : host = host' := hh.get_host.symm.trans hh'.get_host
  refine ⟨host, pool', hh', hc, fun y => ?_⟩
  rw [← hb, Branches.get?_disconnect_of_free (hc.free_of_unlent hn)]

/-- A session that was just started, on a connection lent for it. -/
def Opens (h : HostId) (k : Nat) (exact : Prop) (R : Table RegistryRef (Registry Line))
    (t : Branches) (loans : List Loan) (P : Participant) (x : Bytes) (s : Session Line)
    (p : Plant) : Prop :=
  Keeps h k exact R P.dialect loans s p ∧ ∃ n, s = ⟨x, some (lineTo h k n), .started⟩ ∧
    Around h k R t n (Unprepared P.dialect x) p ∧ ∀ loan ∈ loans, loan.number ≠ n

theorem Opens.log (hp : Opens h k exact R t loans P x s p) (r : Journal.Record) :
    Opens h k exact R t loans P x s ((counter h k).log r p) := by
  obtain ⟨⟨hs, hlends⟩, n, rfl, haround, hn⟩ := hp
  exact ⟨⟨hs, hlends.log r⟩, n, rfl, haround.log r, hn⟩

/-- A start that fails leaves the branches as they were. -/
theorem start_rests : (P.start (counter h k) x).Meets (Rests h k exact R t loans)
    (Opens h k exact R t loans P x) fun _ => Rests h k exact R t loans := by
  have hacquire : (counter h k).acquire.Meets (Rests h k exact R t loans)
      (fun l p => ∃ n, l = lineTo h k n ∧ Around h k R t n (fun _ => True) p ∧
        ∀ loan ∈ loans, loan.number ≠ n)
      fun _ => Aside h k R t loans := by
    refine (acquire_meets (fun host n hfree hq y => ?_) fun _ hq => hq).mono (fun _ hp => hp) ?_
      fun _ _ hp => Rests.aside hp
    · exact (Branches.get?_disconnect_of_free hfree y).trans (hq y)
    · rintro l p ⟨n, rfl, host, pool, hh, hc, hq, -⟩
      refine ⟨n, rfl, ⟨host, pool, hh, trivial, fun y => ?_⟩, fun _ => hc.number_ne_of_lent⟩
      rw [Branches.get?_disconnect_of_free hc.free_of_clean, hq]
  have hopening : (P.start (counter h k) x).Meets (Rests h k exact R t loans)
      (fun s p => ∃ n, s = ⟨x, some (lineTo h k n), .started⟩ ∧
        Around h k R t n (Unprepared P.dialect x) p ∧ ∀ loan ∈ loans, loan.number ≠ n)
      fun _ => Aside h k R t loans := by
    refine Action.Meets.ofExcept_bind (fun sql hsql => ?_) fun _ _ _ hp => Rests.aside hp
    refine hacquire.bind fun l => ?_
    rintro p ⟨n, rfl, hp, hn⟩
    exact ((Around.opening_meets (statement_ok hsql)).mono (fun _ hp => hp)
      (fun _ _ ⟨hs, hp⟩ => ⟨n, hs, hp, hn⟩) fun _ _ hp => ⟨n, hp, hn⟩) p hp
  refine (start_meets.and hopening).mono (fun p hp => ⟨?_, hp⟩)
    (fun _ _ ⟨⟨hkeeps, _⟩, hp⟩ => ⟨hkeeps, hp⟩) fun _ _ ⟨hlends, hp⟩ => hp.rests hlends
  obtain ⟨host, pool, hh, hc, -⟩ := hp
  exact Lends.intro hh hc

/-- The rollback of a session that was just started leaves the branches as they were before the
start, even if it fails. -/
theorem rollback_rests : (P.rollback (counter h k) s).Meets (Opens h k exact R t loans P x s)
    (fun _ => Rests h k exact R t loans) fun _ => Rests h k exact R t loans := by
  rintro p ⟨hkeeps, n, rfl, hp, hn⟩
  exact ((rollback_meets.and Around.rollback_meets).mono (fun _ hp => hp)
    (fun _ _ ⟨hlends, hp⟩ => Aside.rests ⟨n, hp, hn⟩ hlends)
    fun _ _ ⟨hlends, hp⟩ => Aside.rests ⟨n, hp, hn⟩ hlends) p ⟨hkeeps, hp⟩

/-! ## The registry -/

/-- A registry has no room for a second session of an xid. -/
theorem insert_taken {Φ : Plant → Prop} {bad : Fault → Plant → Prop}
    (hΦ : ∀ p, Φ p → (alone.registry (refOf h k j P)).registry.get p = reg)
    (hs : reg.contains s.xid = true) : ((alone.registry (refOf h k j P)).insert s).Meets Φ
      (fun found p => found = false ∧ Φ p) bad := by
  intro p hp
  rw [Registry.insert_run, hΦ p hp, Registry.insert?, if_pos hs]
  exact ⟨rfl, hp⟩

/-- The start of a registered xid fails, and leaves the branches and the loans as they were. -/
theorem duplicate_rests (hreg : R.get? (refOf h k j P) = some reg)
    (hx : reg.contains x = true) : ((alone.registry (refOf h k j P)).start x).Meets
      (Rests h k exact R t loans) (fun _ _ => False) fun _ => Rests h k exact R t loans := by
  refine start_rests.bind fun s => ?_
  have hinsert : ((alone.registry (refOf h k j P)).insert s).Meets
      (Opens h k exact R t loans P x s)
      (fun found p => found = false ∧ Opens h k exact R t loans P x s p)
      fun _ => Rests h k exact R t loans := by
    intro p hp
    obtain ⟨⟨-, hlends⟩, n, rfl, -⟩ := id hp
    exact insert_taken (Φ := (Opens h k exact R t loans P x _))
      (fun p hp => hp.1.2.get_registry hreg) hx p hp
  refine hinsert.bind fun found => Action.Meets.assuming ?_
  rintro rfl
  have hlog (r : Journal.Record) : (Action.update ((counter h k).log r)).Meets
      (Opens h k exact R t loans P x s) (fun _ => Opens h k exact R t loans P x s)
      fun _ => Rests h k exact R t loans := .update fun _ hp => hp.log r
  have hundo : (P.rollback (counter h k) s).attempt.Meets (Opens h k exact R t loans P x s)
      (fun _ => Rests h k exact R t loans) fun _ => Rests h k exact R t loans :=
    rollback_rests.attempt (fun _ _ hp => hp) fun _ _ hp => hp
  refine (hlog _).bind fun _ => hundo.bind fun ending => ?_
  cases ending with
  | ok => exact .fail fun _ hp => hp
  | error f =>
    refine Action.Meets.bind (.update fun p hp => ?_) fun _ => .fail fun _ hp => hp
    obtain ⟨host, pool, hh, hc, hb⟩ := hp
    exact ⟨host, pool, hh.log _, hc, hb⟩

namespace Workshop

variable {w : Workshop}

/-- The registry has a session of the xid, in whatever state, and whatever has become of its
branch. -/
def isRegistered (w : Workshop) (P : Participant) (j : Nat) (x : Bytes) : Bool :=
  (w.plant.registries.get? (refOf host number j P)).any (·.contains x)

/-- The number of connections out of the pool. -/
def lent (w : Workshop) : Nat := w.pool.live - w.pool.idle.length

/-- What happened between two states of a workshop has left no trace. -/
structure Traceless (w w' : Workshop) : Prop where
  /-- The registries have the same sessions, in the same states, on the same connections. -/
  registries : w'.plant.registries = w.plant.registries
  held : w'.held = w.held
  branches : ∀ y, w'.backend.engine.branches.get? y = w.backend.engine.branches.get? y
  lent : w'.lent = w.lent

theorem lent_eq (hw : Lends host number exact R loans w.plant) :
    w.lent = loans.length := by
  obtain ⟨host', pool, hh, hc, -⟩ := hw
  rw [lent, show w.pool = pool from hh.get_pool, hc.live, Nat.add_sub_cancel_left]

theorem Orderly.traceless (hw : Orderly exact w) (hx : w.isRegistered P j x = true) :
    (∃ f, ((alone.registry (refOf host number j P)).start x |>.run w.plant).1 = .error f) ∧
      Traceless w (w.step (.registered P j (.start x))) := by
  obtain ⟨reg, hreg, hcontains⟩ := (Option.any_eq_true _ _).mp hx
  have hstart : Rests host number exact w.plant.registries w.backend.engine.branches
      (heldLoans w.held ++ filedLoans w.plant.registries) w.plant := by
    obtain ⟨host', pool, hh, hc, -⟩ := hw.lends
    exact ⟨host', pool, hh, hc, fun y => by rw [show w.backend = host' from hh.get_host]⟩
  obtain ⟨f, p, hrun, host', pool, hh, hc, hb⟩ :=
    (duplicate_rests hreg hcontains).fails hstart
  have hstep : w.step (.registered P j (.start x)) = { w with plant := p } := by
    show w.registered (refOf host number j P) (fun r => r.start x) = _
    rw [Workshop.registered, if_pos ((Table.contains_iff _ _).mpr ⟨reg, hreg⟩), Workshop.perform, hrun]
  refine ⟨⟨f, by rw [hrun]⟩, ?_⟩
  rw [hstep]
  refine ⟨hh.registries, rfl, fun y => ?_, ?_⟩
  · rw [← hb, show Workshop.backend { w with plant := p } = host' from hh.get_host]
  · rw [lent_eq hw.lends, lent_eq (w := { w with plant := p }) (Lends.intro hh hc)]

/-- **A start of a registered xid leaves no trace.** -/
theorem traceless_run (version name : Bytes) (capacity : Nat) (timeout : Int64) {ops : List Op}
    (hp : ∀ op ∈ ops, op.IsPassive)
    (hx : ((new version name capacity timeout).run ops).isRegistered P j x = true) :
    (∃ f, ((alone.registry (refOf host number j P)).start x |>.run
      ((new version name capacity timeout).run ops).plant).1 = .error f) ∧
      Traceless ((new version name capacity timeout).run ops)
        (((new version name capacity timeout).run ops).step (.registered P j (.start x))) :=
  (orderly_run (orderly_new version name capacity timeout) hp False.elim).traceless hx

/-- A registered session is prepared, and its branch is committed from outside; and a failure is in
store for the rollback of another branch of its xid. -/
def overlooked : List Op :=
  [.addRegistry ⟨ascii "q", .mysql⟩,
    .registered ⟨ascii "q", .mysql⟩ 2 (.start (ascii "a")),
    .registered ⟨ascii "q", .mysql⟩ 2 (.finish (ascii "a")),
    .registered ⟨ascii "q", .mysql⟩ 2 (.prepare (ascii "a")),
    .commitByXid ⟨ascii "p", .mysql⟩ (ascii "a"),
    .inject ⟨ascii "XA ROLLBACK", .busy, ascii "locked", true⟩]

/-- The engine would start a branch of the xid again, and does. -/
theorem traceless_overlooked :
    let w := (new (ascii "8.0") (ascii "orders") 2 50).run overlooked
    let w' := w.step (.registered ⟨ascii "q", .mysql⟩ 2 (.start (ascii "a")))
    w.isRegistered ⟨ascii "q", .mysql⟩ 2 (ascii "a") = true ∧
      ascii "XA START 'a'" ∈ w'.backend.engine.statements.drop w.backend.engine.statements.length ∧
      Traceless w w' := by
  have hp : ∀ op ∈ overlooked, op.IsPassive := by simp [overlooked, Op.IsPassive]
  have hx : ((new (ascii "8.0") (ascii "orders") 2 50).run overlooked).isRegistered
      ⟨ascii "q", .mysql⟩ 2 (ascii "a") = true := by decide +kernel
  exact ⟨hx, by decide +kernel,
    (traceless_run (ascii "8.0") (ascii "orders") 2 50 hp hx).2⟩

end Workshop
end Coordinator.Plant

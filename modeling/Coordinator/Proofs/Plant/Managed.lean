import Coordinator.Proofs.Plant.Calls
import Coordinator.Proofs.Plant.Recovery

/-! # Managed sessions

In a workshop that one registry has to itself, a call on a registered session needs nothing of the
caller.  The sessions of the registry are open and filed under their xids, and no connection is
poisoned between operations (`Attended`), which every call and every failure of the engine keeps so
(`Attended.step`).

So **each call on a registered session comes to one of three ends** (`manages_run`): there is no
session that it could start from, and it does nothing; every statement succeeds, and the session
moves on or gives its connection back; or the first fault is the answer, and the session is gone
with its connection and its unprepared branch.  In none of them does it touch another session or the
branch of another xid. -/
namespace Coordinator.Plant

open Engine (ConnectionId)

/-! ## A workshop that one registry has to itself -/

/-- The number of the first registry of a workshop. -/
abbrev Workshop.desk : Nat := 2

/-- The operation is a call of the one registry of a participant, or changes how the engine
fails. -/
def Op.IsManaged (P : Participant) : Op → Prop
  | .registered Q j _ => Q = P ∧ j = Workshop.desk
  | .inject _ | .clearInjected | .setAvailable _ => True
  | _ => False

namespace Workshop

variable {w : Workshop} {P : Participant} {s : Session Line} {x : Bytes} {m : Registry.Task}
  {call : Registry.Call}

/-- The sessions of the one registry. -/
def filed (w : Workshop) (P : Participant) : Registry Line :=
  (registryCell (refOf host number desk P)).get w.plant

/-- What a call of the one registry answers. -/
def answer (w : Workshop) (P : Participant) (call : Registry.Call) : Except Fault Unit :=
  ((call.run (alone.registry (refOf host number desk P))).run w.plant).1

/-- The workshop after a call of the one registry. -/
abbrev called (w : Workshop) (P : Participant) (call : Registry.Call) : Workshop :=
  w.step (.registered P desk call)

/-- Callers hold no sessions, there is one registry, its sessions are open and filed under their
xids, and no connection is poisoned. -/
structure Attended (P : Participant) (w : Workshop) : Prop where
  orderly : Orderly True w
  held : w.held = ∅
  stores : Stores host number desk P ∅ (w.filed P) w.backend w.pool w.plant
  inOrder : (w.filed P).InOrder
  clean : w.backend.Clean

theorem Attended.of_stores {reg : Registry Line} {host' : Host} {pool : Pool Line}
    (hw : Orderly True w) (hheld : w.held = ∅)
    (hs : Stores host number desk P ∅ reg host' pool w.plant) (hin : reg.InOrder)
    (hclean : host'.Clean) : Attended P w := by
  have hreg : w.filed P = reg := hs.get_registry
  obtain ⟨R, hget, hothers, hh⟩ := hs
  obtain rfl : w.backend = host' := hh.get_host
  obtain rfl : w.pool = pool := hh.get_pool
  subst hreg
  exact ⟨hw, hheld, ⟨R, hget, hothers, hh⟩, hin, hclean⟩

namespace Attended

theorem get?_registries (hw : Attended P w) :
    w.plant.registries.get? (refOf host number desk P) = some (w.filed P) := by
  obtain ⟨R, hget, -, hh⟩ := hw.stores
  rw [hh.registries]
  exact hget

theorem dialect (hw : Attended P w) : P.dialect ≠ .postgres :=
  (hw.orderly.filed _ _ hw.get?_registries).2.2 trivial

theorem sound (hw : Attended P w) (hs : (w.filed P).get? x = some s) :
    Sound host number P.dialect s :=
  (hw.orderly.filed _ _ hw.get?_registries).2.1 s ((Table.mem_values_iff _ _).mpr ⟨x, hs⟩)

theorem called_eq (hw : Attended P w) (call : Registry.Call) : w.called P call =
    { w with plant := ((call.run (alone.registry (refOf host number desk P))).run w.plant).2 } :=
  if_pos ((Table.contains_iff _ _).mpr ⟨_, hw.get?_registries⟩)

theorem orderly_called (hw : Attended P w) (call : Registry.Call) :
    Orderly True (w.called P call) := by
  have hstep : Orderly True (w.step (.registered P desk call)) :=
    orderly_step hw.orderly trivial fun _ => trivial
  exact hstep

/-- The sessions of the workshop are those of the registry. -/
theorem mem_sessions_iff (hw : Attended P w) :
    s ∈ w.sessions ↔ ∃ x, (w.filed P).get? x = some s := by
  have hvalues := Table.values_perm_of_get? hw.get?_registries
  obtain ⟨R, -, hothers, hh⟩ := hw.stores
  rw [show w.plant.registries.erase _ = ∅ from hh.registries ▸ hothers] at hvalues
  have hsessions : w.sessions = w.held.values ++ w.plant.registries.values.flatMap Table.values :=
    rfl
  rw [hsessions, hw.held, List.perm_singleton.mp hvalues, List.flatMap_singleton,
    ← Table.mem_values_iff]
  exact Iff.rfl

/-- A registered session has a connection of the pool, which is open. -/
theorem connected (hw : Attended P w) (hs : (w.filed P).get? x = some s) :
    ∃ n, s.connection = some (lineTo host number n) ∧ w.backend.links.contains n = true := by
  have hmem := hw.mem_sessions_iff.mpr ⟨x, hs⟩
  obtain ⟨l, hl⟩ := (hw.inOrder x s hs).2.connected
  refine ⟨l.number, hl.trans (congrArg some ((hw.sound hs).line l hl)), ?_⟩
  -- Its connection is among those on loan, and so is one the client knows.
  obtain ⟨host', pool', hh', hc, -⟩ := hw.orderly.lends
  obtain rfl : w.backend = host' := hh'.get_host
  have hnumber : l.number ∈ w.loans.map Loan.number := by
    rw [numbers_loans]
    exact List.mem_map_of_mem (List.mem_filterMap.mpr ⟨s, hmem, hl⟩)
  exact (hc.known l.number (List.mem_append_right _ hnumber)).2

/-- A change of how the engine fails. -/
theorem changeEngine (hw : Attended P w) {f : Engine → Engine}
    (horderly : Orderly True (w.changeEngine f)) : Attended P (w.changeEngine f) := by
  refine .of_stores horderly hw.held
    (hw.stores.lift fun R hh => hh.modify_host fun host' =>
      { host' with engine := f host'.engine }) hw.inOrder hw.clean

/-- A call on a registered session. -/
theorem of_taken (hw : Attended P w) (hcall : call.task? = some (x, m)) :
    Attended P (w.called P call) := by
  have horderly := hw.orderly_called call
  rw [hw.called_eq] at horderly ⊢
  by_cases hs : ∃ s, (w.filed P).get? x = some s ∧ m.Admits s
  · obtain ⟨s, hs, hm⟩ := hs
    obtain ⟨n, hn, hlink⟩ := hw.connected hs
    obtain ⟨rfl, hlive⟩ := hw.inOrder x s hs
    have hrun := call_run hcall hw.dialect hw.stores hs hm rfl hn hlink (hw.clean n)
    have htraded := Drive.exchange_traded (s := s) m.drive hw.dialect w.backend
    rcases he : (m.drive.exchange P s).run w.backend with ⟨f | l, host'⟩
    · rw [he] at hrun htraded
      obtain ⟨p', hrun, hstores⟩ := hrun
      rw [hrun] at horderly ⊢
      exact .of_stores horderly hw.held hstores (hw.inOrder.erase _)
        ((hw.clean.traded htraded).close n)
    · rw [he] at hrun htraded
      obtain ⟨p', hrun, hstores⟩ := hrun
      rw [hrun] at horderly ⊢
      exact .of_stores horderly hw.held hstores ((hw.inOrder.erase _).refile hlive)
        (hw.clean.traded htraded)
  · obtain ⟨f, hrun, -⟩ := call_run_of_not_admits hcall hw.stores fun s hs' hm => hs ⟨s, hs', hm⟩
    rw [hrun]
    exact hw

/-- A call that starts a session. -/
theorem of_start (hw : Attended P w) (x : Bytes) : Attended P (w.called P (.start x)) := by
  have horderly := hw.orderly_called (.start x)
  rw [hw.called_eq] at horderly ⊢
  obtain ⟨R, hget, hothers, hh⟩ := hw.stores
  obtain ⟨host', pool', hh', hc, -⟩ := hw.orderly.lends
  obtain rfl : w.backend = host' := hh'.get_host
  have hready : LendsIf host number True R Host.Clean w.loans w.plant :=
    ⟨_, _, hh'.registries.symm.trans hh.registries ▸ hh', hc, hw.clean⟩
  obtain ⟨reg', hin, host', pool', hstores, hclean⟩ :=
    (registered_start_storesClean (x := x) hw.dialect hget hothers hw.inOrder).state hready
  exact .of_stores horderly hw.held hstores hin hclean

theorem step (hw : Attended P w) {op : Op} (hop : op.IsManaged P) : Attended P (w.step op) := by
  have hnext (op : Op) (hp : op.IsPassive) (hl : op.IsLocal) : Orderly True (w.step op) :=
    orderly_step hw.orderly hp fun _ => hl
  cases op with
  | registered Q number call =>
    obtain ⟨rfl, rfl⟩ := hop
    cases hcall : call.task? with
    | some found => exact hw.of_taken hcall
    | none =>
      cases call with
      | start x => exact hw.of_start x
      | finish | prepare | commit | rollback => cases hcall
  | inject f =>
    exact hw.changeEngine (hnext (.inject f) trivial trivial)
  | clearInjected =>
    exact hw.changeEngine (hnext .clearInjected trivial trivial)
  | setAvailable on =>
    exact hw.changeEngine (hnext (.setAvailable on) trivial trivial)
  | _ => cases hop

theorem run (hw : Attended P w) {ops : List Op} (hops : ∀ op ∈ ops, op.IsManaged P) :
    Attended P (w.run ops) := by
  induction ops generalizing w with
  | nil => exact hw
  | cons op ops ih =>
    exact ih (hw.step (hops op List.mem_cons_self)) fun op hm =>
      hops op (List.mem_cons_of_mem _ hm)

/-- A workshop with a new registry. -/
theorem new (version name : Bytes) (capacity : Nat) (timeout : Int64) (hd : P.dialect ≠ .postgres) :
    Attended P ((Workshop.new version name capacity timeout).step (.addRegistry P)) := by
  have hnew : Orderly True (Workshop.new version name capacity timeout) :=
    orderly_new version name capacity timeout
  have horderly :
      Orderly True ((Workshop.new version name capacity timeout).step (.addRegistry P)) :=
    orderly_step hnew trivial fun _ => hd
  have hstores : Stores host number desk P ∅ ∅ { engine := { version } }
      (.new name capacity timeout)
      ((Workshop.new version name capacity timeout).step (.addRegistry P)).plant := by
    obtain ⟨host', pool', hh, -, -⟩ := horderly.lends
    exact ⟨_, (Table.get?_insert ∅ _ _ _).trans (if_pos rfl), Table.erase_insert ∅ _ _,
      rfl, rfl, rfl, hh.numbered⟩
  exact .of_stores horderly rfl hstores (fun _ _ hs => by cases hs) fun _ => rfl

end Attended

/-! ## The three ends of a call -/

/-- Every statement succeeded: the session moved on, or it is gone and its connection waits in the
pool again; the engine is as the statements left it. -/
structure Advances (P : Participant) (m : Registry.Task) (x : Bytes) (s : Session Line) (l : Line)
    (host' : Host) (w w' : Workshop) : Prop where
  entries : ∀ y, (w'.filed P).get? y =
    if y = x then m.after.map ({ s with state := · }) else (w.filed P).get? y
  pool : w'.pool = if m.after = none then { w.pool with idle := l :: w.pool.idle } else w.pool
  backend : w'.backend = host'
  branches : ∀ y, y ≠ x →
    w'.backend.engine.branches.get? y = w.backend.engine.branches.get? y

/-- The dialect refused, or a statement failed: the session is gone, its connection is closed, and
of its branch nothing is left unless it was prepared. -/
structure GivesUp (P : Participant) (x : Bytes) (l : Line) (w w' : Workshop) : Prop where
  entries : ∀ y, (w'.filed P).get? y = if y = x then none else (w.filed P).get? y
  pool : w'.pool = { w.pool with live := w.pool.live - 1 }
  closed : w'.backend.links.contains l.number = false
  branch : ∀ b, w'.backend.engine.branches.get? x = some b → b.stage = .prepared
  prepared : IsPrepared w.backend.engine x → IsPrepared w'.backend.engine x
  branches : ∀ y, y ≠ x →
    w'.backend.engine.branches.get? y = w.backend.engine.branches.get? y

/-- What a call on the session of an xid comes to. -/
structure Manages (P : Participant) (call : Registry.Call) (x : Bytes) (m : Registry.Task)
    (w : Workshop) : Prop where
  /-- Without a session in the state it starts from, the call does nothing. -/
  rejects : (∀ s, (w.filed P).get? x = some s → ¬ m.Admits s) →
    (∃ f, w.answer P call = .error f ∧ f.kind = .notFound) ∧ w.called P call = w
  /-- With one, the end is up to the exchange with the engine, which the dialect refuses just for a
  rollback before the prepare. -/
  proceeds : ∀ s, (w.filed P).get? x = some s → m.Admits s → ∃ l, s.connection = some l ∧
    ((∃ f, m.drive.plan P s = .error f) ↔
      m = .rollback ∧ P.dialect = .strict ∧ s.state ≠ .prepared) ∧
    match (m.drive.exchange P s).run w.backend with
    | (.ok _, host') => w.answer P call = .ok () ∧ Advances P m x s l host' w (w.called P call)
    | (.error f, _) => w.answer P call = .error f ∧ GivesUp P x l w (w.called P call)

/-- A task refuses no session that it can start from, but for the rollback of the strict dialect. -/
theorem plan_refused_iff (hd : P.dialect ≠ .postgres) (hundo : m ≠ .undo) (hs : s.Live)
    (hm : m.Admits s) (hq : ∃ q, P.dialect.quote s.xid = .ok q) :
    (∃ f, m.drive.plan P s = .error f) ↔
      m = .rollback ∧ P.dialect = .strict ∧ s.state ≠ .prepared := by
  obtain ⟨q, hq⟩ := hq
  rw [quote_eq hd] at hq
  obtain ⟨l, hl⟩ := hs.connected
  have hplan : (∃ f, m.drive.plan P s = .error f) ↔ ∃ f, m.drive.check P s = .error f := by
    rw [Drive.plan, Drive.statements_eq m.drive hd, hq]
    cases m.drive.check P s with
    | error f => exact iff_of_true ⟨f, rfl⟩ ⟨f, rfl⟩
    | ok l =>
      constructor
      · rintro ⟨f, hf⟩
        cases hf
      · rintro ⟨f, hf⟩
        cases hf
  have hexpect {state : Xa.State} {operation : Bytes} (hstate : s.state = state) :
      ¬ ∃ f, s.expect state operation = .error f := by
    rintro ⟨f, hf⟩
    rw [Session.expect, hl] at hf
    simp [hstate] at hf
  rw [hplan]
  cases m with
  | undo => exact absurd rfl hundo
  | finish | prepare | commit =>
    exact iff_of_false (hexpect (hm _ rfl)) fun h => by cases h.1
  | rollback =>
    show (∃ f, P.expectRollback s = .error f) ↔ _
    rw [Participant.expectRollback, hl]
    dsimp only
    split
    · next hpass =>
      constructor
      · rintro ⟨f, hf⟩
        cases hf
      · rintro ⟨-, hstrict, hne⟩
        rw [hstrict] at hpass
        exact absurd hpass (not_or.mpr ⟨hne, fun h => Bool.false_ne_true h.2⟩)
    · next hfail =>
      refine iff_of_true ⟨_, rfl⟩ ⟨rfl, ?_, fun hp => hfail (.inl hp)⟩
      cases hdialect : P.dialect with
      | strict => rfl
      | postgres => exact absurd hdialect hd
      | mysql =>
        rw [hdialect] at hfail
        rcases hs.2 with h | h | h
        · exact absurd (.inr ⟨.inl h, rfl⟩) hfail
        · exact absurd (.inr ⟨.inr h, rfl⟩) hfail
        · exact absurd (.inl h) hfail

namespace Attended

/-- The branch of a registered session is as its state says. -/
theorem matches_filed (hw : Attended P w) (hs : (w.filed P).get? x = some s) {l : Line}
    (hl : s.connection = some l) : w.backend.engine.Matches x s.state l.number := by
  have hmatch := hw.orderly.agrees.branch s (hw.mem_sessions_iff.mpr ⟨x, hs⟩) l hl
  rwa [(hw.inOrder x s hs).1] at hmatch

/-- A branch that is not prepared is one of a registered session. -/
theorem prepared_of_unfiled (hw : Attended P w) (hx : (w.filed P).get? x = none)
    {b : Engine.Branch} (hb : w.backend.engine.branches.get? x = some b) : b.stage = .prepared := by
  by_contra hne
  obtain ⟨s, hs, hxid, -⟩ := hw.orderly.hygienic.owned x b hb hne
  obtain ⟨y, hy⟩ := hw.mem_sessions_iff.mp hs
  rw [(hw.inOrder y s hy).1] at hxid
  rw [hxid, hx] at hy
  cases hy

/-- What is given up is the branch of one session: a branch of another one is as its state says
before and after, and one of none is prepared. -/
theorem givesUp {n : ConnectionId} {host' : Host} {w' : Workshop} (hw : Attended P w)
    (hw' : Attended P w') (hs : (w.filed P).get? x = some s) (hd : Drive) {f : Fault}
    (hn : s.connection = some (lineTo host number n))
    (he : (hd.exchange P s).run w.backend = (.error f, host'))
    (hstores : Stores host number desk P ∅ ((w.filed P).erase x) (host'.close n)
      { w.pool with live := w.pool.live - 1 } w'.plant) :
    GivesUp P x (lineTo host number n) w w' := by
  have htraded := Drive.exchange_traded (s := s) hd hw.dialect w.backend
  rw [he, (hw.inOrder x s hs).1] at htraded
  have hfiled : w'.filed P = (w.filed P).erase x := hstores.get_registry
  obtain ⟨R, -, -, hh⟩ := hstores
  have hbackend : w'.backend = host'.close n := hh.get_host
  have hentries (y : Bytes) : (w'.filed P).get? y = if y = x then none else (w.filed P).get? y := by
    rw [hfiled, Table.get?_erase]
  have hkept {y : Bytes} {b : Engine.Branch} (hb : host'.engine.branches.get? y = some b)
      (hstage : b.stage = .prepared) : w'.backend.engine.branches.get? y = some b := by
    rw [hbackend]
    refine Engine.Branches.get?_disconnect_of_kept hb (Bool.eq_false_iff.mpr fun hopen => ?_)
    exact (Engine.Branches.isOpenOn_iff.mp hopen).2 hstage
  refine ⟨hentries, hh.get_pool, ?_, fun b hb => ?_, fun ⟨b, hb, hstage⟩ => ?_, fun y hy => ?_⟩
  · rw [hbackend]
    refine (Table.contains_eq_false_iff _ _).mpr ?_
    show (host'.links.erase n).get? n = none
    rw [Table.get?_erase, if_pos rfl]
  · exact hw'.prepared_of_unfiled (by rw [hentries, if_pos rfl]) hb
  · rcases hw.matches_filed hs hn with ⟨-, hb'⟩ | ⟨-, hb'⟩ | ⟨hstate, -⟩
    · rw [hb] at hb'; cases hb'; cases hstage
    · rw [hb] at hb'; cases hb'; cases hstage
    · rw [← Drive.branches_of_failed_exchange hw.dialect hstate he] at hb
      exact ⟨b, hkept hb hstage, hstage⟩
  · cases hother : (w.filed P).get? y with
    | some s' =>
      obtain ⟨l, hl⟩ := (hw.inOrder y s' hother).2.connected
      have hother' : (w'.filed P).get? y = some s' := by rw [hentries, if_neg hy, hother]
      exact (hw'.matches_filed hother' hl).get?_eq (hw.matches_filed hother hl)
    | none =>
      cases hb : w.backend.engine.branches.get? y with
      | some b => exact hkept ((htraded.branches y hy).trans hb) (hw.prepared_of_unfiled hother hb)
      | none =>
        rw [hbackend]
        show (host'.engine.branches.disconnect n).get? y = none
        rw [Engine.Branches.get?_disconnect, htraded.branches y hy, hb, Option.filter_none]

theorem manages (hw : Attended P w) (hcall : call.task? = some (x, m)) :
    Manages P call x m w := by
  refine ⟨fun hs => ?_, fun s hs hm => ?_⟩
  · obtain ⟨f, hrun, hkind⟩ := call_run_of_not_admits hcall hw.stores hs
    refine ⟨⟨f, ?_, hkind⟩, ?_⟩
    · rw [answer, hrun]
    · rw [hw.called_eq, hrun]
  · obtain ⟨n, hn, hlink⟩ := hw.connected hs
    obtain ⟨hx, hlive⟩ := hw.inOrder x s hs
    have hundo := (Registry.Call.phase_of_task? (κ := Line) hcall).2
    refine ⟨_, hn, plan_refused_iff hw.dialect hundo hlive hm ((hw.sound hs).quoted hlive.1), ?_⟩
    have hrun := call_run hcall hw.dialect hw.stores hs hm hx hn hlink (hw.clean n)
    have hw' := hw.of_taken hcall
    rcases he : (m.drive.exchange P s).run w.backend with ⟨f | l, host'⟩
    · rw [he] at hrun
      obtain ⟨p', hrun, hstores⟩ := hrun
      have hcalled : w.called P call = { w with plant := p' } := by rw [hw.called_eq, hrun]
      rw [hcalled] at hw' ⊢
      exact ⟨by rw [answer, hrun], hw.givesUp hw' hs m.drive hn he hstores⟩
    · have htraded := Drive.exchange_traded (s := s) m.drive hw.dialect w.backend
      rw [he] at hrun htraded
      obtain ⟨p', hrun, hstores⟩ := hrun
      have hcalled : w.called P call = { w with plant := p' } := by rw [hw.called_eq, hrun]
      rw [hcalled]
      have hfiled : filed { w with plant := p' } P = m.refile s ((w.filed P).erase x) :=
        hstores.get_registry
      obtain ⟨R, -, -, hh⟩ := hstores
      have hbackend : backend { w with plant := p' } = host' := hh.get_host
      refine ⟨by rw [answer, hrun], fun y => ?_, hh.get_pool, hbackend, fun y hy => ?_⟩
      · rw [hfiled, Registry.Task.get?_refile (by rw [Table.get?_erase, if_pos hx]), hx,
          Table.get?_erase]
        split
        · rfl
        · rfl
      · rw [hbackend]
        exact htraded.branches y (hx ▸ hy)

end Attended

/-- **Each call on a registered session comes to one of three ends.**  However long a registry has a
workshop to itself, while the engine fails or is switched off as it may: without a session in the
state it starts from, a call answers that there is none and does nothing; if every statement
succeeds, the session moves on or gives its connection back; and after the first fault, the session
is gone and its connection is closed.  Other sessions and their branches stay as they are. -/
theorem manages_run (version name : Bytes) (capacity : Nat) (timeout : Int64)
    (hd : P.dialect ≠ .postgres) {ops : List Op} (hops : ∀ op ∈ ops, op.IsManaged P)
    (hcall : call.task? = some (x, m)) :
    Manages P call x m ((new version name capacity timeout).run (.addRegistry P :: ops)) :=
  ((Attended.new version name capacity timeout hd).run hops).manages hcall

/-- A participant of the strict dialect. -/
def clerk : Participant := ⟨ascii "q", .strict⟩

/-- An ended session, a started one, and a prepare that is going to fail. -/
def errands : List Op :=
  [.registered clerk desk (.start (ascii "a")), .setAvailable false, .setAvailable true,
    .registered clerk desk (.finish (ascii "a")), .registered clerk desk (.start (ascii "b")),
    .inject ⟨ascii "XA PREPARE", .connectionLost, ascii "gone", true⟩]

/-- The workshop after the errands. -/
def counterHall : Workshop :=
  (new (ascii "8.0") (ascii "orders") 2 50).run (.addRegistry clerk :: errands)

/-- The rollback of the started session is refused: the session is gone with its connection, and the
other one is as it was.  A prepare of the started session finds none that has ended. -/
theorem manages_errands :
    let w := counterHall.called clerk (.rollback (ascii "b"))
    (∃ f, counterHall.answer clerk (.rollback (ascii "b")) = .error f) ∧
      (w.filed clerk).get? (ascii "b") = none ∧
      (w.filed clerk).get? (ascii "a") =
        some ⟨ascii "a", some (lineTo host number 1), .ended⟩ ∧
      w.pool.live = 1 ∧ w.backend.links.contains 2 = false ∧
      counterHall.called clerk (.prepare (ascii "b")) = counterHall := by
  have hops : ∀ op ∈ errands, op.IsManaged clerk := by simp [errands, Op.IsManaged]
  have hb : (counterHall.filed clerk).get? (ascii "b") =
      some ⟨ascii "b", some (lineTo host number 2), .started⟩ := rfl
  have hrollback : Manages clerk (.rollback (ascii "b")) (ascii "b") .rollback counterHall :=
    manages_run _ _ _ _ (by decide) hops rfl
  have hprepare : Manages clerk (.prepare (ascii "b")) (ascii "b") .prepare counterHall :=
    manages_run _ _ _ _ (by decide) hops rfl
  obtain ⟨l, hl, hrefused, hend⟩ := hrollback.proceeds _ hb nofun
  cases hl
  obtain ⟨f, hplan⟩ := hrefused.mpr ⟨rfl, rfl, by decide⟩
  rw [Drive.exchange_run_of_refused hplan] at hend
  obtain ⟨hanswer, hgone⟩ := hend
  refine ⟨⟨f, hanswer⟩, ?_, ?_, congrArg Pool.live hgone.pool, hgone.closed, ?_⟩
  · exact (hgone.entries _).trans (if_pos rfl)
  · exact (hgone.entries _).trans (if_neg (by decide))
  · refine (hprepare.rejects fun s hs hm => ?_).2
    rw [hb] at hs
    cases hs
    exact absurd (hm _ rfl) (by decide)

end Workshop

end Coordinator.Plant

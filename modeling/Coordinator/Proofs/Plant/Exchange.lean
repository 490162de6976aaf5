import Coordinator.Proofs.Engine.Acceptance
import Coordinator.Proofs.Plant.Gateway

/-! # What operations exchange with the engine

The part of an operation on a session that concerns the engine is an action on the engine and its
connections alone, the **exchange** (`Drive.exchange`): the session is checked, and the statements
go over its connection until one fails.  In a plant, an operation answers as its exchange does and
leaves the engine as the exchange does, and what pool and registries are is up to what follows
(`perform_mirrors`).

An exchange opens, closes and poisons no connection, and touches no branch of another xid
(`exchange_traded`).  One that succeeds shows that its connection can take statements
(`healthy_of_exchange`); one that fails for a prepared branch changes no branch at all
(`branches_of_failed_exchange`). -/
namespace Coordinator

open Engine (ConnectionId Statement)

/-! ## Statements on a connection -/

namespace Host

variable {host host' : Host} {n : ConnectionId} {sql x y : Bytes}

/-- Sends a statement, with nothing happening around the engine. -/
def deliver (n : ConnectionId) (sql : Bytes) : Action Host Unit := do
  let _ ← send .whole (fun _ => return) n sql

theorem deliver_run_of_broken (hn : host.isBroken n = true) :
    (deliver n sql).run host = (.error (brokenFault n), host) := by
  have hread : (Action.read fun host => (Cell.whole.get host).isBroken n).run host =
      (.ok true, host) := congrArg (fun b => (Except.ok b, host)) hn
  rw [deliver, send, Action.run_bind, Action.run_bind, hread]
  rfl

theorem deliver_run (hn : host.isBroken n = false) : (deliver n sql).run host =
    match (Engine.run n sql).run host.engine with
    | (.ok _, e) => (.ok (), { host with engine := e })
    | (.error f, e) => (.error f, noteFailure n f { host with engine := e }) := by
  have hread : (Action.read fun host => (Cell.whole.get host).isBroken n).run host =
      (.ok false, host) := congrArg (fun b => (Except.ok b, host)) hn
  have hengine : ((Cell.whole.within engineCell).run (Engine.run n sql)).run host =
      (((Engine.run n sql).run host.engine).1,
        { host with engine := ((Engine.run n sql).run host.engine).2 }) := rfl
  have hsend : (send .whole (fun _ => return) n sql).run host =
      (Action.onFailure ((Cell.whole.within engineCell).run (Engine.run n sql)) fun f =>
        Cell.whole.modify (noteFailure n f)).run host := by
    rw [send, Action.run_bind, hread]
    rfl
  rw [deliver, Action.run_bind, hsend, Action.run_onFailure, hengine]
  rcases (Engine.run n sql).run host.engine with ⟨_ | rows, e⟩ <;> rfl

/-- What a failure is noted on is the link of its connection, and of that only whether it is
broken. -/
theorem isPoisoned_noteFailure (f : Fault) (m : ConnectionId) :
    (host.noteFailure n f).isPoisoned m = host.isPoisoned m := by
  unfold noteFailure
  split
  · show ((host.links.modify n _).get? m).any _ = (host.links.get? m).any _
    rw [Table.get?_modify]
    split
    · cases host.links.get? m <;> rfl
    · rfl
  · rfl

theorem contains_noteFailure (f : Fault) (m : ConnectionId) :
    (host.noteFailure n f).links.contains m = host.links.contains m := by
  unfold noteFailure
  split
  · exact Table.contains_modify _ _ _ _
  · rfl

theorem engine_noteFailure (f : Fault) : (host.noteFailure n f).engine = host.engine := by
  unfold noteFailure
  split <;> rfl

/-- What statements that speak of the branch of `x` leave of an engine and its connections. -/
structure Traded (x : Bytes) (host host' : Host) : Prop where
  links : ∀ m, host'.links.contains m = host.links.contains m
  poisoned : ∀ m, host'.isPoisoned m = host.isPoisoned m
  branches : ∀ y, y ≠ x → host'.engine.branches.get? y = host.engine.branches.get? y

theorem Traded.refl (x : Bytes) (host : Host) : Traded x host host :=
  ⟨fun _ => rfl, fun _ => rfl, fun _ _ => rfl⟩

theorem Traded.trans {host'' : Host} (h : Traded x host host') (h' : Traded x host' host'') :
    Traded x host host'' where
  links m := (h'.links m).trans (h.links m)
  poisoned m := (h'.poisoned m).trans (h.poisoned m)
  branches y hy := (h'.branches y hy).trans (h.branches y hy)

/-- A statement that fails changes no branch. -/
theorem branches_of_deliver_error {f : Fault} (h : (deliver n sql).run host = (.error f, host')) :
    host'.engine.branches = host.engine.branches := by
  cases hn : host.isBroken n with
  | true =>
    rw [deliver_run_of_broken hn] at h
    cases h
    rfl
  | false =>
    rw [deliver_run hn] at h
    rcases hr : (Engine.run n sql).run host.engine with ⟨f' | rows, e⟩
    · rw [hr] at h
      cases h
      obtain ⟨statements, injected, rfl⟩ := Engine.run_error hr
      rw [engine_noteFailure]
    · rw [hr] at h
      cases h

/-- A statement that succeeds has a connection that can take more. -/
theorem healthy_of_deliver (h : (deliver n sql).run host = (.ok (), host')) :
    host'.isHealthy n = true := by
  cases hn : host.isBroken n with
  | true =>
    rw [deliver_run_of_broken hn] at h
    cases h
  | false =>
    rw [deliver_run hn] at h
    rcases hr : (Engine.run n sql).run host.engine with ⟨f | rows, e⟩
    · rw [hr] at h
      cases h
    · rw [hr] at h
      cases h
      obtain ⟨⟨statements, branches, committed, rfl⟩, -⟩ := Engine.branches_of_run_ok hr
      show (!host.isBroken n && host.engine.available) = true
      rw [hn, (Engine.run_ok hr).1]
      rfl

/-- A statement opens, closes and poisons no connection. -/
theorem links_deliver (host : Host) (n : ConnectionId) (sql : Bytes) (m : ConnectionId) :
    ((deliver n sql).run host).2.links.contains m = host.links.contains m ∧
      ((deliver n sql).run host).2.isPoisoned m = host.isPoisoned m := by
  cases hn : host.isBroken n with
  | true =>
    rw [deliver_run_of_broken hn]
    exact ⟨rfl, rfl⟩
  | false =>
    rw [deliver_run hn]
    rcases (Engine.run n sql).run host.engine with ⟨f | rows, e⟩
    · exact ⟨contains_noteFailure f m, isPoisoned_noteFailure f m⟩
    · exact ⟨rfl, rfl⟩

theorem deliver_traded {verb : Engine.Verb} (hp : Statement.parse sql = .ok (.branch verb x)) :
    Traded x host ((deliver n sql).run host).2 := by
  refine ⟨fun m => (links_deliver host n sql m).1, fun m => (links_deliver host n sql m).2,
    fun y hy => ?_⟩
  rcases hr : (deliver n sql).run host with ⟨f | u, host'⟩
  · rw [branches_of_deliver_error hr]
  · have hn : host.isBroken n = false := Bool.eq_false_iff.mpr fun hn => by
      rw [deliver_run_of_broken hn] at hr
      cases hr
    rw [deliver_run hn] at hr
    rcases he : (Engine.run n sql).run host.engine with ⟨f | rows, e⟩
    · rw [he] at hr
      cases hr
    · rw [he] at hr
      cases hr
      obtain ⟨-, ⟨verb', x', hp', hmoves⟩ | ⟨hnone, -⟩⟩ := Engine.branches_of_run_ok he
      · rw [hp] at hp'
        cases hp'
        exact hmoves.get?_of_ne hy
      · exact absurd hp (hnone verb x)

end Host

/-! ## Exchanges -/

namespace Drive

variable {P : Participant} {s : Session Line} {l : Line} {host host' : Host} {x q : Bytes}

/-- The part of an operation that concerns the engine: the session is checked, and the statements go
over its connection until one fails. -/
def exchange (P : Participant) (s : Session Line) (d : Drive) : Action Host Line := do
  let (l, sqls) ← .ofExcept (d.plan P s)
  .forEach (Host.deliver l.number) sqls
  return l

/-- Every statement of an operation is a protocol step with the branch of its xid. -/
theorem parse_texts (d : Drive) (state : Xa.State) (hq : Xa.Xid.quoteMysql x = .ok q) :
    ∀ sql ∈ d.texts state q, ∃ verb, Statement.parse sql = .ok (.branch verb x) := by
  cases d with
  | finish => exact List.forall_mem_singleton.mpr ⟨_, Engine.parse_finish hq⟩
  | prepare => exact List.forall_mem_singleton.mpr ⟨_, Engine.parse_prepare hq⟩
  | commit => exact List.forall_mem_singleton.mpr ⟨_, Engine.parse_commit hq⟩
  | commitOnePhase => exact List.forall_mem_singleton.mpr ⟨_, Engine.parse_commitOnePhase hq⟩
  | rollback =>
    refine List.forall_mem_append.mpr ⟨fun sql hsql => ?_,
      List.forall_mem_singleton.mpr ⟨_, Engine.parse_rollback hq⟩⟩
    split at hsql
    · exact ⟨_, List.mem_singleton.mp hsql ▸ Engine.parse_finish hq⟩
    · cases hsql

/-- What an operation with a plan sends: at least one statement, each a step with its branch, and
for a prepared branch no more than one. -/
theorem statements_of_plan {d : Drive} {sqls : List Bytes} (hd : P.dialect ≠ .postgres)
    (hplan : d.plan P s = .ok (l, sqls)) :
    sqls ≠ [] ∧ (∀ sql ∈ sqls, ∃ verb, Statement.parse sql = .ok (.branch verb s.xid)) ∧
      (s.state = .prepared → ∃ sql, sqls = [sql]) := by
  have hsqls := (plan_eq_ok hplan).2
  rw [statements_eq d hd] at hsqls
  obtain ⟨q, hq, rfl⟩ := ok_of_map hsqls
  refine ⟨?_, parse_texts d s.state hq, fun hs => ?_⟩
  · cases d with
    | finish | prepare | commit | commitOnePhase => exact List.cons_ne_nil _ _
    | rollback => exact List.append_ne_nil_of_right_ne_nil _ (List.cons_ne_nil _ _)
  · rw [hs]
    cases d with
    | finish | prepare | commit | commitOnePhase | rollback => exact ⟨_, rfl⟩

theorem exchange_run_of_plan {d : Drive} {sqls : List Bytes} (hplan : d.plan P s = .ok (l, sqls)) :
    (d.exchange P s).run host = (do
      .forEach (Host.deliver l.number) sqls
      return l : Action Host Line).run host := by
  rw [exchange, hplan]
  rfl

theorem exchange_run_of_refused {d : Drive} {f : Fault} (hplan : d.plan P s = .error f) :
    (d.exchange P s).run host = (.error f, host) := by
  rw [exchange, hplan]
  rfl

theorem exchange_traded (d : Drive) (hd : P.dialect ≠ .postgres) (host : Host) :
    Host.Traded s.xid host ((d.exchange P s).run host).2 := by
  rcases hplan : d.plan P s with f | ⟨l, sqls⟩
  · rw [exchange_run_of_refused hplan]
    exact .refl _ _
  · obtain ⟨-, hparse, -⟩ := statements_of_plan hd hplan
    rw [exchange_run_of_plan hplan]
    have hone (sql : Bytes) (hsql : sql ∈ sqls) : (Host.deliver l.number sql).Meets
        (Host.Traded s.xid host) (fun _ => Host.Traded s.xid host)
        fun _ => Host.Traded s.xid host := by
      obtain ⟨verb, hverb⟩ := hparse sql hsql
      intro host' h
      have htraded := h.trans (Host.deliver_traded (n := l.number) hverb)
      rcases hr : (Host.deliver l.number sql).run host' with ⟨f | u, host''⟩ <;>
        rw [hr] at htraded <;> exact htraded
    have hall : (do (.forEach (Host.deliver l.number) sqls); return l : Action Host Line).Meets
        (Host.Traded s.xid host) (fun _ => Host.Traded s.xid host)
        fun _ => Host.Traded s.xid host :=
      (Action.Meets.forEach hone).bind fun _ => .pure fun _ h => h
    exact hall.state (.refl _ _)

/-- An exchange that succeeds goes over the connection of the session, which can take more. -/
theorem healthy_of_exchange {d : Drive} (hd : P.dialect ≠ .postgres)
    (h : (d.exchange P s).run host = (.ok l, host')) :
    s.connection = some l ∧ host'.isHealthy l.number = true := by
  rcases hplan : d.plan P s with f | ⟨l', sqls⟩
  · rw [exchange_run_of_refused hplan] at h
    cases h
  · obtain ⟨hne, -, -⟩ := statements_of_plan hd hplan
    rw [exchange_run_of_plan hplan] at h
    have hone (sql : Bytes) : (Host.deliver l'.number sql).Meets (fun _ => True)
        (fun _ host => host.isHealthy l'.number = true) fun _ _ => True := by
      intro host _
      rcases hr : (Host.deliver l'.number sql).run host with ⟨f | u, host'⟩
      · trivial
      · exact Host.healthy_of_deliver hr
    -- The first statement shows that the connection can take more, and the others that it still
    -- can.
    have hall : (Action.forEach (Host.deliver l'.number) sqls).Meets
        (fun _ => True) (fun _ host => host.isHealthy l'.number = true) fun _ _ => True := by
      cases sqls with
      | nil => exact absurd rfl hne
      | cons sql rest =>
        refine (hone sql).bind fun _ => .forEach fun sql _ => ?_
        exact (hone sql).mono (fun _ _ => trivial) (fun _ _ hhost => hhost) fun _ _ hhost => hhost
    have hend : (do (.forEach (Host.deliver l'.number) sqls); return l' : Action Host Line).Meets
        (fun _ => True) (fun l host => l = l' ∧ host.isHealthy l'.number = true) fun _ _ => True :=
      hall.bind fun _ => .pure fun _ hhost => ⟨rfl, hhost⟩
    obtain ⟨rfl, hhealthy⟩ := hend.ok_of_run trivial h
    exact ⟨connection_of_plan hplan, hhealthy⟩

/-- For a prepared branch there is one statement to fail, so a failed exchange has done nothing. -/
theorem branches_of_failed_exchange {d : Drive} {f : Fault} (hd : P.dialect ≠ .postgres)
    (hs : s.state = .prepared) (h : (d.exchange P s).run host = (.error f, host')) :
    host'.engine.branches = host.engine.branches := by
  rcases hplan : d.plan P s with f' | ⟨l, sqls⟩
  · rw [exchange_run_of_refused hplan] at h
    cases h
    rfl
  · obtain ⟨sql, rfl⟩ := (statements_of_plan hd hplan).2.2 hs
    rw [exchange_run_of_plan hplan] at h
    simp only [Action.forEach, bind_assoc, pure_bind] at h
    rw [Action.run_bind] at h
    rcases hr : (Host.deliver l.number sql).run host with ⟨f' | u, host''⟩
    · rw [hr] at h
      cases h
      exact Host.branches_of_deliver_error hr
    · rw [hr] at h
      cases h

end Drive

namespace Plant

/-! ## In a plant -/

section Mirrors
variable {h : HostId} {k : Nat} {α β : Type} {R : Table RegistryRef (Registry Line)} {host : Host}
  {pool : Pool Line} {p : Plant} {n : ConnectionId} {P : Participant} {s : Session Line}

/-- The action on a plant answers as the action on its engine does and leaves the engine as that
does; pool and registries stay as they are. -/
def Mirrors (h : HostId) (k : Nat) (x : Action Plant α) (y : Action Host α) : Prop :=
  ∀ R host pool p, Holds h k R host pool p →
    (x.run p).1 = (y.run host).1 ∧ Holds h k R (y.run host).2 pool (x.run p).2

namespace Mirrors

variable {x : Action Plant α} {y : Action Host α}

theorem run (hm : Mirrors h k x y) (hp : Holds h k R host pool p) :
    ∃ p', x.run p = ((y.run host).1, p') ∧ Holds h k R (y.run host).2 pool p' := by
  obtain ⟨hanswer, hp'⟩ := hm R host pool p hp
  exact ⟨_, Prod.ext hanswer rfl, hp'⟩

theorem pure (a : α) : Mirrors h k (Pure.pure a) (Pure.pure a) :=
  fun _ _ _ _ hp => ⟨rfl, hp⟩

theorem bind {f : α → Action Plant β} {g : α → Action Host β} (hx : Mirrors h k x y)
    (hf : ∀ a, Mirrors h k (f a) (g a)) : Mirrors h k (x >>= f) (y >>= g) := by
  intro R host pool p hp
  obtain ⟨p', hrun, hp'⟩ := hx.run hp
  rw [Action.run_bind, Action.run_bind, hrun]
  rcases hy : y.run host with ⟨f | a, host'⟩
  · rw [hy] at hp'
    exact ⟨rfl, hp'⟩
  · rw [hy] at hp'
    exact hf a R host' pool p' hp'

theorem forEach {ι : Type} {f : ι → Action Plant Unit} {g : ι → Action Host Unit}
    (hf : ∀ i, Mirrors h k (f i) (g i)) (items : List ι) :
    Mirrors h k (Action.forEach f items) (Action.forEach g items) := by
  induction items with
  | nil => exact .pure ()
  | cons i items ih => exact (hf i).bind fun _ => ih

/-- A record of a failure is none of the engine's business. -/
theorem onFailure_log (hx : Mirrors h k x y) (r : Fault → Journal.Record) :
    Mirrors h k (x.onFailure fun f => (counter h k).log (r f)) y := by
  intro R host pool p hp
  obtain ⟨p', hrun, hp'⟩ := hx.run hp
  rw [Action.run_onFailure, hrun]
  rcases hy : y.run host with ⟨f | a, host'⟩
  · rw [hy] at hp'
    exact ⟨rfl, hp'.log _⟩
  · rw [hy] at hp'
    exact ⟨rfl, hp'⟩

end Mirrors

theorem execute_mirrors (n : ConnectionId) (sql : Bytes) :
    Mirrors h k ((counter h k).execute (lineTo h k n) sql) (Host.deliver n sql) := by
  intro R host pool p hp
  have hexecute : ((counter h k).execute (lineTo h k n) sql).run p =
      (sendOn h n sql >>= fun _ => pure () : Action Plant Unit).run p := rfl
  rw [hexecute, Action.run_bind]
  cases hn : host.isBroken n with
  | true =>
    rw [send_run_of_broken hp hn, Host.deliver_run_of_broken hn]
    exact ⟨rfl, hp⟩
  | false =>
    rw [send_run hp hn, Host.deliver_run hn]
    rcases (Engine.run n sql).run host.engine with ⟨f | rows, e⟩
    · exact ⟨rfl, (hp.set_host { host with engine := e }).modify_host (Host.noteFailure n f)⟩
    · exact ⟨rfl, hp.set_host { host with engine := e }⟩

/-- **An operation does to the engine what its exchange does.** -/
theorem perform_mirrors (d : Drive) (hs : s.connection = some (lineTo h k n)) :
    Mirrors h k (d.perform P (counter h k) s) (d.exchange P s) := by
  have hsend (sql : Bytes) : Mirrors h k
      (P.send (counter h k) (lineTo h k n) d.name s.xid sql) (Host.deliver n sql) :=
    (execute_mirrors n sql).onFailure_log _
  rcases hplan : d.plan P s with f | ⟨l, sqls⟩
  · rw [Drive.perform, Drive.exchange, hplan]
    exact fun _ _ _ _ hp => ⟨rfl, hp⟩
  · have hl := Drive.connection_of_plan hplan
    rw [hs] at hl
    cases hl
    rw [Drive.perform, Drive.exchange, hplan]
    exact (Mirrors.forEach hsend sqls).bind fun _ => .pure _

end Mirrors

/-! ## Connections given back and given up -/

section Back
variable {h : HostId} {k : Nat} {R : Table RegistryRef (Registry Line)} {host : Host}
  {pool : Pool Line} {p : Plant} {n : ConnectionId} {s : Session Line}

/-- A connection that can take more statements waits in the pool again. -/
theorem Holds.released_healthy (hp : Holds h k R host pool p) (hclean : host.isPoisoned n = false)
    (hn : host.isHealthy n = true) :
    Holds h k R host { pool with idle := lineTo h k n :: pool.idle }
      ((counter h k).release (lineTo h k n) p) := by
  have hback := hp.release n
  rw [hclean, hn, Bool.not_false, Bool.true_and, if_pos rfl] at hback
  exact hback

theorem isPoisoned_poison (hn : host.links.contains n = true) :
    (host.poison n).isPoisoned n = true := by
  obtain ⟨link, hlink⟩ := (Table.contains_iff _ _).mp hn
  show ((host.links.modify n _).get? n).any _ = true
  rw [Table.get?_modify, if_pos rfl, hlink]
  rfl

/-- The connection of a session that is dropped is closed, and its place is free. -/
theorem Holds.dropped (hp : Holds h k R host pool p) (hs : s.connection = some (lineTo h k n))
    (hn : host.links.contains n = true) :
    Holds h k R (host.close n) { pool with live := pool.live - 1 }
      (s.drop (counter h k).toKeeper p) := by
  have hback := ((hp.poison n).log s.droppedRecord).release n
  rw [isPoisoned_poison hn, Bool.not_true, Bool.false_and, if_neg Bool.false_ne_true] at hback
  have hclose : (host.poison n).close n = host.close n := by
    unfold Host.close Host.poison
    rw [Table.erase_modify]
  rw [hclose] at hback
  rw [Session.drop, hs]
  exact hback

end Back

end Plant
end Coordinator

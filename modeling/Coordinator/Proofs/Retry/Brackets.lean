import Coordinator.Proofs.Plant.Exchange
import Coordinator.Proofs.Plant.Workshop
import Coordinator.Proofs.Session.Life
import Coordinator.Retry.Manager

/-! # What an attempt sends, and where its connection goes

An attempt encloses its work: it sends the start of a transaction, perhaps its priority, what the
work sends, and the commit; and after any failure past the start, one rollback.  `Bracket` lists the
courses that this can take, with every answer, by the `Ending` of the transaction.  Three of the
four endings close the transaction.  If the rollback fails too, the transaction may be open still,
but then its connection is poisoned, and a pool does not lend it again.

The work (`Labor`) sends what it likes, may go on after a failure, and may change its surroundings;
the backend answers as it likes.  What is sent is on record because the gateway is watched, which
disturbs nothing (`Tells`).  So **every attempt is bracketed, and no open transaction waits in the
pool** (`brackets_of_try`). -/
namespace Coordinator.Retry

variable {σ κ α β : Type}

/-! ## Work -/

/-- The work of an attempt.  It sends statements on the connection of the attempt, and may look at
its surroundings and change them; what it does next may depend on all it has learned so far. -/
inductive Labor (σ : Type)
  | done
  | fail (f : Fault)
  | execute (sql : Bytes) (next : Except Fault Unit → Labor σ)
  | query (sql : Bytes) (params : List Sql.Param) (next : Except Fault Sql.Rows → Labor σ)
  | look (next : σ → Labor σ)
  | change (f : σ → σ) (next : Labor σ)

namespace Labor

/-- Does the work on a connection of a gateway; `world` is where its surroundings are. -/
def run {τ : Type} (g : Gateway τ κ) (world : Cell τ σ) (c : κ) : Labor σ → Action τ Unit
  | done => pure ()
  | fail f => Action.fail f
  | execute sql next => do
    let answer ← (g.execute c sql).attempt
    (next answer).run g world c
  | query sql params next => do
    let answer ← (g.query c sql params).attempt
    (next answer).run g world c
  | look next => do
    let s ← Action.read world.get
    (next s).run g world c
  | change f next => do
    Action.update (world.modify f)
    next.run g world c

/-- The work of a transaction, which may be another in each attempt. -/
abbrev work {τ : Type} (g : Gateway τ κ) (world : Cell τ σ) (labor : UInt32 → Labor σ) :
    Work τ κ := fun c number => (labor number).run g world c

/-- What the work changes of its surroundings keeps `held`. -/
def Keeps (held : κ → σ → Prop) : Labor σ → Prop
  | done | fail _ => True
  | execute _ next => ∀ answer, (next answer).Keeps held
  | query _ _ next => ∀ answer, (next answer).Keeps held
  | look next => ∀ s, (next s).Keeps held
  | change f next => (∀ c s, held c s → held c (f s)) ∧ next.Keeps held

/-- From the surroundings `s`, the work comes to this end, and sends this on connection `c` on the
way. -/
def Sends (g : Gateway σ κ) (c : κ) (s : σ) (labor : Labor σ) (answer : Except Fault Unit)
    (added : List (Sent κ)) : Prop :=
  (∀ m ∈ added, m.connection = c) ∧ ∃ t, ∀ sent,
    (labor.run g.watched .first c).run (s, sent) = (answer, t, sent ++ added)

end Labor

/-! ## Courses of an attempt -/

/-- How the transaction of an attempt ends. -/
inductive Ending
  /-- It was not started. -/
  | refused
  | committed
  | rolledBack
  /-- Neither commit nor rollback succeeded. -/
  | abandoned
deriving DecidableEq, Repr

section Courses
variable (d : Dialect) (priority : Option Priority) (c : κ)
  (work : Except Fault Unit → List (Sent κ) → Prop)

/-- What is sent between the start and the work, if that goes well. -/
inductive Announces : List (Sent κ) → Prop
  | nothing (hp : priority = none) : Announces []
  | priority {p : Priority} {sql : Bytes} (hp : priority = some p)
      (hsql : d.priority p = .ok sql) : Announces [⟨c, sql, .ok ()⟩]

/-- What is sent after the start up to the first failure. -/
inductive Breaks (f : Fault) : List (Sent κ) → Prop
  /-- The dialect has no statement for the priority. -/
  | unsupported {p : Priority} (hp : priority = some p) (hsql : d.priority p = .error f) :
      Breaks f []
  | priority {p : Priority} {sql : Bytes} (hp : priority = some p)
      (hsql : d.priority p = .ok sql) : Breaks f [⟨c, sql, .error f⟩]
  | work {first sent : List (Sent κ)} (hp : Announces d priority c first)
      (hw : work (.error f) sent) : Breaks f (first ++ sent)
  | commit {first sent : List (Sent κ)} (hp : Announces d priority c first)
      (hw : work (.ok ()) sent) : Breaks f (first ++ sent ++ [⟨c, d.commit, .error f⟩])

/-- What an attempt sends, and what it answers, by how its transaction ends. -/
inductive Bracket : Ending → Except Fault Unit → List (Sent κ) → Prop
  | refused {f : Fault} : Bracket .refused (.error f) [⟨c, d.start, .error f⟩]
  | committed {first sent : List (Sent κ)} (hp : Announces d priority c first)
      (hw : work (.ok ()) sent) : Bracket .committed (.ok ())
        (⟨c, d.start, .ok ()⟩ :: (first ++ sent ++ [⟨c, d.commit, .ok ()⟩]))
  | rolledBack {f : Fault} {sent : List (Sent κ)} (hb : Breaks d priority c work f sent) :
      Bracket .rolledBack (.error f)
        (⟨c, d.start, .ok ()⟩ :: (sent ++ [⟨c, d.rollback, .ok ()⟩]))
  | abandoned {f e : Fault} {sent : List (Sent κ)} (hb : Breaks d priority c work f sent) :
      Bracket .abandoned (.error f)
        (⟨c, d.start, .ok ()⟩ :: (sent ++ [⟨c, d.rollback, .error e⟩]))

/-- What is sent after the start, however that ends. -/
def Follows : Except Fault Unit → List (Sent κ) → Prop
  | .ok (), added => ∃ first sent, Announces d priority c first ∧ work (.ok ()) sent ∧
      added = first ++ sent ++ [⟨c, d.commit, .ok ()⟩]
  | .error f, added => Breaks d priority c work f added

end Courses

/-! ## Pools at work -/

/-- What a gateway owes to a pool behind it, for connections that are `held`: a connection stays
held through whatever is sent on it; once poisoned, it counts as poisoned; and the pool takes it
back. -/
structure Serves (g : Gateway σ κ) (p : Pool.Site σ κ) (held : κ → σ → Prop) : Prop where
  execute : ∀ c sql, (g.execute c sql).Meets (held c) (fun _ => held c) fun _ => held c
  query : ∀ c sql params, (g.query c sql params).Meets (held c) (fun _ => held c) fun _ => held c
  log : ∀ c r s, held c s → held c (g.log r s)
  poison : ∀ c s, held c s → held c (g.poison c s)
  marks : ∀ c s, held c s → p.backend.isPoisoned c (g.poison c s) = true
  records : ∀ c r s, p.backend.isPoisoned c (g.log r s) = p.backend.isPoisoned c s
  release : ∀ c s, held c s → g.release c s = p.release c s
  /-- The pool is where it is kept, and connections that close are no part of it. -/
  stored : ∀ c s pool, held c s → p.pool.get (p.pool.set pool s) = pool
  close : ∀ c s, p.pool.get (p.backend.close c s) = p.pool.get s

/-! ## Recording disturbs nothing -/

/-- From surroundings with `pre`, the action answers, leaves its surroundings and sends as `post`
says; and watched, it does the same and has on record what it sent. -/
def Tells (x : Action σ α) (y : Action (σ × List (Sent κ)) α) (pre : σ → Prop)
    (post : Except Fault α → σ → List (Sent κ) → Prop) : Prop :=
  ∀ s, pre s → ∃ added, post (x.run s).1 (x.run s).2 added ∧
    ∀ sent, y.run (s, sent) = ((x.run s).1, (x.run s).2, sent ++ added)

namespace Tells

variable {x : Action σ α} {y : Action (σ × List (Sent κ)) α} {f : α → Action σ β}
  {h : α → Action (σ × List (Sent κ)) β} {pre : σ → Prop}
  {mid post : Except Fault α → σ → List (Sent κ) → Prop}
  {last : Except Fault β → σ → List (Sent κ) → Prop}

theorem mono (hx : Tells x y pre mid) (hpost : ∀ r s added, mid r s added → post r s added) :
    Tells x y pre post := by
  intro s hs
  obtain ⟨added, hmid, hrun⟩ := hx s hs
  exact ⟨added, hpost _ _ _ hmid, hrun⟩

/-- In sequence, the second action adds to what the first one sent, unless that failed. -/
theorem bind (hx : Tells x y pre mid)
    (hbad : ∀ e s added, mid (.error e) s added → last (.error e) s added)
    (hf : ∀ a added, Tells (f a) (h a) (fun s => mid (.ok a) s added)
      fun r s more => last r s (added ++ more)) : Tells (x >>= f) (y >>= h) pre last := by
  intro s hs
  obtain ⟨added, hmid, hrun⟩ := hx s hs
  rcases hr : x.run s with ⟨e | a, t⟩
  · rw [hr] at hmid hrun
    refine ⟨added, ?_, fun sent => ?_⟩
    · rw [Action.run_bind, hr]
      exact hbad e t added hmid
    · rw [Action.run_bind, Action.run_bind, hrun, hr]
  · rw [hr] at hmid hrun
    obtain ⟨more, hlast, hrun'⟩ := hf a added t hmid
    refine ⟨added ++ more, ?_, fun sent => ?_⟩
    · rw [Action.run_bind, hr]
      exact hlast
    · rw [Action.run_bind, Action.run_bind, hrun, hr]
      dsimp only
      rw [hrun', List.append_assoc]

/-- What is done after a failure adds to what was sent before it. -/
theorem onFailure {cleanUp : Fault → σ → σ}
    {cleanUp' : Fault → σ × List (Sent κ) → σ × List (Sent κ)} (hx : Tells x y pre mid)
    (hok : ∀ a s added, mid (.ok a) s added → post (.ok a) s added)
    (hbad : ∀ e s added, mid (.error e) s added → ∃ more,
      post (.error e) (cleanUp e s) (added ++ more) ∧
        ∀ sent, cleanUp' e (s, sent) = (cleanUp e s, sent ++ more)) :
    Tells (x.onFailure cleanUp) (y.onFailure cleanUp') pre post := by
  intro s hs
  obtain ⟨added, hmid, hrun⟩ := hx s hs
  rcases hr : x.run s with ⟨e | a, t⟩
  · rw [hr] at hmid hrun
    obtain ⟨more, hpost, hclean⟩ := hbad e t added hmid
    refine ⟨added ++ more, ?_, fun sent => ?_⟩
    · rw [Action.run_onFailure, hr]
      exact hpost
    · rw [Action.run_onFailure, Action.run_onFailure, hrun, hr]
      dsimp only
      rw [hclean, List.append_assoc]
  · rw [hr] at hmid hrun
    refine ⟨added, ?_, fun sent => ?_⟩
    · rw [Action.run_onFailure, hr]
      exact hok a t added hmid
    · rw [Action.run_onFailure, Action.run_onFailure, hrun, hr]

end Tells

variable {g : Gateway σ κ} {p : Pool.Site σ κ} {held : κ → σ → Prop} {m : Manager}
  {priority : Option Priority} {c : κ} {sql : Bytes} {labor : Labor σ} {number : UInt32}
  {labors : UInt32 → Labor σ}

/-- The surroundings after a statement, however it ends. -/
abbrev after (g : Gateway σ κ) (c : κ) (sql : Bytes) (s : σ) : σ := ((g.execute c sql).run s).2

theorem execute_tells (hg : Serves g p held) (s : σ) :
    Tells (g.execute c sql) (g.watched.execute c sql) (fun t => t = s ∧ held c t)
      fun r t added => (t = after g c sql s ∧ held c t) ∧ added = [⟨c, sql, r⟩] := by
  rintro _ ⟨rfl, hs⟩
  exact ⟨_, ⟨⟨rfl, (hg.execute c sql).state hs⟩, rfl⟩, fun sent => rfl⟩

/-- What the work sends goes over its connection, and watching it changes nothing. -/
theorem Labor.run_tells (hg : Serves g p held) (hl : labor.Keeps held) :
    Tells (labor.run g .whole c) (labor.run g.watched .first c) (held c)
      fun _ s added => held c s ∧ ∀ m ∈ added, m.connection = c := by
  induction labor with
  | done => exact fun s hs => ⟨[], ⟨hs, nofun⟩, fun sent => by rw [List.append_nil]; rfl⟩
  | fail f => exact fun s hs => ⟨[], ⟨hs, nofun⟩, fun sent => by rw [List.append_nil]; rfl⟩
  | look next ih =>
    intro s hs
    exact ih s (hl s) s hs
  | change f next ih =>
    intro s hs
    exact ih hl.2 (f s) (hl.1 c s hs)
  | execute sql next ih =>
    intro s hs
    obtain ⟨more, ⟨hheld, hmore⟩, hrun⟩ := ih ((g.execute c sql).run s).1 (hl _)
      ((g.execute c sql).run s).2 ((hg.execute c sql).state hs)
    refine ⟨⟨c, sql, ((g.execute c sql).run s).1⟩ :: more,
      ⟨hheld, List.forall_mem_cons.mpr ⟨rfl, hmore⟩⟩, fun sent => ?_⟩
    exact (hrun _).trans (by rw [List.append_assoc]; rfl)
  | query sql params next ih =>
    intro s hs
    obtain ⟨more, ⟨hheld, hmore⟩, hrun⟩ := ih ((g.query c sql params).run s).1 (hl _)
      ((g.query c sql params).run s).2 ((hg.query c sql params).state hs)
    refine ⟨⟨c, sql, ((g.query c sql params).run s).1.map fun _ => ()⟩ :: more,
      ⟨hheld, List.forall_mem_cons.mpr ⟨rfl, hmore⟩⟩, fun sent => ?_⟩
    exact (hrun _).trans (by rw [List.append_assoc]; rfl)

theorem Labor.tells (hg : Serves g p held) (hl : labor.Keeps held) (s : σ) :
    Tells (labor.run g .whole c) (labor.run g.watched .first c) (fun t => t = s ∧ held c t)
      fun r t added => held c t ∧ labor.Sends g c s r added := by
  rintro _ ⟨rfl, hs⟩
  obtain ⟨added, ⟨hheld, hadded⟩, hrun⟩ := Labor.run_tells hg hl _ hs
  exact ⟨added, ⟨hheld, hadded, _, hrun⟩, hrun⟩

/-! ## The statements of an attempt -/

/-- The work and the commit after it. -/
theorem workAndCommit_tells (hg : Serves g p held) (hl : labor.Keeps held) (s : σ) :
    Tells (do labor.run g .whole c; g.execute c m.dialect.commit)
      (do labor.run g.watched .first c; g.watched.execute c m.dialect.commit)
      (fun t => t = s ∧ held c t)
      fun r t added => held c t ∧ ((∃ f, r = .error f ∧ labor.Sends g c s r added) ∨
        ∃ sent, labor.Sends g c s (.ok ()) sent ∧
          added = sent ++ [⟨c, m.dialect.commit, r⟩]) := by
  refine (Labor.tells hg hl s).bind (fun f t added ⟨ht, hw⟩ => ⟨ht, .inl ⟨f, rfl, hw⟩⟩) ?_
  intro u added t ht
  obtain ⟨_, ⟨⟨-, hheld⟩, rfl⟩, hrun⟩ :=
    execute_tells hg t (c := c) t ⟨rfl, ht.1⟩
  exact ⟨_, ⟨hheld, .inr ⟨added, ht.2, rfl⟩⟩, hrun⟩

theorem follows_of_announces {d : Dialect} {W : Except Fault Unit → List (Sent κ) → Prop}
    {first added : List (Sent κ)} {r : Except Fault Unit} (hp : Announces d priority c first)
    (h : (∃ f, r = .error f ∧ W r added) ∨
      ∃ sent, W (.ok ()) sent ∧ added = sent ++ [⟨c, d.commit, r⟩]) :
    Follows d priority c W r (first ++ added) := by
  rcases h with ⟨f, rfl, hw⟩ | ⟨sent, hw, rfl⟩
  · exact .work hp hw
  · rw [← List.append_assoc]
    cases r with
    | ok u => exact ⟨first, sent, hp, hw, rfl⟩
    | error f => exact .commit hp hw

/-- The surroundings once the priority is set, if there is one to set. -/
def announced (m : Manager) (g : Gateway σ κ) (priority : Option Priority) (c : κ) (s : σ) : σ :=
  match priority.map m.dialect.priority with
  | some (.ok sql) => after g c sql s
  | _ => s

theorem body_tells (hg : Serves g p held) (hl : (labors number).Keeps held) (s : σ) :
    Tells (m.body g priority (Labor.work g .whole labors) number c)
      (m.body g.watched priority (Labor.work g.watched .first labors) number c)
      (fun t => t = s ∧ held c t)
      fun r t added => held c t ∧ Follows m.dialect priority c
        ((labors number).Sends g c (announced m g priority c s)) r added := by
  have hlast := workAndCommit_tells (m := m) (c := c) hg hl
  cases priority with
  | none =>
    exact (hlast s).mono fun r t added ⟨ht, h⟩ => ⟨ht, follows_of_announces (.nothing rfl) h⟩
  | some q =>
    cases hsql : m.dialect.priority q with
    | error f =>
      rintro _ ⟨rfl, hs⟩
      simp only [Manager.body, hsql]
      refine ⟨[], ⟨hs, .unsupported rfl hsql⟩, fun sent => ?_⟩
      rw [List.append_nil]
      rfl
    | ok sql =>
      simp only [Manager.body, announced, Option.map_some, hsql]
      refine (execute_tells hg s).bind ?_ ?_
      · rintro f t _ ⟨⟨-, ht⟩, rfl⟩
        exact ⟨ht, .priority rfl hsql⟩
      · rintro u _ t ⟨ht, rfl⟩
        obtain ⟨more, ⟨hheld, h⟩, hrun⟩ := hlast _ t ht
        exact ⟨more, ⟨hheld, follows_of_announces (.priority rfl hsql) h⟩, hrun⟩

/-- The rollback after a failure is sent whatever comes of it. -/
theorem undo_watched (s : σ) (sent : List (Sent κ)) : m.undo g.watched c (s, sent) =
    (m.undo g c s,
      sent ++ [⟨c, m.dialect.rollback, ((g.execute c m.dialect.rollback).run s).1⟩]) := by
  have hexecute : (g.watched.execute c m.dialect.rollback).run (s, sent) =
      (((g.execute c m.dialect.rollback).run s).1, ((g.execute c m.dialect.rollback).run s).2,
        sent ++ [⟨c, m.dialect.rollback, ((g.execute c m.dialect.rollback).run s).1⟩]) := rfl
  unfold Manager.undo
  rw [hexecute]
  rcases (g.execute c m.dialect.rollback).run s with ⟨f | u, t⟩ <;> rfl

/-- What is done on the connection of an attempt. -/
def onConnection (m : Manager) (g : Gateway σ κ) (priority : Option Priority) (work : Work σ κ)
    (number : UInt32) (c : κ) : Action σ Unit := do
  g.execute c m.dialect.start
  (m.body g priority work number c).onFailure fun _ => m.undo g c

/-- The surroundings in which the work of an attempt is done, from those in which its connection is
lent. -/
def atWork (m : Manager) (g : Gateway σ κ) (priority : Option Priority) (c : κ) (s : σ) : σ :=
  announced m g priority c (after g c m.dialect.start s)

/-- The attempt on its connection is bracketed, and a transaction that is abandoned leaves its
connection poisoned. -/
theorem onConnection_tells (hg : Serves g p held) (hl : (labors number).Keeps held) (s : σ) :
    Tells (onConnection m g priority (Labor.work g .whole labors) number c)
      (onConnection m g.watched priority (Labor.work g.watched .first labors) number c)
      (fun t => t = s ∧ held c t)
      fun r t added => ∃ ending, Bracket m.dialect priority c
        ((labors number).Sends g c (atWork m g priority c s)) ending r added ∧ held c t ∧
          (ending = .abandoned → p.backend.isPoisoned c t = true) := by
  have hfollows : Tells
      ((m.body g priority (Labor.work g .whole labors) number c).onFailure fun _ => m.undo g c)
      ((m.body g.watched priority (Labor.work g.watched .first labors) number c).onFailure
        fun _ => m.undo g.watched c)
      (fun t => t = after g c m.dialect.start s ∧ held c t)
      fun r t added => ∃ ending, Bracket m.dialect priority c
        ((labors number).Sends g c (atWork m g priority c s)) ending r
        (⟨c, m.dialect.start, .ok ()⟩ :: added) ∧ held c t ∧
          (ending = .abandoned → p.backend.isPoisoned c t = true) := by
    refine (body_tells hg hl _).onFailure ?_ ?_
    · rintro a t _ ⟨ht, first, sent, hp, hw, rfl⟩
      exact ⟨.committed, .committed hp hw, ht, nofun⟩
    rintro f t added ⟨ht, hb⟩
    refine ⟨_, ?_, undo_watched t⟩
    have hrollback := hg.execute c m.dialect.rollback t ht
    unfold Manager.undo
    rcases hr : (g.execute c m.dialect.rollback).run t with ⟨e | v, u⟩
    · rw [hr] at hrollback
      refine ⟨.abandoned, .abandoned hb, hg.log _ _ _ (hg.poison _ _ hrollback), fun _ => ?_⟩
      rw [hg.records]
      exact hg.marks _ _ hrollback
    · rw [hr] at hrollback
      exact ⟨.rolledBack, .rolledBack hb, hrollback, nofun⟩
  refine (execute_tells hg s).bind ?_ ?_
  · rintro f t _ ⟨⟨-, ht⟩, rfl⟩
    exact ⟨.refused, .refused, ht, nofun⟩
  · rintro u _ t ⟨ht, rfl⟩
    exact hfollows t ht

/-! ## Whole attempts -/

/-- Where the connection of an attempt goes at its end: it waits in the pool to be lent again, or it
is closed and its place is free.  It waits only if it is healthy and its transaction is closed. -/
def Returns (g : Gateway σ κ) (p : Pool.Site σ κ) (c : κ) (ending : Ending) (s : σ) : Prop :=
  ∃ reusable, p.pool.get (g.release c s) = (p.pool.get s).giveBack reusable c ∧
    (reusable = true → ending ≠ .abandoned ∧ p.backend.isHealthy c s = true)

theorem Serves.returns (hg : Serves g p held) {ending : Ending} {s : σ} (hs : held c s)
    (hpoisoned : ending = .abandoned → p.backend.isPoisoned c s = true) :
    Returns g p c ending s := by
  refine ⟨!p.backend.isPoisoned c s && p.backend.isHealthy c s, ?_, fun hr => ?_⟩
  · have hmodify (f : Pool κ → Pool κ) : p.pool.get (p.pool.modify f s) = f (p.pool.get s) :=
      hg.stored c s _ hs
    rw [hg.release c s hs, Pool.Site.release]
    split
    · exact hmodify _
    · rw [hg.close]
      exact hmodify _
  · rw [Bool.and_eq_true, Bool.not_eq_true'] at hr
    refine ⟨fun ha => ?_, hr.2⟩
    rw [hpoisoned ha] at hr
    cases hr.1

/-- An attempt from the surroundings `s`, watched and not watched. -/
inductive Attempted (m : Manager) (g : Gateway σ κ) (p : Pool.Site σ κ)
    (priority : Option Priority) (labors : UInt32 → Labor σ) (number : UInt32) (s : σ) : Prop
  /-- Without a connection, nothing is sent. -/
  | unlent {f : Fault} {t : σ} (hlent : g.acquire.run s = (.error f, t))
      (hrun : (m.try_ g priority (Labor.work g .whole labors) number).run s = (.error f, t))
      (hwatched : ∀ sent, (m.try_ g.watched priority (Labor.work g.watched .first labors)
        number).run (s, sent) = (.error f, t, sent))
  /-- With one, what is sent is a bracket, and then the connection goes back. -/
  | bracketed {c : κ} {s' t : σ} {ending : Ending} {answer : Except Fault Unit}
      {added : List (Sent κ)} (hlent : g.acquire.run s = (.ok c, s'))
      (hb : Bracket m.dialect priority c ((labors number).Sends g c (atWork m g priority c s'))
        ending answer added)
      (hrun : (m.try_ g priority (Labor.work g .whole labors) number).run s =
        (answer, g.release c t))
      (hwatched : ∀ sent, (m.try_ g.watched priority (Labor.work g.watched .first labors)
        number).run (s, sent) = (answer, g.release c t, sent ++ added))
      (hback : Returns g p c ending t)

/-- **Every attempt is bracketed, and no open transaction waits in the pool.** -/
theorem brackets_of_try {ready : σ → Prop} (hg : Serves g p held)
    (hlend : g.acquire.Meets ready held fun _ _ => True)
    (hl : ∀ number, (labors number).Keeps held) (m : Manager) (priority : Option Priority)
    (number : UInt32) {s : σ} (hs : ready s) :
    Attempted m g p priority labors number s := by
  have htry {τ : Type} (g : Gateway τ κ) (work : Work τ κ) : m.try_ g priority work number =
      g.acquire >>= fun c => (onConnection m g priority work number c).ensuring (g.release c) :=
    rfl
  have hacquire (sent : List (Sent κ)) : g.watched.acquire.run (s, sent) =
      ((g.acquire.run s).1, (g.acquire.run s).2, sent) := rfl
  have hheld := hlend s hs
  rcases ha : g.acquire.run s with ⟨f | c, s'⟩
  · refine .unlent ha ?_ fun sent => ?_
    · rw [htry, Action.run_bind, ha]
    · rw [htry, Action.run_bind, hacquire, ha]
  · rw [ha] at hheld
    obtain ⟨added, ⟨ending, hb, ht, hpoisoned⟩, hrun⟩ :=
      onConnection_tells hg (hl number) s' s' ⟨rfl, hheld⟩
    refine .bracketed ha hb ?_ (fun sent => ?_) (hg.returns ht hpoisoned)
    · rw [htry, Action.run_bind, ha]
      rfl
    · rw [htry, Action.run_bind, hacquire, ha]
      show ((onConnection m g.watched priority _ number c).ensuring _).run (s', sent) = _
      rw [Action.run_ensuring, hrun]
      rfl

/-! ## A pool over an engine -/

section Plant
open Plant (Holds Lends LendsIf counter lineTo poolOf poolCell)
open Engine (ConnectionId)

variable {h : HostId} {k : Nat} {n : ConnectionId} {l : Line} {t : Plant}

/-- The connection is one of the pool's, and open. -/
def OpenOn (h : HostId) (k : Nat) (l : Line) (t : Plant) : Prop :=
  ∃ n R host pool, l = lineTo h k n ∧ Holds h k R host pool t ∧ host.links.contains n = true

theorem send_openOn : (Plant.sendOn h n sql).Meets (OpenOn h k (lineTo h k n))
    (fun _ => OpenOn h k (lineTo h k n)) fun _ => OpenOn h k (lineTo h k n) := by
  rintro t ⟨n', R, host, pool, hl, hh, hn⟩
  obtain rfl : n = n' := congrArg Line.number hl
  cases hb : host.isBroken n with
  | true =>
    rw [Plant.send_run_of_broken hh hb]
    exact ⟨n, R, host, pool, rfl, hh, hn⟩
  | false =>
    rw [Plant.send_run hh hb]
    rcases (Engine.run n sql).run host.engine with ⟨f | rows, e⟩
    · refine ⟨n, R, _, pool, rfl, (hh.set_host _).modify_host (Host.noteFailure n f), ?_⟩
      rw [Host.contains_noteFailure]
      exact hn
    · exact ⟨n, R, _, pool, rfl, hh.set_host _, hn⟩

theorem counter_serves : Serves (counter h k) (Plant.alone.pool (poolOf h k)) (OpenOn h k) where
  execute c sql t ht := by
    obtain ⟨n, R, host, pool, rfl, hh, hn⟩ := ht
    have hexecute : ((counter h k).execute (lineTo h k n) sql).Meets (OpenOn h k (lineTo h k n))
        (fun _ => OpenOn h k (lineTo h k n)) fun _ => OpenOn h k (lineTo h k n) :=
      send_openOn.bind fun _ => .pure fun _ ht => ht
    exact hexecute t ⟨n, R, host, pool, rfl, hh, hn⟩
  query c sql params t ht := by
    obtain ⟨n, R, host, pool, rfl, hh, hn⟩ := ht
    exact Plant.query_of_send (fun _ _ => send_openOn) (fun _ _ ht => ht) t
      ⟨n, R, host, pool, rfl, hh, hn⟩
  log c r t ht := by
    obtain ⟨n, R, host, pool, hl, hh, hn⟩ := ht
    exact ⟨n, R, host, pool, hl, hh.log r, hn⟩
  poison c t ht := by
    obtain ⟨n, R, host, pool, rfl, hh, hn⟩ := ht
    refine ⟨n, R, _, pool, rfl, hh.poison n, ?_⟩
    exact (Table.contains_modify _ _ _ _).trans hn
  marks c t ht := by
    obtain ⟨n, R, host, pool, rfl, hh, hn⟩ := ht
    show ((Plant.hostCell h).get _).isPoisoned n = true
    rw [(hh.poison n).get_host]
    exact Plant.isPoisoned_poison hn
  records c r t := by
    obtain ⟨_ | path, n, home⟩ := c <;> rfl
  release c t ht := by
    obtain ⟨n, R, host, pool, rfl, hh, -⟩ := ht
    exact hh.release_eq n
  stored c t pool ht := by
    obtain ⟨n, R, host, pool', rfl, hh, -⟩ := ht
    exact (hh.set_pool pool).get_pool
  close c t := by
    obtain ⟨_ | path, n, home⟩ := c <;> rfl

/-- A pool whose connections are in custody lends open ones. -/
theorem acquire_openOn : (counter h k).acquire.Meets (fun t => ∃ R loans, Lends h k False R loans t)
    (OpenOn h k) fun _ _ => True := by
  rintro t ⟨R, loans, ht⟩
  have hend := Plant.acquire_meets (fun _ _ _ hq => hq) (fun _ hq => hq) t ht
  rcases hr : (counter h k).acquire.run t with ⟨f | l, u⟩
  · trivial
  · rw [hr] at hend
    obtain ⟨n, rfl, host, pool, hh, hc, -⟩ := hend
    exact ⟨n, R, host, pool, rfl, hh,
      (hc.known n (Plant.Custody.mem_numbers_lent List.mem_cons_self)).2⟩

/-- The commit conflicts, and the rollback after it fails too. -/
def troubles : List Plant.Op :=
  [.inject ⟨ascii "COMMIT", .serializationFailure, ascii "restart transaction", true⟩,
    .inject ⟨ascii "ROLLBACK", .internal, ascii "no rollback", true⟩]

/-- A pool of one connection over an engine with these troubles. -/
def troubled : Plant.Workshop :=
  (Plant.Workshop.new (ascii "23.1") (ascii "orders") 1 0).run troubles

/-- Work that sends one statement. -/
def errand : Labor Plant :=
  .execute (ascii "INSERT INTO orders VALUES (1)") fun _ => .done

/-- Two failures in a row: the connection is healthy, and still it is given up. -/
theorem brackets_of_troubled :
    let m : Manager := ⟨ascii "orders", .cockroach, {}⟩
    let after := (m.try_ (counter 0 1).watched (some .high)
      (Labor.work (counter 0 1).watched .first fun _ => errand) 1).run (troubled.plant, [])
    Attempted m (counter 0 1) (Plant.alone.pool (poolOf 0 1)) (some .high) (fun _ => errand) 1
        troubled.plant ∧
      after.2.2.map (fun sent => (sent.sql, sent.answer.isOk)) =
        [(ascii "BEGIN", true), (ascii "SET TRANSACTION PRIORITY HIGH", true),
          (ascii "INSERT INTO orders VALUES (1)", true), (ascii "COMMIT", false),
          (ascii "ROLLBACK", false)] ∧
      ((poolCell (poolOf 0 1)).get after.2.1).idle = [] ∧
      ((poolCell (poolOf 0 1)).get after.2.1).live = 0 := by
  have hpassive : ∀ op ∈ troubles, op.IsPassive := by simp [troubles, Plant.Op.IsPassive]
  have horderly : troubled.Orderly False :=
    Plant.Workshop.orderly_run (Plant.Workshop.orderly_new _ _ _ _) hpassive False.elim
  have hkeeps (number : UInt32) : errand.Keeps (OpenOn 0 1) := fun _ => trivial
  refine ⟨?_, by decide +kernel, by decide +kernel, by decide +kernel⟩
  exact brackets_of_try counter_serves acquire_openOn hkeeps _ _ _ ⟨_, _, horderly.lends⟩

end Plant

end Coordinator.Retry

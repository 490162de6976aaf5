import Coordinator.Proofs.Plant.Gateway
import Coordinator.Proofs.Retry.Rounds

/-! # What a retried transaction commits

A transaction is tried again when it conflicts, as often as the policy allows, and each attempt can
fail at any of its statements.  **It commits once or not at all** (`commits_of_execute`): if it
returns, the engine has counted one commit more than before, and if it fails, none.

The work of a transaction (`Job`) does as it likes.  It may fail, send any statement but one that
commits, go on after a statement failed, depend on all answers, remember things from attempt to
attempt, and rig the engine; failures may be in store from the start.  The count of commits is the
one thing that is followed through all this (`Tally`): only the commit that ends an attempt adds to
it, and an attempt in which that succeeds is the last. -/
namespace Coordinator.Plant

open Engine (ConnectionId Statement)

/-! ## Work -/

/-- A way to make an engine fail, or to stop it from failing. -/
inductive Rig
  | inject (f : Engine.Injected)
  | clearInjected
  | setAvailable (on : Bool)

namespace Rig

def apply : Rig → Engine → Engine
  | inject f => Engine.inject f
  | clearInjected => Engine.clearInjected
  | setAvailable on => Engine.setAvailable on

theorem committed_apply (r : Rig) (e : Engine) : (r.apply e).committed = e.committed := by
  cases r <;> rfl

end Rig

/-- The work of an attempt, on the connection of its transaction: each request may depend on the
answers so far, and at the end there is something to remember. -/
inductive Job (ω : Type)
  | done (memory : ω)
  | fail (f : Fault) (memory : ω)
  | submit (q : Request) (next : Except Fault (Option Sql.Rows) → Job ω)
  | rig (r : Rig) (next : Job ω)

/-- Whatever the request sends, it commits nothing. -/
def Request.NeverCommits (q : Request) : Prop :=
  ∀ sql s, Request.text q = .ok sql → Statement.parse sql = .ok s → s.commits = false

namespace Job

variable {ω : Type}

/-- Runs a job on a line to an engine. -/
def run (h : HostId) (l : Line) : Job ω → Action (ω × Plant) Unit
  | done memory => .update (Cell.first.set memory)
  | fail f memory => do
    Action.update (Cell.first.set memory)
    Action.fail f
  | submit q next => do
    let answer ← (Cell.second.run ((alone.lines l.target l.home).submit l q)).attempt
    (next answer).run h l
  | rig r next => do
    Action.update (Cell.second.modify (((hostCell h).within Host.engineCell).modify r.apply))
    next.run h l

/-- No request of the job commits anything, whatever the answers are. -/
def NeverCommits : Job ω → Prop
  | done _ | fail _ _ => True
  | submit q next => Request.NeverCommits q ∧ ∀ answer, (next answer).NeverCommits
  | rig _ next => next.NeverCommits

/-- The work of a transaction whose attempts have these jobs, by what is remembered so far. -/
def work (h : HostId) (job : UInt32 → ω → Job ω) : Retry.Work (ω × Plant) Line :=
  fun l number => do
    let memory ← Action.read Prod.fst
    (job number memory).run h l

end Job

/-! ## The count of commits -/

/-- The commits that an engine has counted. -/
def commitsOf (h : HostId) (p : Plant) : Nat := ((hostCell h).get p).engine.committed

/-- The plant has an engine that has counted `count` commits, and a pool of connections to it. -/
def Tally (h : HostId) (k count : Nat) (p : Plant) : Prop :=
  ∃ R host pool, Holds h k R host pool p ∧ (∀ l ∈ pool.idle, l = lineTo h k l.number) ∧
    host.engine.committed = count

variable {h : HostId} {k count : Nat} {n : ConnectionId} {sql : Bytes} {p : Plant} {ω : Type}

namespace Tally

theorem commitsOf_eq (hp : Tally h k count p) : commitsOf h p = count := by
  obtain ⟨R, host, pool, hh, -, rfl⟩ := hp
  rw [commitsOf, hh.get_host]

theorem log (hp : Tally h k count p) (r : Journal.Record) :
    Tally h k count ((counter h k).log r p) := by
  obtain ⟨R, host, pool, hh, hidle, hcount⟩ := hp
  exact ⟨R, host, pool, hh.log r, hidle, hcount⟩

theorem poison (hp : Tally h k count p) :
    Tally h k count ((counter h k).poison (lineTo h k n) p) := by
  obtain ⟨R, host, pool, hh, hidle, hcount⟩ := hp
  exact ⟨R, _, pool, hh.poison n, hidle, hcount⟩

/-- A connection that goes back, or is closed, leaves the count alone. -/
theorem release (hp : Tally h k count p) :
    Tally h k count ((counter h k).release (lineTo h k n) p) := by
  obtain ⟨R, host, pool, hh, hidle, hcount⟩ := hp
  have hback := hh.release n
  split at hback
  · refine ⟨R, _, _, hback, fun l hl => ?_, hcount⟩
    rcases List.mem_cons.mp hl with rfl | hl
    · rfl
    · exact hidle l hl
  · exact ⟨R, _, _, hback, hidle, hcount⟩

theorem rig (hp : Tally h k count p) (r : Rig) :
    Tally h k count (((hostCell h).within Host.engineCell).modify r.apply p) := by
  obtain ⟨R, host, pool, hh, hidle, hcount⟩ := hp
  refine ⟨R, _, pool, hh.modify_host fun host => { host with engine := r.apply host.engine }, hidle,
    ?_⟩
  exact (r.committed_apply host.engine).trans hcount

end Tally

theorem committed_foldl_close (host : Host) (bad : List Line) :
    (bad.foldl (fun host l => host.close l.number) host).engine.committed =
      host.engine.committed := by
  induction bad generalizing host with
  | nil => rfl
  | cons l bad ih => exact ih (host.close l.number)

/-- Lending closes and opens connections, and counts nothing. -/
theorem acquire_tally : (counter h k).acquire.Meets (Tally h k count)
    (fun l p => l = lineTo h k l.number ∧ Tally h k count p) fun _ => Tally h k count := by
  rintro p ⟨R, host, pool, hh, hidle, hcount⟩
  rcases hco : pool.checkOut (fun l =>
    (alone.lines (.engine h) (some (poolOf h k))).isHealthy l p) with ⟨outcome, bad, pool'⟩
  have hchecked := Pool.checkOut_checkedOut (fun l =>
    (alone.lines (.engine h) (some (poolOf h k))).isHealthy l p) pool
  rw [hco] at hchecked
  rw [acquire_run hh hco]
  have hbad : ∀ l ∈ bad, l = lineTo h k l.number := fun l hl =>
    hidle l (by cases hchecked with
      | reuse hsplit => exact hsplit ▸ List.mem_append_left _ hl
      | reserved | exhausted => exact hl)
  have hh' := (hh.set_pool pool').discard pool'.discardRecord hbad
  have hcount' := (committed_foldl_close host bad).trans hcount
  have hnone : ∀ l ∈ ([] : List Line), l = lineTo h k l.number := fun l hl => by cases hl
  -- From here on it does not matter which connections were closed.
  generalize bad.foldl (fun host l => host.close l.number) host = host' at hh' hcount'
  generalize bad.foldl (fun p l => (alone.lines (.engine h) (some (poolOf h k))).close l
    (alone.log pool'.discardRecord p)) ((poolCell (poolOf h k)).set pool' p) = p' at hh' ⊢
  cases hchecked with
  | @reuse _ rest l hsplit =>
    refine ⟨hidle l (hsplit ▸ List.mem_append_right _ List.mem_cons_self), R, host', _, hh',
      fun l' hl' => ?_, hcount'⟩
    exact hidle l' (hsplit ▸ List.mem_append_right _ (List.mem_cons_of_mem _ hl'))
  | reserved =>
    rw [settle, Action.run_onFailure, connect_run hh']
    by_cases ha : host'.engine.available = true
    · rw [if_pos ha]
      exact ⟨rfl, R, connected host', _, hh'.set_host _, hnone, hcount'⟩
    · rw [if_neg ha]
      exact ⟨R, host', _, (hh'.set_host host').modify_pool Pool.openFailed,
        hnone, hcount'⟩
  | exhausted => exact ⟨R, host', _, hh'.log _, hnone, hcount'⟩

/-! ## Statements -/

/-- The engine counts a statement that succeeds, if it commits. -/
theorem send_tally : (sendOn h n sql).Meets (Tally h k count)
    (fun _ p => ∃ s, Statement.parse sql = .ok s ∧
      Tally h k (count + if s.commits then 1 else 0) p)
    fun _ => Tally h k count := by
  rintro p ⟨R, host, pool, hh, hidle, rfl⟩
  cases hn : host.isBroken n with
  | true =>
    rw [send_run_of_broken hh hn]
    exact ⟨R, host, pool, hh, hidle, rfl⟩
  | false =>
    rw [send_run hh hn]
    rcases hr : (Engine.run n sql).run host.engine with ⟨f | rows, e⟩
    · obtain ⟨statements, injected, rfl⟩ := Engine.run_error hr
      refine ⟨R, _, pool, (hh.set_host _).modify_host _, hidle, ?_⟩
      unfold Host.noteFailure
      split <;> rfl
    · obtain ⟨s, hs, hcount⟩ := Engine.committed_of_run_ok hr
      exact ⟨s, hs, R, _, pool, hh.set_host _, hidle, hcount⟩

theorem silent_tally (hsql : ∀ s, Statement.parse sql = .ok s → s.commits = false) :
    (sendOn h n sql).Meets (Tally h k count) (fun _ => Tally h k count)
      fun _ => Tally h k count := by
  refine send_tally.mono (fun _ hp => hp) (fun _ p hp => ?_) fun _ _ hp => hp
  obtain ⟨s, hs, hp⟩ := hp
  rwa [hsql s hs] at hp

theorem Tally.submit {q : Request} (hq : Request.NeverCommits q) :
    ((alone.lines (.engine h) (some (poolOf h k))).submit (lineTo h k n) q).Meets
      (Tally h k count) (fun _ => Tally h k count) fun _ => Tally h k count :=
  submit_of_send fun text ht => silent_tally fun s => hq text s ht

/-! ## Transactions -/

section Transaction
variable {m : Retry.Manager} {priority : Option Retry.Priority} {sleep : Int64 → ω → ω}
  {job : UInt32 → ω → Job ω} {number : UInt32}

/-- What components see of the pool, beside what callers remember. -/
abbrev desk (h : HostId) (k : Nat) (ω : Type) : Gateway (ω × Plant) Line :=
  (counter h k).within .second

/-- A plant with a count of commits, beside what callers remember. -/
abbrev Counts (h : HostId) (k count : Nat) (s : ω × Plant) : Prop := Tally h k count s.2

theorem Job.run_counts {j : Job ω} (hj : j.NeverCommits) : (j.run h (lineTo h k n)).Meets
    (Counts h k count) (fun _ => Counts h k count) fun _ => Counts h k count := by
  induction j with
  | done memory => exact .update fun _ hs => hs
  | fail f memory =>
    have hset : (Action.update (Cell.first.set memory) : Action (ω × Plant) Unit).Meets
        (Counts h k count) (fun _ => Counts h k count) fun _ => Counts h k count :=
      .update fun _ hs => hs
    exact hset.bind fun _ => .fail fun _ hs => hs
  | submit q next ih =>
    have hattempt : (Cell.second.run ((alone.lines (.engine h) (some (poolOf h k))).submit
        (lineTo h k n) q) : Action (ω × Plant) _).attempt.Meets (Counts h k count)
        (fun _ => Counts h k count) fun _ => Counts h k count :=
      (Tally.submit hj.1).second.attempt (fun _ _ hs => hs) fun _ _ hs => hs
    exact hattempt.bind fun answer => ih answer (hj.2 answer)
  | rig r next ih =>
    have hrig : (Action.update (Cell.second.modify
        (((hostCell h).within Host.engineCell).modify r.apply)) : Action (ω × Plant) Unit).Meets
        (Counts h k count) (fun _ => Counts h k count) fun _ => Counts h k count :=
      .update fun _ hs => hs.rig r
    exact hrig.bind fun _ => ih hj

/-- A statement that commits nothing, sent on a connection. -/
theorem execute_counts (hsql : ∀ s, Statement.parse sql = .ok s → s.commits = false) :
    ((desk h k ω).execute (lineTo h k n) sql).Meets (Counts h k count)
      (fun _ => Counts h k count) fun _ => Counts h k count :=
  Action.Meets.second ((silent_tally hsql).bind fun _ => .pure fun _ hp => hp)

/-- The commit at the end of an attempt is the one that counts. -/
theorem commit_counts (d : Retry.Dialect) :
    ((desk h k ω).execute (lineTo h k n) d.commit).Meets (Counts h k count)
      (fun _ => Counts h k (count + 1)) fun _ => Counts h k count := by
  have hparse : Statement.parse d.commit = .ok .commit := rfl
  have hsend : (sendOn h n d.commit).Meets (Tally h k count) (fun _ => Tally h k (count + 1))
      fun _ => Tally h k count := by
    refine send_tally.mono (fun _ hp => hp) (fun _ p hp => ?_) fun _ _ hp => hp
    obtain ⟨s, hs, hp⟩ := hp
    rw [hparse] at hs
    cases hs
    exact hp
  exact Action.Meets.second (hsend.bind fun _ => .pure fun _ hp => hp)

theorem commits_of_frames {d : Retry.Dialect} {s : Statement} (hf : Retry.Frames d sql)
    (hs : Statement.parse sql = .ok s) : s.commits = false := by
  cases hf with
  | start => cases d <;> cases hs <;> rfl
  | @priority q _ hsql =>
    cases d with
    | sqlite => cases hsql
    | cockroach =>
      cases hsql
      cases q <;> cases hs <;> rfl
  | rollback => cases hs; rfl

/-- Of all that an attempt sends itself, only its commit is counted. -/
theorem framed_counts (d : Retry.Dialect) : Retry.Framed (desk h k ω) d (lineTo h k n)
    (Counts h k count) (Counts h k (count + 1)) where
  frame hf := execute_counts fun _ => commits_of_frames hf
  commit := commit_counts d
  poison _ hs := hs.poison
  log r _ hs := hs.log r

theorem work_counts (hjob : ∀ number memory, (job number memory).NeverCommits) :
    (Job.work h job (lineTo h k n) number).Meets (Counts h k count)
      (fun _ => Counts h k count) fun _ => Counts h k count :=
  .read_bind fun memory => (Job.run_counts (hjob number memory)).mono (fun _ hs => hs.1)
    (fun _ _ hs => hs) fun _ _ hs => hs

/-- What is done on a connection of its own decides what is counted. -/
theorem withConnection_counts {f : Line → Action (ω × Plant) Unit}
    (hf : ∀ n, (f (lineTo h k n)).Meets (Counts h k count) (fun _ => Counts h k (count + 1))
      fun _ => Counts h k count) :
    ((desk h k ω).withConnection f).Meets (Counts h k count) (fun _ => Counts h k (count + 1))
      fun _ => Counts h k count := by
  have hlent (n : ConnectionId) : ((f (lineTo h k n)).ensuring
      ((desk h k ω).release (lineTo h k n))).Meets (Counts h k count)
      (fun _ => Counts h k (count + 1)) fun _ => Counts h k count :=
    (hf n).ensuring (fun _ _ hs => hs.release) fun _ _ hs => hs.release
  refine acquire_tally.second.bind fun l => ?_
  rintro s ⟨hl, hs⟩
  rw [hl]
  exact hlent l.number s hs

/-- An attempt that succeeds has committed once, and one that fails has not. -/
theorem try_counts (hjob : ∀ number memory, (job number memory).NeverCommits) :
    (m.try_ (desk h k ω) priority (Job.work h job) number).Meets (Counts h k count)
      (fun _ => Counts h k (count + 1)) fun _ => Counts h k count :=
  withConnection_counts fun _ =>
    Retry.Manager.onConnection_meets (framed_counts m.dialect) (work_counts hjob)

/-- A transaction on a plant commits once and says so, or fails and commits nothing. -/
inductive CommitsOnce (h : HostId) (p : Plant) : Except Fault Bool × ω × Plant → Prop
  | committed {s : ω × Plant} (hs : commitsOf h s.2 = commitsOf h p + 1) :
      CommitsOnce h p (.ok true, s)
  | failed {f : Fault} {s : ω × Plant} (hs : commitsOf h s.2 = commitsOf h p) :
      CommitsOnce h p (.error f, s)

/-- **A retried transaction commits once or not at all.**  Whatever its work does, as long as it
sends no commit of its own, and whatever fails. -/
theorem commits_of_execute {R : Table RegistryRef (Registry Line)} {host : Host}
    {pool : Pool Line} (m : Retry.Manager) (priority : Option Retry.Priority)
    (sleep : Int64 → ω → ω) (job : UInt32 → ω → Job ω) (memory : ω) (p : Plant)
    (hm : m.policy.maxRetries.toNat < 2 ^ 32 - 1)
    (hjob : ∀ number memory, (job number memory).NeverCommits)
    (hp : Holds h k R host pool p) (hidle : ∀ l ∈ pool.idle, l = lineTo h k l.number) :
    CommitsOnce h p ((m.execute (desk h k ω)
      (fun delay => .update (Cell.first.modify (sleep delay))) priority (Job.work h job)).run
        (memory, p)) := by
  have htally : Tally h k (commitsOf h p) p :=
    ⟨R, host, pool, hp, hidle, by rw [commitsOf, hp.get_host]⟩
  have hmeets : (m.execute (desk h k ω) (fun delay => .update (Cell.first.modify (sleep delay)))
      priority (Job.work h job)).Meets (Counts h k (commitsOf h p))
      (fun done s => done = true ∧ Counts h k (commitsOf h p + 1) s)
      fun _ => Counts h k (commitsOf h p) :=
    Retry.Manager.execute_meets hm (fun number => try_counts hjob) (fun r s hs => hs.log r)
      (fun r s hs => hs.log r) fun delay => .update fun _ hs => hs
  rcases hrun : (m.execute (desk h k ω) _ priority (Job.work h job)).run (memory, p)
    with ⟨f | done, s⟩
  · exact .failed (hmeets.bad_of_run htally hrun).commitsOf_eq
  · obtain ⟨rfl, hs⟩ := hmeets.ok_of_run htally hrun
    exact .committed hs.commitsOf_eq

/-- A plant whose engine fails the first rollback, with a pool of one connection. -/
def stocked : Plant where
  hosts := (∅ : Table HostId Host).insert 0
    { engine := { injected := [⟨ascii "ROLLBACK", .internal, ascii "no rollback", true⟩] } }
  pools := (∅ : Table PoolRef (Pool Line)).insert (poolOf 0 1) (.new (ascii "orders") 1 0)
  next := 2

/-- Work that conflicts in the first attempt, and remembers how often it ran. -/
def contestedJob (number : UInt32) (runs : Nat) : Job Nat :=
  .submit (.plain (ascii "INSERT INTO orders VALUES (1)")) fun _ =>
    if number = 1 then .fail (.of .conflict [ascii "restart transaction"]) (runs + 1)
    else .done (runs + 1)

/-- The transaction with this work. -/
def contestedRun : Except Fault Bool × Nat × Plant :=
  (Retry.Manager.execute ⟨ascii "orders", .cockroach, ⟨2, 100, 150⟩⟩ (desk 0 1 Nat)
    (fun delay => .update (Cell.first.modify ((fun _ runs => runs) delay))) (some .high)
    (Job.work 0 contestedJob)).run (0, stocked)

/-- The first attempt conflicts and its rollback fails, so its connection is given up; the second
attempt commits, on a new connection. -/
theorem commits_of_contested : contestedRun.1 = .ok true ∧ contestedRun.2.1 = 2 ∧
    commitsOf 0 contestedRun.2.2 = 1 := by
  have hjob (number : UInt32) (runs : Nat) : (contestedJob number runs).NeverCommits := by
    refine ⟨fun sql s hsql hs => ?_, fun answer => ?_⟩
    · cases hsql
      cases hs
      rfl
    · split <;> trivial
  have hcommits : CommitsOnce 0 stocked contestedRun :=
    commits_of_execute (R := ∅) ⟨ascii "orders", .cockroach, ⟨2, 100, 150⟩⟩ (some .high)
      (fun _ runs => runs) contestedJob 0 stocked (by decide) hjob ⟨rfl, rfl, rfl, nofun⟩ nofun
  have hreturns : contestedRun.1 = .ok true := by decide +kernel
  have hruns : contestedRun.2.1 = 2 := by decide +kernel
  generalize contestedRun = run at hcommits hreturns hruns
  cases hcommits with
  | committed hs => exact ⟨rfl, hruns, hs⟩
  | failed hs => cases hreturns

end Transaction

end Coordinator.Plant

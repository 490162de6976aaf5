import Coordinator.Proofs.Retry.Backoff
import Coordinator.Proofs.Retry.Rounds

/-! # The attempts of a transaction

How a transaction goes is decided by how its attempts end.  `outcome` is how attempt `i` ends, if
all before it conflict: the backend and the work are arbitrary, so this can be any sequence
(`outcome_scripted`).  Attempts are made up to the first that does not conflict, or until the policy
allows no more (`Lasts`).

What an outsider sees of it is on record (`Event`): each attempt asks for a connection first, tells
the work its number if it gets that far, and is followed by a pause unless it is the last.
`attempts_of_execute` is **the law of this record**, and of what the transaction comes to. -/
namespace Coordinator.Retry

variable {σ κ α β : Type}

/-! ## The record -/

/-- What an outsider sees of a transaction. -/
inductive Event
  /-- A connection was asked for, which is how each attempt begins. -/
  | attempt
  /-- The work was run, and told this number. -/
  | work (number : Nat)
  /-- The transaction paused, in milliseconds. -/
  | pause (delay : Int)
deriving DecidableEq, Repr

/-- How long the pause was, if this is one. -/
def Event.delay? : Event → Option Int
  | .pause delay => some delay
  | _ => none

/-- Surroundings with a record beside them. -/
abbrev Recorded (σ : Type) := σ × List Event

/-- Adds to the record. -/
def note (e : Event) : Action (Recorded σ) Unit := .update fun (s, log) => (s, log ++ [e])

/-- The gateway with each connection asked for on record. -/
def recordedGateway (g : Gateway σ κ) : Gateway (Recorded σ) κ :=
  { g.within .first with acquire := do note .attempt; (g.within .first).acquire }

/-- The work with each run on record. -/
def recordedWork (work : Work σ κ) : Work (Recorded σ) κ := fun c number => do
  note (.work number.toNat)
  Cell.first.run (work c number)

/-- A pause, on record. -/
def recordedPause (pause : Int64 → σ → σ) : Int64 → Action (Recorded σ) Unit := fun delay => do
  note (.pause delay.toInt)
  .update (Cell.first.modify (pause delay))

/-! ## How attempts end -/

section Outcome
variable (m : Manager) (g : Gateway σ κ) (pause : Int64 → σ → σ) (priority : Option Priority)
  (work : Work σ κ) (s : σ)

/-- What a conflict leads to before the next attempt. -/
def backOff (number : UInt32) : Except Fault Unit × σ → σ
  | (.ok (), t) => t
  | (.error f, t) => pause (m.policy.backoff number)
      (g.log (m.backingOffRecord number (m.policy.backoff number) f) t)

/-- The surroundings after `i` attempts, if they conflict. -/
def scene : Nat → σ
  | 0 => s
  | i + 1 => backOff m g pause (.ofNat (i + 1))
      ((m.try_ g priority work (.ofNat (i + 1))).run (scene i))

/-- How attempt `i` ends, if all before it conflict.  The first one is attempt 1. -/
def outcome (i : Nat) : Except Fault Unit :=
  ((m.try_ g priority work (.ofNat i)).run (scene m g pause priority work s (i - 1))).1

end Outcome

/-- An attempt lost against a concurrent transaction. -/
def Conflicts (o : Except Fault Unit) : Prop := ∃ f, o = .error f ∧ f.kind = .conflict

/-- A transaction that may be run again `retries` times takes `n` attempts: all but the last
conflict, and the last does not, unless it is the last one allowed. -/
structure Lasts (o : Nat → Except Fault Unit) (retries n : Nat) : Prop where
  pos : 0 < n
  le : n ≤ retries + 1
  before : ∀ i, 0 < i → i < n → Conflicts (o i)
  last : n ≤ retries → ¬ Conflicts (o n)

/-- What a transaction comes to whose last attempt is number `n` and ends as `o`. -/
inductive Comes (retries : UInt32) : Except Fault Unit → Except Fault Bool → Prop
  | committed : Comes retries (.ok ()) (.ok true)
  /-- A fault other than a conflict is the caller's. -/
  | failed {f : Fault} (hf : f.kind ≠ .conflict) : Comes retries (.error f) (.error f)
  | exhausted {f e : Fault} (hf : f.kind = .conflict) (he : e.kind = .exhausted (retries + 1)) :
      Comes retries (.error f) (.error e)

/-- What attempt `i` of `n` leaves on record. -/
def entries (p : Policy) (reached : Nat → Bool) (n i : Nat) : List Event :=
  .attempt :: ((if reached i then [.work i] else []) ++ if i < n then [.pause (p.delay i)] else [])

/-- What `n` attempts leave on record. -/
def record (p : Policy) (reached : Nat → Bool) (n : Nat) : List Event :=
  (List.range' 1 n).flatMap (entries p reached n)

theorem record_count_attempt {p : Policy} {reached : Nat → Bool} {n : Nat} :
    (record p reached n).count .attempt = n := by
  have hone (i : Nat) : (entries p reached n i).count .attempt = 1 := by
    unfold entries
    split <;> split <;> rfl
  have hsum : ∀ is : List Nat, (is.flatMap (entries p reached n)).count .attempt = is.length := by
    intro is
    induction is with
    | nil => rfl
    | cons i is ih =>
      rw [List.flatMap_cons, List.count_append, hone, ih, List.length_cons, add_comm]
  rw [record, hsum, List.length_range']

/-- There is a pause between any two attempts, and none after the last. -/
theorem record_pauses {p : Policy} {reached : Nat → Bool} {n : Nat} :
    (record p reached n).filterMap Event.delay? = (List.range' 1 (n - 1)).map p.delay := by
  have hone (i : Nat) : (entries p reached n i).filterMap Event.delay? =
      if i < n then [p.delay i] else [] := by
    unfold entries
    split <;> split <;> rfl
  have hall : ∀ is : List Nat, (∀ i ∈ is, i < n) →
      is.flatMap (fun i => (entries p reached n i).filterMap Event.delay?) = is.map p.delay := by
    intro is his
    induction is with
    | nil => rfl
    | cons i is ih =>
      rw [List.flatMap_cons, hone, if_pos (his i List.mem_cons_self), List.map_cons,
        ih fun j hj => his j (List.mem_cons_of_mem i hj)]
      rfl
  rw [record, List.filterMap_flatMap]
  cases n with
  | zero => rfl
  | succ n =>
    rw [List.range'_1_concat, List.flatMap_append, hall]
    · rw [List.flatMap_singleton, hone, if_neg (by omega), List.append_nil, Nat.add_sub_cancel]
    · intro i hi
      have := List.mem_range'_1.mp hi
      omega

theorem exists_lasts (o : Nat → Except Fault Unit) (retries : Nat) : ∃ n, Lasts o retries n := by
  induction retries with
  | zero => exact ⟨1, Nat.one_pos, le_rfl, fun i hi hn => by omega, fun h => by omega⟩
  | succ retries ih =>
    obtain ⟨n, hpos, hle, hbefore, hlast⟩ := ih
    by_cases hc : Conflicts (o n)
    · -- One attempt more is allowed, and needed.
      refine ⟨n + 1, Nat.succ_pos n, by omega, fun i hi hn => ?_, fun h => ?_⟩
      · rcases Nat.lt_succ_iff_lt_or_eq.mp hn with hn | rfl
        · exact hbefore i hi hn
        · exact hc
      · exact absurd hc (hlast (by omega))
    · exact ⟨n, hpos, by omega, hbefore, fun _ => hc⟩

theorem Lasts.unique {o : Nat → Except Fault Unit} {retries n n' : Nat} (h : Lasts o retries n)
    (h' : Lasts o retries n') : n = n' := by
  rcases Nat.lt_trichotomy n n' with hlt | heq | hlt
  · exact absurd (h'.before n h.pos hlt) (h.last (by have := h'.le; omega))
  · exact heq
  · exact absurd (h.before n' h'.pos hlt) (h'.last (by have := h.le; omega))

/-! ## Recording disturbs nothing -/

/-- Beside the record, `y` does what `x` does; what it adds to the record is allowed. -/
def Records (x : Action σ α) (y : Action (Recorded σ) α) (allowed : List Event → Prop) : Prop :=
  ∀ s, ∃ es, allowed es ∧ ∀ log, y.run (s, log) = ((x.run s).1, (x.run s).2, log ++ es)

namespace Records

variable {x : Action σ α} {y : Action (Recorded σ) α} {f : α → Action σ β}
  {h : α → Action (Recorded σ) β} {A B C : List Event → Prop}

/-- What knows nothing of the record adds nothing to it. -/
theorem onCell (x : Action σ α) : Records x (Cell.first.run x) (· = []) := by
  intro s
  refine ⟨[], rfl, fun log => ?_⟩
  rw [List.append_nil]
  rfl

/-- In sequence, both parts add to the record, unless the first one fails. -/
theorem bind (hx : Records x y A) (hf : ∀ a, Records (f a) (h a) B) (hleft : ∀ es, A es → C es)
    (hboth : ∀ es es', A es → B es' → C (es ++ es')) : Records (x >>= f) (y >>= h) C := by
  intro s
  obtain ⟨es, ha, hrun⟩ := hx s
  rcases hr : x.run s with ⟨e | a, t⟩
  · refine ⟨es, hleft es ha, fun log => ?_⟩
    rw [Action.run_bind, Action.run_bind, hrun, hr]
  · obtain ⟨es', hb, hrun'⟩ := hf a t
    refine ⟨es ++ es', hboth es es' ha hb, fun log => ?_⟩
    rw [Action.run_bind, Action.run_bind, hrun, hr]
    dsimp only
    rw [hrun', List.append_assoc]

theorem onFailure (hx : Records x y A) {cleanUp : Fault → σ → σ}
    {cleanUp' : Fault → Recorded σ → Recorded σ}
    (hc : ∀ e s log, cleanUp' e (s, log) = (cleanUp e s, log)) :
    Records (x.onFailure cleanUp) (y.onFailure cleanUp') A := by
  intro s
  obtain ⟨es, ha, hrun⟩ := hx s
  refine ⟨es, ha, fun log => ?_⟩
  rw [Action.run_onFailure, Action.run_onFailure, hrun]
  rcases x.run s with ⟨e | a, t⟩
  · exact congrArg (Prod.mk _) (hc e t _)
  · rfl

theorem ensuring (hx : Records x y A) {cleanUp : σ → σ} {cleanUp' : Recorded σ → Recorded σ}
    (hc : ∀ s log, cleanUp' (s, log) = (cleanUp s, log)) :
    Records (x.ensuring cleanUp) (y.ensuring cleanUp') A := by
  intro s
  obtain ⟨es, ha, hrun⟩ := hx s
  refine ⟨es, ha, fun log => ?_⟩
  show ((y.run (s, log)).1, cleanUp' (y.run (s, log)).2) = _
  rw [hrun, hc]
  rfl

end Records

section Attempt
variable {m : Manager} {g : Gateway σ κ} {pause : Int64 → σ → σ} {priority : Option Priority}
  {work : Work σ κ} {number : UInt32}

/-- The work was run, or not reached. -/
def MayWork (number : UInt32) (es : List Event) : Prop := es = [] ∨ es = [.work number.toNat]

theorem work_records (c : κ) :
    Records (work c number) (recordedWork work c number) (· = [.work number.toNat]) := by
  intro s
  exact ⟨_, rfl, fun log => rfl⟩

theorem body_records (c : κ) : Records (m.body g priority work number c)
    (m.body (recordedGateway g) priority (recordedWork work) number c) (MayWork number) := by
  have hexecute (sql : Bytes) :
      Records (g.execute c sql) ((recordedGateway g).execute c sql) (· = []) := .onCell _
  have hwork : Records (do work c number; g.execute c m.dialect.commit)
      (do recordedWork work c number; (recordedGateway g).execute c m.dialect.commit)
      (MayWork number) := by
    refine (work_records c).bind (fun _ => hexecute _) (fun es he => .inr he) ?_
    rintro es es' rfl rfl
    exact .inr (List.append_nil _)
  cases priority with
  | none => exact hwork
  | some q =>
    have hpriority : Records (.ofExcept (m.dialect.priority q) : Action σ Bytes)
        (.ofExcept (m.dialect.priority q)) (· = []) := by
      intro s
      refine ⟨[], rfl, fun log => ?_⟩
      rw [Action.run_ofExcept, Action.run_ofExcept, List.append_nil]
    refine hpriority.bind (B := MayWork number) (fun sql => ?_) (fun es he => .inl he) ?_
    · refine (hexecute sql).bind (fun _ => hwork) (fun es he => .inl he) ?_
      rintro es es' rfl hes'
      exact hes'
    · rintro es es' rfl hes'
      exact hes'

theorem undo_recorded (c : κ) (s : σ) (log : List Event) :
    m.undo (recordedGateway g) c (s, log) = (m.undo g c s, log) := by
  have hexecute : ((recordedGateway g).execute c m.dialect.rollback).run (s, log) =
      (((g.execute c m.dialect.rollback).run s).1,
        ((g.execute c m.dialect.rollback).run s).2, log) := rfl
  unfold Manager.undo
  rw [hexecute]
  rcases (g.execute c m.dialect.rollback).run s with ⟨f | u, t⟩ <;> rfl

theorem acquire_records : Records g.acquire (recordedGateway g).acquire (· = [.attempt]) := by
  intro s
  exact ⟨_, rfl, fun log => rfl⟩

/-- An attempt is on record, and its work if it was reached. -/
theorem try_records : Records (m.try_ g priority work number)
    (m.try_ (recordedGateway g) priority (recordedWork work) number)
    fun es => ∃ es', MayWork number es' ∧ es = .attempt :: es' := by
  refine acquire_records.bind (B := MayWork number) (fun c => ?_) ?_ ?_
  · refine Records.ensuring ?_ fun s log => rfl
    refine (Records.onCell _).bind (B := MayWork number) (fun _ => ?_) (fun es he => .inl he) ?_
    · exact (body_records c).onFailure fun _ s log => undo_recorded c s log
    · rintro es es' rfl hes'
      exact hes'
  · rintro es rfl
    exact ⟨[], .inl rfl, rfl⟩
  · rintro es es' rfl hes'
    exact ⟨es', hes', rfl⟩

/-! ## The course of a transaction -/

variable {s : σ} {n i bound : Nat} {reached : Nat → Bool}

/-- The first `n` attempts, made one after the other, reach their work as `reached` says. -/
def Reaches (m : Manager) (g : Gateway σ κ) (pause : Int64 → σ → σ) (priority : Option Priority)
    (work : Work σ κ) (s : σ) (reached : Nat → Bool) : Prop :=
  ∀ i log, (m.try_ (recordedGateway g) priority (recordedWork work) (.ofNat (i + 1))).run
      (scene m g pause priority work s i, log) =
    (outcome m g pause priority work s (i + 1),
      ((m.try_ g priority work (.ofNat (i + 1))).run (scene m g pause priority work s i)).2,
      log ++ .attempt :: if reached (i + 1) then [.work (UInt32.ofNat (i + 1)).toNat] else [])

theorem exists_reaches (m : Manager) (g : Gateway σ κ) (pause : Int64 → σ → σ)
    (priority : Option Priority) (work : Work σ κ) (s : σ) :
    ∃ reached, Reaches m g pause priority work s reached := by
  -- Whether an attempt reaches its work does not depend on what is on record before it.
  have hone (i : Nat) : ∃ b : Bool, ∀ log,
      (m.try_ (recordedGateway g) priority (recordedWork work) (.ofNat i)).run
          (scene m g pause priority work s (i - 1), log) =
        (outcome m g pause priority work s i,
          ((m.try_ g priority work (.ofNat i)).run (scene m g pause priority work s (i - 1))).2,
          log ++ .attempt :: if b then [.work (UInt32.ofNat i).toNat] else []) := by
    have htry : Records (m.try_ g priority work (.ofNat i)) _ _ := try_records
    obtain ⟨_, ⟨es, hes, rfl⟩, hrun⟩ := htry (scene m g pause priority work s (i - 1))
    rcases hes with rfl | rfl
    · exact ⟨false, hrun⟩
    · exact ⟨true, hrun⟩
  choose reached hreached using hone
  exact ⟨reached, fun i log => hreached (i + 1) log⟩

/-- Attempts within the policy are numbered as they are counted. -/
theorem toNat_number (hm : m.policy.maxRetries.toNat < 2 ^ 32 - 1)
    (hi : i ≤ m.policy.maxRetries.toNat + 1) : (UInt32.ofNat i).toNat = i :=
  UInt32.toNat_ofNat_of_lt' (by show i < 2 ^ 32; omega)

/-- An attempt that conflicts and is not the last one allowed is followed by a pause and the next
one. -/
theorem round_conflict (hr : Reaches m g pause priority work s reached)
    (hle : ¬ m.policy.maxRetries < .ofNat (i + 1))
    (hc : Conflicts (outcome m g pause priority work s (i + 1))) (log : List Event) :
    (m.round (recordedGateway g) (recordedPause pause) priority (recordedWork work)
        (.ofNat (i + 1))).run (scene m g pause priority work s i, log) =
      (.ok (some (.ofNat (i + 2))), scene m g pause priority work s (i + 1),
        log ++ .attempt :: ((if reached (i + 1) then [.work (UInt32.ofNat (i + 1)).toNat] else []) ++
          [.pause (m.policy.backoff (.ofNat (i + 1))).toInt])) := by
  obtain ⟨f, ho, hf⟩ := hc
  have htry : (m.try_ g priority work (.ofNat (i + 1))).run (scene m g pause priority work s i) =
      (.error f, ((m.try_ g priority work (.ofNat (i + 1))).run
        (scene m g pause priority work s i)).2) := Prod.ext ho rfl
  rw [Manager.round_run, hr i log, ho]
  simp only [hf, ne_eq, not_true_eq_false, if_false, if_neg hle]
  have hnext : UInt32.ofNat (i + 1) + 1 = .ofNat (i + 2) := (UInt32.ofNat_add (i + 1) 1).symm
  have hscene : scene m g pause priority work s (i + 1) = pause (m.policy.backoff (.ofNat (i + 1)))
      (g.log (m.backingOffRecord (.ofNat (i + 1)) (m.policy.backoff (.ofNat (i + 1))) f)
        ((m.try_ g priority work (.ofNat (i + 1))).run (scene m g pause priority work s i)).2) := by
    rw [scene, htry]
    rfl
  rw [hnext, hscene, ← List.cons_append, ← List.append_assoc]
  rfl

/-- Within the policy, such an attempt leaves on record what it should. -/
theorem round_again (hm : m.policy.maxRetries.toNat < 2 ^ 32 - 1)
    (hdelay : (m.policy.backoff (.ofNat (i + 1))).toInt = m.policy.delay (i + 1))
    (hr : Reaches m g pause priority work s reached) (hi : i + 1 ≤ m.policy.maxRetries.toNat)
    (hn : i + 1 < n) (hc : Conflicts (outcome m g pause priority work s (i + 1)))
    (log : List Event) :
    (m.round (recordedGateway g) (recordedPause pause) priority (recordedWork work)
        (.ofNat (i + 1))).run (scene m g pause priority work s i, log) =
      (.ok (some (.ofNat (i + 2))), scene m g pause priority work s (i + 1),
        log ++ entries m.policy reached n (i + 1)) := by
  have hnumber := toNat_number (i := i + 1) hm (by omega)
  have hle : ¬ m.policy.maxRetries < .ofNat (i + 1) := by
    rw [UInt32.lt_iff_toNat_lt, hnumber]
    omega
  rw [round_conflict hr hle hc log, entries, if_pos hn, ← hdelay, hnumber]

/-- The last attempt decides what the transaction comes to. -/
theorem round_last (hm : m.policy.maxRetries.toNat < 2 ^ 32 - 1)
    (hr : Reaches m g pause priority work s reached)
    (hn : Lasts (outcome m g pause priority work s) m.policy.maxRetries.toNat (i + 1))
    (log : List Event) :
    ∃ answer t, (m.rounds (recordedGateway g) (recordedPause pause) priority (recordedWork work)
        (bound + 1) (.ofNat (i + 1))).run (scene m g pause priority work s i, log) =
      (answer, t, log ++ entries m.policy reached (i + 1) (i + 1)) ∧
      Comes m.policy.maxRetries (outcome m g pause priority work s (i + 1)) answer := by
  have hnumber := toNat_number (i := i + 1) hm hn.le
  have hentries : entries m.policy reached (i + 1) (i + 1) =
      .attempt :: if reached (i + 1) then [.work (UInt32.ofNat (i + 1)).toNat] else [] := by
    rw [entries, if_neg (Nat.lt_irrefl _), List.append_nil, hnumber]
  rw [Manager.rounds_succ, Manager.round_run, hr i log, ← hentries]
  cases ho : outcome m g pause priority work s (i + 1) with
  | ok u =>
    dsimp only
    split
    · exact ⟨_, _, rfl, .committed⟩
    · exact ⟨_, _, rfl, .committed⟩
  | error f =>
    by_cases hf : f.kind = .conflict
    · -- A conflict that ends the transaction is one that the policy allows no retry after.
      have hmax : m.policy.maxRetries < .ofNat (i + 1) := by
        rw [UInt32.lt_iff_toNat_lt, hnumber]
        by_contra hle
        exact hn.last (Nat.not_lt.mp hle) ⟨f, ho, hf⟩
      have hlast : UInt32.ofNat (i + 1) = m.policy.maxRetries + 1 := by
        rw [← UInt32.toNat_inj, hnumber, Manager.toNat_next hm (UInt32.lt_irrefl _)]
        have := hn.le
        rw [UInt32.lt_iff_toNat_lt, hnumber] at hmax
        omega
      simp only [hf, ne_eq, not_true_eq_false, if_false, if_pos hmax]
      refine ⟨_, _, rfl, .exhausted hf ?_⟩
      rw [← hlast]
      rfl
    · simp only [ne_eq, hf, not_false_eq_true, if_true]
      exact ⟨_, _, rfl, .failed hf⟩

/-- The attempts that are left, from attempt `i + 1` on. -/
theorem rounds_record (hm : m.policy.maxRetries.toNat < 2 ^ 32 - 1)
    (hdelay : ∀ i, 0 < i → i ≤ m.policy.maxRetries.toNat →
      (m.policy.backoff (.ofNat i)).toInt = m.policy.delay i)
    (hr : Reaches m g pause priority work s reached)
    (hn : Lasts (outcome m g pause priority work s) m.policy.maxRetries.toNat n) (left : Nat)
    (bound : Nat) (log : List Event) (hleft : i + (left + 1) = n) (hbound : left < bound) :
    ∃ answer t, (m.rounds (recordedGateway g) (recordedPause pause) priority (recordedWork work)
        bound (.ofNat (i + 1))).run (scene m g pause priority work s i, log) =
      (answer, t,
        log ++ (List.range' (i + 1) (left + 1)).flatMap (entries m.policy reached n)) ∧
      Comes m.policy.maxRetries (outcome m g pause priority work s n) answer := by
  -- On the number of attempts after the next one; as long as there is one, the next one conflicts.
  induction left generalizing i bound log with
  | zero =>
    obtain ⟨bound, rfl⟩ := Nat.exists_eq_add_one.mpr hbound
    subst hleft
    simpa using round_last hm hr hn log
  | succ left ih =>
    obtain ⟨bound, rfl⟩ := Nat.exists_eq_add_one.mpr (Nat.zero_lt_of_lt hbound)
    have hle := hn.le
    obtain ⟨answer, t, hrun, hcomes⟩ := ih (i := i + 1) bound
      (log ++ entries m.policy reached n (i + 1)) (by omega) (by omega)
    refine ⟨answer, t, ?_, hcomes⟩
    have hagain := round_again (n := n) hm (hdelay (i + 1) (by omega) (by omega)) hr
      (by omega) (by omega) (hn.before (i + 1) (by omega) (by omega)) log
    rw [Manager.rounds_succ, hagain, List.range'_succ, List.flatMap_cons, ← List.append_assoc]
    exact hrun

end Attempt

/-! ## The law -/

/-- A gateway at which everything succeeds. -/
def calm : Gateway Unit Unit where
  release _ s := s
  poison _ s := s
  log _ s := s
  acquire := pure ()
  execute _ _ := pure ()
  query _ _ _ := pure []

theorem try_calm (m : Manager) (work : Work Unit Unit) (number : UInt32) :
    (m.try_ calm none work number).run () = (work () number).run () := by
  have hbody : (m.body calm none work number ()).run () = (work () number).run () := by
    show ((work () number >>= fun _ => pure ()).run ()) = _
    rw [bind_pure_unit]
  show (((m.body calm none work number ()).onFailure fun _ => m.undo calm ()).run ()) = _
  rw [Action.run_onFailure, hbody]
  rcases (work () number).run () with ⟨_ | _, _⟩ <;> rfl

/-- Work that ends as told. -/
def scripted (o : Nat → Except Fault Unit) : Work Unit Unit :=
  fun _ number => .ofExcept (o number.toNat)

/-- Attempts can end in any way. -/
theorem outcome_scripted (m : Manager) (o : Nat → Except Fault Unit) {i : Nat} (hi : i < 2 ^ 32) :
    outcome m calm (fun _ s => s) none (scripted o) () i = o i := by
  unfold outcome scripted
  rw [try_calm, Action.run_ofExcept, UInt32.toNat_ofNat_of_lt' hi]

/-- Attempts of which the third is the first not to conflict. -/
def contested (i : Nat) : Except Fault Unit :=
  if i < 3 then .error (.of .conflict [ascii "restart transaction"]) else .ok ()

section Law
variable (m : Manager) (g : Gateway σ κ) (pause : Int64 → σ → σ) (priority : Option Priority)
  (work : Work σ κ) (s : σ)

/-- **The record of a transaction.**  Attempts are made up to the first that does not conflict, but
no more than the policy allows.  Each begins by asking for a connection, and tells the work which
attempt this is if it reaches it.  Between two attempts there is one pause, and the pauses never get
shorter, nor longer than the cap.  The last attempt decides what the transaction comes to. -/
theorem attempts_of_execute (hm : m.policy.maxRetries.toNat < 2 ^ 32 - 1)
    (hbase : 0 ≤ m.policy.baseBackoff.toInt)
    (hle : m.policy.baseBackoff.toInt ≤ m.policy.maxBackoff.toInt)
    (hcap : m.policy.maxBackoff.toInt ≤ 2 ^ 62)
    (hp : priority.isSome = true → m.dialect.supportsPriority = true) :
    ∃ n reached answer t,
      Lasts (outcome m g pause priority work s) m.policy.maxRetries.toNat n ∧
      (m.execute (recordedGateway g) (recordedPause pause) priority (recordedWork work)).run
          (s, []) =
        (answer, t, record m.policy reached n) ∧
      (record m.policy reached n).count .attempt = n ∧
      (record m.policy reached n).filterMap Event.delay? =
        (List.range' 1 (n - 1)).map m.policy.delay ∧
      Comes m.policy.maxRetries (outcome m g pause priority work s n) answer ∧
      Monotone m.policy.delay ∧ ∀ i, m.policy.delay i ≤ m.policy.maxBackoff.toInt := by
  obtain ⟨n, hn⟩ := exists_lasts (outcome m g pause priority work s) m.policy.maxRetries.toNat
  obtain ⟨reached, hr⟩ := exists_reaches m g pause priority work s
  have hdelay (i : Nat) (hi : 0 < i) (hmax : i ≤ m.policy.maxRetries.toNat) :
      (m.policy.backoff (.ofNat i)).toInt = m.policy.delay i := by
    have hnumber := toNat_number (i := i) hm (by omega)
    have hne : UInt32.ofNat i ≠ 0 := by
      intro h
      rw [h] at hnumber
      exact absurd hnumber (by show ¬ 0 = i; omega)
    rw [Policy.backoff_eq hbase hle hcap hne, hnumber]
  have hpos := hn.pos
  have hbound : n - 1 < UInt32.size := by
    have := hn.le
    show _ < 2 ^ 32
    omega
  obtain ⟨answer, t, hrun, hcomes⟩ := rounds_record (i := 0) hm hdelay hr hn (n - 1)
    UInt32.size [] (by omega) hbound
  refine ⟨n, reached, answer, t, hn, ?_, record_count_attempt, record_pauses, hcomes,
    Policy.delay_mono hbase, Policy.delay_le m.policy⟩
  rw [Manager.execute_of_supported hp]
  rw [List.nil_append, Nat.sub_add_cancel hpos] at hrun
  exact hrun

/-- Two conflicts, and a third attempt that commits: within a budget of two retries, these are the
attempts, and with a first delay of 100 milliseconds and a cap of 150 these are the pauses. -/
theorem attempts_of_contested :
    ∃ reached t, (Manager.execute ⟨ascii "orders", .cockroach, ⟨2, 100, 150⟩⟩ (recordedGateway calm)
        (recordedPause fun _ s => s) none (recordedWork (scripted contested))).run ((), []) =
      (.ok true, t, record ⟨2, 100, 150⟩ reached 3) ∧
      (record ⟨2, 100, 150⟩ reached 3).filterMap Event.delay? = [100, 150] := by
  obtain ⟨n, reached, answer, t, hn, hrun, -, hpauses, hcomes, -⟩ := attempts_of_execute
    ⟨ascii "orders", .cockroach, ⟨2, 100, 150⟩⟩ calm (fun _ s => s) none (scripted contested) ()
    (by decide) (by decide) (by decide) (by decide) (by decide)
  obtain rfl : n = 3 := by
    refine hn.unique ⟨by decide, by decide, fun i _ hi => ?_, fun _ hc => ?_⟩
    · rw [outcome_scripted _ _ (by omega), contested, if_pos hi]
      exact ⟨_, rfl, rfl⟩
    · obtain ⟨f, hf, -⟩ := hc
      rw [outcome_scripted _ _ (by decide)] at hf
      cases hf
  rw [outcome_scripted _ _ (by decide)] at hcomes
  cases hcomes
  exact ⟨reached, t, hrun, hpauses⟩

end Law

end Coordinator.Retry

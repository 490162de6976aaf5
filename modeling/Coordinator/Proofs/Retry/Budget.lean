import Coordinator.Proofs.Retry.Attempts

/-! # The budget of a transaction that always conflicts

Work that loses against a concurrent transaction every time (`Hopeless`) uses up the budget of its
policy.  Each attempt that reaches it tells it its number, and an attempt that does not reach it
fails because the backend does not grant what comes before the work (`Grants`).

Attempts are numbered in words, and a transaction ends with the first attempt whose number is above
the budget.  So **a budget below the largest word ends** with the attempt after its last retry, and
**the largest one never does**: no number is above it, and after the last number comes 0
(`budget_of_hopeless`). -/
namespace Coordinator.Retry

variable {σ κ : Type}

/-- Work that loses against a concurrent transaction, on whatever connection and in whatever
attempt. -/
def Hopeless (work : Work σ κ) : Prop := ∀ c number s, Conflicts ((work c number).run s).1

/-- The backend grants what an attempt needs to reach its work: a connection, the start of a
transaction, and its priority. -/
structure Grants (g : Gateway σ κ) (d : Dialect) (priority : Option Priority) : Prop where
  acquire : ∀ s, ∃ c t, g.acquire.run s = (.ok c, t)
  start : ∀ c s, ((g.execute c d.start).run s).1 = .ok ()
  priority : ∀ q ∈ priority, ∃ sql, d.priority q = .ok sql ∧
    ∀ c s, ((g.execute c sql).run s).1 = .ok ()

/-- The number that the work was told, if this is a run of it. -/
def Event.number? : Event → Option Nat
  | .work number => some number
  | _ => none

/-! ## One attempt -/

section Attempt
variable {α : Type} {m : Manager} {g : Gateway σ κ} {pause : Int64 → σ → σ}
  {priority : Option Priority} {work : Work σ κ} {number : UInt32} {s : σ} {log : List Event} {c : κ}

/-- What is on record after an action, by how the action ends. -/
theorem Records.meets {x : Action σ α} {y : Action (Recorded σ) α} {A B : List Event → Prop}
    {bad : Fault → List Event → Prop} (h : Records x y A)
    (hok : ∀ s a es, (x.run s).1 = .ok a → A es → B (log ++ es))
    (hbad : ∀ s f es, (x.run s).1 = .error f → A es → bad f (log ++ es)) :
    y.Meets (·.2 = log) (fun _ t => B t.2) fun f t => bad f t.2 := by
  rintro ⟨s, log'⟩ rfl
  obtain ⟨es, ha, hrun⟩ := h s
  rw [hrun]
  cases hr : (x.run s).1 with
  | ok a => exact hok s a es hr ha
  | error f => exact hbad s f es hr ha

/-- How an attempt with hopeless work fails, and what it adds to the record: it reaches the work and
conflicts, or it is not granted what comes before the work. -/
def Fails (g : Gateway σ κ) (d : Dialect) (priority : Option Priority) (number : UInt32)
    (before : List Event) (f : Fault) (log : List Event) : Prop :=
  (log = before ++ [.work number.toNat] ∧ f.kind = .conflict) ∨
    (log = before ∧ ¬ Grants g d priority)

/-- A statement before the work leaves the record alone, and does not fail if it is granted. -/
theorem recordedExecute_meets {sql : Bytes}
    (h : Grants g m.dialect priority → ∀ s, ((g.execute c sql).run s).1 = .ok ()) :
    ((recordedGateway g).execute c sql).Meets (·.2 = log) (fun _ t => t.2 = log)
      fun f t => Fails g m.dialect priority number log f t.2 := by
  have hrecords : Records (g.execute c sql) ((recordedGateway g).execute c sql) (· = []) :=
    .onCell _
  refine hrecords.meets (B := (· = log)) ?_ ?_
  · rintro s u es - rfl
    exact List.append_nil log
  · rintro s f es hr rfl
    refine Or.inr ⟨List.append_nil log, fun hg => ?_⟩
    rw [h hg s] at hr
    cases hr

/-- Hopeless work is told its number and conflicts. -/
theorem recordedWork_meets (hwork : Hopeless work) :
    (recordedWork work c number).Meets (·.2 = log) (fun _ _ => False)
      fun f t => Fails g m.dialect priority number log f t.2 := by
  refine (work_records c).meets (B := fun _ => False) ?_ ?_
  · rintro s u es hr -
    obtain ⟨f, hf, -⟩ := hwork c number s
    rw [hf] at hr
    cases hr
  · rintro s f es hr rfl
    obtain ⟨f', hf, hkind⟩ := hwork c number s
    rw [hf] at hr
    cases hr
    exact Or.inl ⟨rfl, hkind⟩

theorem body_fails (hwork : Hopeless work) :
    (m.body (recordedGateway g) priority (recordedWork work) number c).Meets (·.2 = log)
      (fun _ _ => False) fun f t => Fails g m.dialect priority number log f t.2 := by
  have hlast : (do recordedWork work c number; (recordedGateway g).execute c m.dialect.commit :
      Action (Recorded σ) Unit).Meets (·.2 = log) (fun _ _ => False)
        fun f t => Fails g m.dialect priority number log f t.2 :=
    (recordedWork_meets hwork).bind fun _ _ hs => hs.elim
  cases priority with
  | none => exact hlast
  | some q =>
    refine Action.Meets.ofExcept_bind (fun sql hsql => ?_) fun f hf s hs => ?_
    · refine (recordedExecute_meets fun hg s => ?_).bind fun _ => hlast
      obtain ⟨sql', hsql', hexecute⟩ := hg.priority q rfl
      obtain rfl : sql' = sql := Except.ok.inj (hsql'.symm.trans hsql)
      exact hexecute c s
    · refine Or.inr ⟨hs, fun hg => ?_⟩
      obtain ⟨sql, hsql, -⟩ := hg.priority q rfl
      rw [hsql] at hf
      cases hf

/-- An attempt with hopeless work fails. -/
theorem try_fails (hwork : Hopeless work) :
    (m.try_ (recordedGateway g) priority (recordedWork work) number).Meets (·.2 = log)
      (fun _ _ => False)
      fun f t => Fails g m.dialect priority number (log ++ [.attempt]) f t.2 := by
  have hacquire : (recordedGateway g).acquire.Meets (·.2 = log)
      (fun _ t => t.2 = log ++ [.attempt])
      fun f t => Fails g m.dialect priority number (log ++ [.attempt]) f t.2 := by
    refine acquire_records.meets (B := (· = log ++ [.attempt])) ?_ ?_
    · rintro s c es - rfl
      rfl
    · rintro s f es hr rfl
      refine Or.inr ⟨rfl, fun hg => ?_⟩
      obtain ⟨c, t, hok⟩ := hg.acquire s
      rw [hok] at hr
      cases hr
  refine hacquire.bind fun c => ?_
  refine Action.Meets.ensuring ?_ (fun _ _ h => h) fun _ _ h => h
  refine (recordedExecute_meets fun hg s => hg.start c s).bind fun _ => ?_
  refine (body_fails hwork).onFailure fun f s hs => ?_
  obtain ⟨s, log'⟩ := s
  rw [undo_recorded]
  exact hs

/-- Hopeless work conflicts where it is reached, and it is reached if the backend grants it. -/
theorem outcome_of_hopeless (hwork : Hopeless work) {reached : Nat → Bool}
    (hr : Reaches m g pause priority work s reached) (i : Nat) :
    ∃ f, outcome m g pause priority work s (i + 1) = .error f ∧
      ((reached (i + 1) = true ∧ f.kind = .conflict) ∨
        (reached (i + 1) = false ∧ ¬ Grants g m.dialect priority)) := by
  have htry : (m.try_ (recordedGateway g) priority (recordedWork work) (.ofNat (i + 1))).Meets
      (·.2 = []) (fun _ _ => False)
      fun f t => Fails g m.dialect priority (.ofNat (i + 1)) [.attempt] f t.2 := try_fails hwork
  have hend := htry (scene m g pause priority work s i, []) rfl
  rw [hr i []] at hend
  cases ho : outcome m g pause priority work s (i + 1) with
  | ok u => rw [ho] at hend; exact hend.elim
  | error f =>
    rw [ho] at hend
    refine ⟨f, rfl, ?_⟩
    cases hreached : reached (i + 1) with
    | true =>
      rcases hend with ⟨-, hkind⟩ | ⟨hlog, -⟩
      · exact Or.inl ⟨rfl, hkind⟩
      · rw [hreached] at hlog
        cases hlog
    | false =>
      rcases hend with ⟨hlog, -⟩ | ⟨-, hno⟩
      · rw [hreached] at hlog
        cases hlog
      · exact Or.inr ⟨rfl, hno⟩

end Attempt

/-! ## Attempts that conflict -/

section Run
variable {m : Manager} {g : Gateway σ κ} {pause : Int64 → σ → σ} {priority : Option Priority}
  {work : Work σ κ} {s : σ} {reached : Nat → Bool}

/-- What `n` attempts leave on record, of which the work of some is reached: as many attempts, and
the numbers of those, in a word. -/
structure Numbered (reached : Nat → Bool) (n : Nat) (log : List Event) : Prop where
  attempts : log.count .attempt = n
  numbers : log.filterMap Event.number? =
    ((List.range' 1 n).filter fun i => reached i).map (· % 2 ^ 32)

theorem numbered_nil : Numbered reached 0 [] := ⟨rfl, rfl⟩

/-- As long as a word can hold them, these are the numbers of the attempts. -/
theorem Numbered.exact {n : Nat} {log : List Event} (h : Numbered reached n log) (hn : n < 2 ^ 32) :
    log.filterMap Event.number? = (List.range' 1 n).filter fun i => reached i := by
  rw [h.numbers]
  refine (List.map_congr_left fun i hi => ?_).trans (List.map_id _)
  have hi' := List.mem_range'_1.mp (List.mem_filter.mp hi).1
  exact Nat.mod_eq_of_lt (by omega)

/-- One attempt more, and what follows it other than attempts and work. -/
theorem Numbered.next {n : Nat} {log : List Event} (h : Numbered reached n log) (rest : List Event)
    (hattempt : rest.count .attempt = 0) (hnumber : rest.filterMap Event.number? = []) :
    Numbered reached (n + 1) (log ++ .attempt ::
      ((if reached (n + 1) then [.work (UInt32.ofNat (n + 1)).toNat] else []) ++ rest)) := by
  have hone : ((.attempt :: ((if reached (n + 1) then [.work (UInt32.ofNat (n + 1)).toNat] else [])
      ++ rest) : List Event).count .attempt) = 1 := by
    rw [List.count_cons_self, List.count_append, hattempt]
    split <;> rfl
  constructor
  · rw [List.count_append, h.attempts, hone]
  · rw [List.filterMap_append, h.numbers, List.range'_1_concat, List.filter_append,
      List.map_append, List.filterMap_cons_none rfl, List.filterMap_append, hnumber, List.append_nil,
      add_comm 1 n]
    cases hr : reached (n + 1) with
    | true => simp [hr, Event.number?]
    | false => simp [hr]

/-- Attempts that conflict and are not the last allowed are all followed by another. -/
theorem rounds_conflict (hr : Reaches m g pause priority work s reached) (k bound : Nat)
    (hc : ∀ i, 0 < i → i ≤ k → Conflicts (outcome m g pause priority work s i))
    (hle : ∀ i, 0 < i → i ≤ k → ¬ m.policy.maxRetries < .ofNat i) :
    ∃ log, Numbered reached k log ∧
      (m.rounds (recordedGateway g) (recordedPause pause) priority (recordedWork work)
          (k + bound) 1).run (s, []) =
        (m.rounds (recordedGateway g) (recordedPause pause) priority (recordedWork work)
          bound (.ofNat (k + 1))).run (scene m g pause priority work s k, log) := by
  induction k generalizing bound with
  | zero => exact ⟨[], numbered_nil, by rw [Nat.zero_add]; rfl⟩
  | succ k ih =>
    obtain ⟨log, hlog, hrun⟩ := ih (bound + 1) (fun i hi hk => hc i hi (by omega))
      fun i hi hk => hle i hi (by omega)
    have hround := round_conflict hr (hle (k + 1) (by omega) le_rfl) (hc (k + 1) (by omega) le_rfl)
      log
    refine ⟨_, hlog.next [.pause (m.policy.backoff (.ofNat (k + 1))).toInt] rfl rfl, ?_⟩
    rw [Nat.add_right_comm, Nat.add_assoc, hrun, Manager.rounds_succ, hround]

/-- An attempt that fails without a conflict is the last. -/
theorem round_fails (hr : Reaches m g pause priority work s reached) {i : Nat} {f : Fault}
    (ho : outcome m g pause priority work s (i + 1) = .error f) (hf : f.kind ≠ .conflict)
    (log : List Event) :
    ∃ t, (m.round (recordedGateway g) (recordedPause pause) priority (recordedWork work)
        (.ofNat (i + 1))).run (scene m g pause priority work s i, log) =
      (.error f, t, log ++ .attempt ::
        ((if reached (i + 1) then [.work (UInt32.ofNat (i + 1)).toNat] else []) ++ [])) := by
  rw [Manager.round_run, hr i log, ho, List.append_nil]
  simp only [ne_eq, hf, not_false_eq_true, if_true]
  exact ⟨_, rfl⟩

/-! ## The law of the budget -/

/-- How a hopeless transaction ends whose last attempt is number `n`. -/
inductive Fate (retries : UInt32) (reached : Nat → Bool) (n : Nat) : Except Fault Bool → Prop
  /-- The budget is used up, as the fault says. -/
  | exhausted {e : Fault} (hn : n = retries.toNat + 1) (he : e.kind = .exhausted (.ofNat n)) :
      Fate retries reached n (.error e)
  /-- The backend failed before the work, and not with a conflict. -/
  | turnedAway {e : Fault} (hn : 0 < n) (hreached : reached n = false) (he : e.kind ≠ .conflict) :
      Fate retries reached n (.error e)

/-- A budget below the largest ends with the attempt after its last retry, or before. -/
theorem rounds_end (hwork : Hopeless work) (hm : m.policy.maxRetries.toNat < 2 ^ 32 - 1)
    (hr : Reaches m g pause priority work s reached) :
    ∃ n answer t log, n ≤ m.policy.maxRetries.toNat + 1 ∧
      (m.rounds (recordedGateway g) (recordedPause pause) priority (recordedWork work)
          UInt32.size 1).run (s, []) = (answer, t, log) ∧
      Numbered reached n log ∧ Fate m.policy.maxRetries reached n answer := by
  obtain ⟨n, hn⟩ := exists_lasts (outcome m g pause priority work s) m.policy.maxRetries.toNat
  obtain ⟨k, rfl⟩ := Nat.exists_eq_add_one.mpr hn.pos
  have hk := hn.le
  have hle (i : Nat) (_ : 0 < i) (hi : i ≤ k) : ¬ m.policy.maxRetries < .ofNat i := by
    rw [UInt32.lt_iff_toNat_lt, toNat_number hm (by omega)]
    omega
  obtain ⟨bound, hbound⟩ : ∃ bound, UInt32.size = k + (bound + 1) :=
    ⟨UInt32.size - k - 1, by show 2 ^ 32 = k + (2 ^ 32 - k - 1 + 1); omega⟩
  obtain ⟨log, hlog, hrun⟩ := rounds_conflict hr k (bound + 1)
    (fun i hi hik => hn.before i hi (by omega)) hle
  have hend : ∃ answer t, (m.rounds (recordedGateway g) (recordedPause pause) priority
      (recordedWork work) (bound + 1) (.ofNat (k + 1))).run (scene m g pause priority work s k, log) =
      (answer, t, log ++ entries m.policy reached (k + 1) (k + 1)) ∧
      Comes m.policy.maxRetries (outcome m g pause priority work s (k + 1)) answer :=
    round_last hm hr hn log
  obtain ⟨answer, t, hlast, hcomes⟩ := hend
  have hnumber := toNat_number (i := k + 1) hm hk
  have hentries : entries m.policy reached (k + 1) (k + 1) = .attempt ::
      ((if reached (k + 1) then [.work (UInt32.ofNat (k + 1)).toNat] else []) ++ []) := by
    rw [entries, if_neg (Nat.lt_irrefl _), hnumber]
  refine ⟨k + 1, answer, t, _, hk, ?_, hlog.next [] rfl rfl, ?_⟩
  · rw [hbound, hrun, hlast, hentries]
  · -- The last attempt decides: the budget is used up, or the backend failed before the work.
    obtain ⟨f, ho, hf⟩ := outcome_of_hopeless hwork hr k
    rw [ho] at hcomes
    cases hcomes with
    | failed hkind =>
      rcases hf with ⟨-, hconflict⟩ | ⟨hno, -⟩
      · exact absurd hconflict hkind
      · exact .turnedAway k.succ_pos hno hkind
    | exhausted hkind he =>
      have hall : k + 1 = m.policy.maxRetries.toNat + 1 := by
        by_contra hne
        exact hn.last (by omega) ⟨f, ho, hkind⟩
      have hword : m.policy.maxRetries + 1 = .ofNat (k + 1) := by
        rw [← UInt32.toNat_inj, hnumber, Manager.toNat_next hm (UInt32.lt_irrefl _), hall]
      exact .exhausted hall (by rw [he, hword])

/-- The largest budget is never used up: whatever the bound, there is another attempt, unless the
backend failed before the work. -/
theorem rounds_endless (hwork : Hopeless work) (hm : m.policy.maxRetries.toNat = 2 ^ 32 - 1)
    (hr : Reaches m g pause priority work s reached) (bound : Nat) :
    ∃ n answer t log,
      (m.rounds (recordedGateway g) (recordedPause pause) priority (recordedWork work)
          bound 1).run (s, []) = (answer, t, log) ∧
      Numbered reached n log ∧
      ((n = bound ∧ answer = .ok false) ∨
        ∃ f, 0 < n ∧ n ≤ bound ∧ reached n = false ∧ f.kind ≠ .conflict ∧ answer = .error f) := by
  -- No word is above the largest one, so the policy never forbids another attempt.
  have hle (i : Nat) : ¬ m.policy.maxRetries < .ofNat i := by
    rw [UInt32.lt_iff_toNat_lt, hm]
    have := (UInt32.ofNat i).toNat_lt
    omega
  obtain ⟨n, hn⟩ := exists_lasts (outcome m g pause priority work s) bound
  by_cases hlast : n ≤ bound
  · obtain ⟨k, rfl⟩ := Nat.exists_eq_add_one.mpr hn.pos
    obtain ⟨left, rfl⟩ := Nat.exists_eq_add_of_le hlast
    obtain ⟨f, ho, hf⟩ := outcome_of_hopeless hwork hr k
    have hkind : f.kind ≠ .conflict := fun h => hn.last hlast ⟨f, ho, h⟩
    have hno : reached (k + 1) = false := hf.elim (fun h => absurd h.2 hkind) And.left
    obtain ⟨log, hlog, hrun⟩ := rounds_conflict hr k (left + 1)
      (fun i hi hik => hn.before i hi (by omega)) fun i _ _ => hle i
    obtain ⟨t, hfails⟩ := round_fails hr ho hkind log
    refine ⟨k + 1, .error f, t, _, ?_, hlog.next [] rfl rfl,
      .inr ⟨f, k.succ_pos, hlast, hno, hkind, rfl⟩⟩
    rw [Nat.add_assoc, Nat.add_comm 1 left, hrun, Manager.rounds_succ, hfails]
  · have hall (i : Nat) (hi : 0 < i) (hib : i ≤ bound) :
        Conflicts (outcome m g pause priority work s i) := hn.before i hi (by omega)
    obtain ⟨log, hlog, hrun⟩ := rounds_conflict hr bound 0 hall fun i _ _ => hle i
    exact ⟨bound, .ok false, _, log, hrun, hlog, .inl ⟨rfl, rfl⟩⟩

end Run

section Law
variable (m : Manager) (g : Gateway σ κ) (pause : Int64 → σ → σ) (priority : Option Priority)
  (work : Work σ κ) (s : σ)

/-- **The budget of hopeless work.**  If every attempt conflicts that reaches its work, a budget
below the largest ends: with the fault that tells the number of attempts made, one more than the
retries allowed, or before, with an attempt that the backend turned away.  The work is told the
numbers of the attempts that reach it, which are all of them if the backend grants what an attempt
needs.

With the largest budget the transaction goes on for as long as one cares to watch, unless an attempt
is turned away, and its attempts are numbered from 0 again after the last word. -/
theorem budget_of_hopeless (hwork : Hopeless work)
    (hp : priority.isSome = true → m.dialect.supportsPriority = true) :
    ∃ reached : Nat → Bool,
      (Grants g m.dialect priority → ∀ i, 0 < i → reached i = true) ∧
      (m.policy.maxRetries.toNat < 2 ^ 32 - 1 → ∃ n answer t log,
        n ≤ m.policy.maxRetries.toNat + 1 ∧
        (m.execute (recordedGateway g) (recordedPause pause) priority (recordedWork work)).run
            (s, []) = (answer, t, log) ∧
        log.count .attempt = n ∧
        log.filterMap Event.number? = ((List.range' 1 n).filter fun i => reached i) ∧
        Fate m.policy.maxRetries reached n answer) ∧
      (m.policy.maxRetries.toNat = 2 ^ 32 - 1 → ∀ bound, ∃ n answer t log,
        (m.rounds (recordedGateway g) (recordedPause pause) priority (recordedWork work)
            bound 1).run (s, []) = (answer, t, log) ∧
        Numbered reached n log ∧
        ((n = bound ∧ answer = .ok false) ∨
          ∃ f, 0 < n ∧ n ≤ bound ∧ reached n = false ∧ f.kind ≠ .conflict ∧ answer = .error f)) := by
  obtain ⟨reached, hr⟩ := exists_reaches m g pause priority work s
  refine ⟨reached, fun hg i hi => ?_, fun hm => ?_, fun hm => rounds_endless hwork hm hr⟩
  · obtain ⟨k, rfl⟩ := Nat.exists_eq_add_one.mpr hi
    obtain ⟨f, -, ⟨hyes, -⟩ | ⟨-, hno⟩⟩ := outcome_of_hopeless hwork hr k
    · exact hyes
    · exact absurd hg hno
  · rw [Manager.execute_of_supported hp]
    obtain ⟨n, answer, t, log, hn, hrun, hlog, hfate⟩ := rounds_end hwork hm hr
    exact ⟨n, answer, t, log, hn, hrun, hlog.attempts, hlog.exact (by omega), hfate⟩

end Law

/-- Work that always conflicts. -/
def hopeless : Work Unit Unit := scripted fun _ => .error (.of .conflict [ascii "conflict"])

theorem hopeless_conflicts : Hopeless hopeless := fun _ _ _ => ⟨_, rfl, rfl⟩

theorem grants_calm (d : Dialect) : Grants calm d none where
  acquire s := ⟨(), s, rfl⟩
  start _ _ := rfl
  priority q hq := by cases hq

/-- With two retries allowed, hopeless work is told the numbers 1, 2 and 3, and then the budget is
used up.  With as many as a word can count, every attempt has another one after it. -/
theorem budget_of_two :
    (∃ e t log, (Manager.execute ⟨ascii "orders", .cockroach, ⟨2, 100, 150⟩⟩ (recordedGateway calm)
        (recordedPause fun _ s => s) none (recordedWork hopeless)).run ((), []) =
      (.error e, t, log) ∧ e.kind = .exhausted 3 ∧ log.filterMap Event.number? = [1, 2, 3]) ∧
    ∀ bound, ∃ t log, (Manager.rounds ⟨ascii "orders", .cockroach, ⟨4294967295, 100, 150⟩⟩
        (recordedGateway calm) (recordedPause fun _ s => s) none (recordedWork hopeless) bound 1).run
          ((), []) = (.ok false, t, log) ∧ log.count .attempt = bound := by
  constructor
  · obtain ⟨reached, hreached, hfinite, -⟩ := budget_of_hopeless
      ⟨ascii "orders", .cockroach, ⟨2, 100, 150⟩⟩ calm (fun _ s => s) none hopeless ()
      hopeless_conflicts (by decide)
    have hall := hreached (grants_calm _)
    obtain ⟨n, answer, t, log, -, hrun, -, hnumbers, hfate⟩ := hfinite (by decide)
    cases hfate with
    | exhausted hlast he =>
      subst hlast
      refine ⟨_, t, log, hrun, he, hnumbers.trans ?_⟩
      rw [List.filter_eq_self.mpr fun i hi => hall i (List.mem_range'_1.mp hi).1]
      rfl
    | turnedAway hpos hno _ =>
      rw [hall n hpos] at hno
      cases hno
  · intro bound
    obtain ⟨reached, hreached, -, hendless⟩ := budget_of_hopeless
      ⟨ascii "orders", .cockroach, ⟨4294967295, 100, 150⟩⟩ calm (fun _ s => s) none hopeless ()
      hopeless_conflicts (by decide)
    obtain ⟨n, answer, t, log, hrun, hlog, ⟨rfl, rfl⟩ | ⟨f, hpos, -, hno, -⟩⟩ :=
      hendless (by decide) bound
    · exact ⟨t, log, hrun, hlog.attempts⟩
    · rw [hreached (grants_calm _) n hpos] at hno
      cases hno

/-- With the largest budget, work that always conflicts never comes to an end, and after the last
number comes 0. -/
theorem largest_endless :
    (¬ ∃ bound e t, (Manager.rounds ⟨ascii "orders", .cockroach, ⟨4294967295, 100, 5000⟩⟩ calm
      (fun _ => pure ()) none hopeless bound 1).run () = (.error e, t)) ∧
    (Manager.round ⟨ascii "orders", .cockroach, ⟨4294967295, 100, 5000⟩⟩ calm
      (fun _ => pure ()) none hopeless 4294967295).run () = (.ok (some 0), ()) := by
  have hround (number : UInt32) : (Manager.round ⟨ascii "orders", .cockroach,
      ⟨4294967295, 100, 5000⟩⟩ calm (fun _ => pure ()) none hopeless number).run () =
      (.ok (some (number + 1)), ()) := by
    have hle : ¬ (4294967295 : UInt32) < number := by
      rw [UInt32.lt_iff_toNat_lt]
      have := number.toNat_lt
      show ¬ 4294967295 < _
      omega
    rw [Manager.round_run, try_calm]
    show (if Fault.Kind.conflict ≠ .conflict then _ else if _ then _ else _) = _
    rw [if_neg (by decide), if_neg hle]
    rfl
  have hrounds (bound : Nat) (number : UInt32) : (Manager.rounds ⟨ascii "orders", .cockroach,
      ⟨4294967295, 100, 5000⟩⟩ calm (fun _ => pure ()) none hopeless bound number).run () =
      (.ok false, ()) := by
    induction bound generalizing number with
    | zero => rfl
    | succ bound ih =>
      rw [Manager.rounds_succ, hround]
      exact ih (number + 1)
  refine ⟨?_, hround _⟩
  rintro ⟨bound, e, t, hrun⟩
  rw [hrounds] at hrun
  cases hrun

end Coordinator.Retry

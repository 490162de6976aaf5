import Coordinator.Proofs.Contract
import Coordinator.Retry.Manager
import Mathlib.Algebra.Group.Nat.Defs

/-! # The rounds of a transaction

An attempt sends statements of its own around its work, and of these only the last one, the commit,
has anything to do (`Framed`).  So it leaves what a commit leaves, or what it found
(`Manager.onConnection_meets`).

A transaction goes through rounds: an attempt, and what follows from its end (`Manager.round_run`).
Attempts are numbered in words; as long as the policy allows fewer retries than a word can count,
the numbers do not wrap, and the bound on the rounds is never what ends them
(`Manager.rounds_finish`).

So it takes two facts to know what a transaction leaves behind: what an attempt leaves when it
succeeds, and what it leaves when it fails (`Manager.execute_meets`).  Only the last attempt can
have succeeded. -/
namespace Coordinator.Retry

/-- A statement that an attempt sends itself, other than its commit. -/
inductive Frames (d : Dialect) : Bytes → Prop
  | start : Frames d d.start
  | priority {q : Priority} {sql : Bytes} (hsql : d.priority q = .ok sql) : Frames d sql
  | rollback : Frames d d.rollback

/-- On connection `c`, `held` holds during an attempt and `done` once it is committed. -/
structure Framed {σ κ : Type} (g : Gateway σ κ) (d : Dialect) (c : κ) (held done : σ → Prop) :
    Prop where
  frame : ∀ {sql}, Frames d sql → (g.execute c sql).Meets held (fun _ => held) fun _ => held
  commit : (g.execute c d.commit).Meets held (fun _ => done) fun _ => held
  poison : ∀ s, held s → held (g.poison c s)
  log : ∀ r s, held s → held (g.log r s)

namespace Manager

variable {σ κ : Type} {m : Manager} {g : Gateway σ κ} {sleep : Int64 → Action σ Unit}
  {priority : Option Priority} {work : Work σ κ} {number : UInt32} {bound : Nat} {s t : σ}
  {pre post : σ → Prop}

/-! ## Attempts -/

section OnConnection
variable {c : κ} {held done : σ → Prop}

theorem body_meets (hf : Framed g m.dialect c held done)
    (hwork : (work c number).Meets held (fun _ => held) fun _ => held) :
    (m.body g priority work number c).Meets held (fun _ => done) fun _ => held := by
  have hlast := hwork.bind fun _ => hf.commit
  cases priority with
  | none => exact hlast
  | some q =>
    refine Action.Meets.ofExcept_bind (fun sql hsql => ?_) fun _ _ _ hs => hs
    exact (hf.frame (.priority hsql)).bind fun _ => hlast

/-- The rollback after a failure leaves what it finds, also when it fails. -/
theorem undo_keeps (hf : Framed g m.dialect c held done) (hs : held s) :
    held (m.undo g c s) := by
  have hrollback := hf.frame .rollback
  unfold undo
  rcases hr : (g.execute c m.dialect.rollback).run s with ⟨f | u, t⟩
  · exact hf.log _ _ (hf.poison t (hrollback.bad_of_run hs hr))
  · exact hrollback.ok_of_run hs hr

/-- An attempt on its connection leaves what a commit leaves, or fails and leaves what it found. -/
theorem onConnection_meets (hf : Framed g m.dialect c held done)
    (hwork : (work c number).Meets held (fun _ => held) fun _ => held) :
    (do g.execute c m.dialect.start
        (m.body g priority work number c).onFailure fun _ => m.undo g c : Action σ Unit).Meets
      held (fun _ => done) fun _ => held :=
  (hf.frame .start).bind fun _ => (body_meets hf hwork).onFailure fun _ _ hs => undo_keeps hf hs

end OnConnection

/-! ## Rounds -/

/-- One attempt and what follows from it, as cases. -/
theorem round_run : (m.round g sleep priority work number).run s =
    match (m.try_ g priority work number).run s with
    | (.ok (), t) =>
      (.ok none, if 1 < number then g.log (m.committedRecord number) t else t)
    | (.error f, t) =>
      if f.kind ≠ .conflict then (.error f, t)
      else if m.policy.maxRetries < number then
        (.error (exhaustedFault number f), g.log (m.exhaustedRecord number f) t)
      else match (sleep (m.policy.backoff number)).run
          (g.log (m.backingOffRecord number (m.policy.backoff number) f) t) with
        | (.ok (), u) => (.ok (some (number + 1)), u)
        | (.error e, u) => (.error e, u) := by
  unfold round
  rw [Action.run_bind, Action.run_attempt]
  rcases (m.try_ g priority work number).run s with ⟨f | u, t⟩
  · by_cases hf : f.kind ≠ .conflict
    · simp only [if_pos hf]
      rfl
    · by_cases hmax : m.policy.maxRetries < number
      · simp only [if_neg hf, if_pos hmax]
        rfl
      · simp only [if_neg hf, if_neg hmax]
        rw [Action.run_bind, Action.run_update]
        dsimp only
        rw [Action.run_bind]
        rcases (sleep (m.policy.backoff number)).run _ with ⟨e | v, u⟩ <;> rfl
  · by_cases hn : 1 < number
    · simp only [if_pos hn]
      rfl
    · simp only [if_neg hn]
      rfl

theorem rounds_succ : (m.rounds g sleep priority work (bound + 1) number).run s =
    match (m.round g sleep priority work number).run s with
    | (.ok none, t) => (.ok true, t)
    | (.ok (some next), t) => (m.rounds g sleep priority work bound next).run t
    | (.error f, t) => (.error f, t) := by
  rw [rounds, Action.run_bind]
  rcases (m.round g sleep priority work number).run s with ⟨f | _ | next, t⟩ <;> rfl

/-! ## What a transaction leaves behind -/

/-- What holds before a failed attempt holds after it, and a pause and the journal leave it alone.
Then a round that is not the last one leaves it alone too. -/
theorem round_meets (htry : (m.try_ g priority work number).Meets pre (fun _ => post) fun _ => pre)
    (hpre : ∀ r s, pre s → pre (g.log r s)) (hpost : ∀ r s, post s → post (g.log r s))
    (hsleep : ∀ delay, (sleep delay).Meets pre (fun _ => pre) fun _ => pre) :
    (m.round g sleep priority work number).Meets pre
      (fun next s => if next = none then post s else pre s) fun _ => pre := by
  intro s hs
  rw [round_run]
  rcases hr : (m.try_ g priority work number).run s with ⟨f | u, t⟩
  · have ht := htry.bad_of_run hs hr
    by_cases hf : f.kind ≠ .conflict
    · simp only [if_pos hf]
      exact ht
    · by_cases hmax : m.policy.maxRetries < number
      · simp only [if_neg hf, if_pos hmax]
        exact hpre _ _ ht
      · simp only [if_neg hf, if_neg hmax]
        have hend := hsleep (m.policy.backoff number) _
          (hpre (m.backingOffRecord number (m.policy.backoff number) f) t ht)
        rcases hz : (sleep (m.policy.backoff number)).run _ with ⟨e | v, u⟩ <;> rw [hz] at hend
        · exact hend
        · exact hend
  · have ht := htry.ok_of_run hs hr
    by_cases hn : 1 < number
    · simp only [if_pos hn]
      exact hpost _ _ ht
    · simp only [if_neg hn]
      exact ht

/-- Rounds that end with a commit leave what a successful attempt leaves; all others leave what was
there before. -/
theorem rounds_meets
    (htry : ∀ number, (m.try_ g priority work number).Meets pre (fun _ => post) fun _ => pre)
    (hpre : ∀ r s, pre s → pre (g.log r s)) (hpost : ∀ r s, post s → post (g.log r s))
    (hsleep : ∀ delay, (sleep delay).Meets pre (fun _ => pre) fun _ => pre) (bound : Nat)
    (number : UInt32) : (m.rounds g sleep priority work bound number).Meets pre
      (fun done s => if done then post s else pre s) fun _ => pre := by
  induction bound generalizing number with
  | zero => exact .pure fun _ hs => hs
  | succ bound ih =>
    intro s hs
    rw [rounds_succ]
    have hround := round_meets (htry number) hpre hpost hsleep s hs
    rcases hr : (m.round g sleep priority work number).run s with ⟨f | _ | next, t⟩ <;>
      rw [hr] at hround
    · exact hround
    · exact hround
    · exact ih next t hround

/-! ## The numbers of attempts -/

theorem toNat_next (hm : m.policy.maxRetries.toNat < 2 ^ 32 - 1)
    (hn : ¬ m.policy.maxRetries < number) : (number + 1).toNat = number.toNat + 1 := by
  have hle : number.toNat ≤ m.policy.maxRetries.toNat :=
    UInt32.le_iff_toNat_le.mp (UInt32.not_lt.mp hn)
  rw [UInt32.toNat_add]
  exact Nat.mod_eq_of_lt (by show number.toNat + 1 < _; omega)

/-- There is a next attempt only within the policy. -/
theorem next_of_round {next : UInt32}
    (hr : (m.round g sleep priority work number).run s = (.ok (some next), t)) :
    ¬ m.policy.maxRetries < number ∧ next = number + 1 := by
  rw [round_run] at hr
  split at hr
  · cases hr
  · split at hr
    · cases hr
    · split at hr
      · cases hr
      · next hn =>
        split at hr
        · cases hr; exact ⟨hn, rfl⟩
        · cases hr

/-- Rounds that have a bound above the policy's end before it. -/
theorem rounds_finish (hm : m.policy.maxRetries.toNat < 2 ^ 32 - 1)
    (hn : number.toNat ≤ m.policy.maxRetries.toNat + 1)
    (hbound : m.policy.maxRetries.toNat + 1 < number.toNat + bound) {done : Bool}
    (hr : (m.rounds g sleep priority work bound number).run s = (.ok done, t)) : done = true := by
  -- A round that is not the last uses up one of the bound and one of the retries, so the bound
  -- stays ahead of the policy.
  induction bound generalizing number s with
  | zero => omega
  | succ bound ih =>
    rw [rounds_succ] at hr
    rcases hround : (m.round g sleep priority work number).run s with ⟨f | _ | next, u⟩ <;>
      rw [hround] at hr
    · cases hr
    · cases hr; rfl
    · obtain ⟨hle, rfl⟩ := next_of_round hround
      have hnext := toNat_next hm hle
      have hle' : number.toNat ≤ m.policy.maxRetries.toNat :=
        UInt32.le_iff_toNat_le.mp (UInt32.not_lt.mp hle)
      exact ih (by omega) (by omega) hr

theorem execute_of_supported (hp : priority.isSome = true → m.dialect.supportsPriority = true) :
    m.execute g sleep priority work = m.rounds g sleep priority work UInt32.size 1 := by
  have hno : (priority.isSome && !m.dialect.supportsPriority) = false := by
    cases hs : priority.isSome with
    | false => rfl
    | true => rw [hp hs]; rfl
  simp only [execute, hno, Bool.false_eq_true, if_false]

theorem execute_of_unsupported (hp : priority.isSome = true)
    (hd : m.dialect.supportsPriority = false) : ∃ f, f.kind = .unsupported ∧
      (m.execute g sleep priority work).run s = (.error f, s) := by
  refine ⟨.of .unsupported [m.dialect.name, ascii " does not support transaction priorities"],
    rfl, ?_⟩
  simp only [execute, hp, hd, Bool.not_false, Bool.and_true, if_true]
  rfl

/-- **What a transaction leaves behind.**  If it returns, it is what a successful attempt leaves; if
it fails, it is what was there before. -/
theorem execute_meets (hm : m.policy.maxRetries.toNat < 2 ^ 32 - 1)
    (htry : ∀ number, (m.try_ g priority work number).Meets pre (fun _ => post) fun _ => pre)
    (hpre : ∀ r s, pre s → pre (g.log r s)) (hpost : ∀ r s, post s → post (g.log r s))
    (hsleep : ∀ delay, (sleep delay).Meets pre (fun _ => pre) fun _ => pre) :
    (m.execute g sleep priority work).Meets pre (fun done s => done = true ∧ post s)
      fun _ => pre := by
  intro s hs
  by_cases hp : priority.isSome = true → m.dialect.supportsPriority = true
  · rw [execute_of_supported hp]
    have hend := rounds_meets htry hpre hpost hsleep UInt32.size 1 s hs
    rcases hr : (m.rounds g sleep priority work UInt32.size 1).run s with ⟨f | done, t⟩ <;>
      rw [hr] at hend
    · exact hend
    · obtain rfl : done = true := by
        refine rounds_finish hm ?_ ?_ hr
        · show 1 ≤ _
          omega
        · show _ < 1 + 2 ^ 32
          omega
      exact ⟨rfl, hend⟩
  · obtain ⟨hsome, hno⟩ := Classical.not_imp.mp hp
    obtain ⟨f, -, hr⟩ : ∃ f, f.kind = .unsupported ∧
        (m.execute g sleep priority work).run s = (.error f, s) :=
      execute_of_unsupported hsome (Bool.not_eq_true _ ▸ hno)
    rw [hr]
    exact hs

end Manager
end Coordinator.Retry

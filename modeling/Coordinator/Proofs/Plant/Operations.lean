import Coordinator.Proofs.Engine.Acceptance
import Coordinator.Proofs.Plant.Gateway
import Coordinator.Proofs.Retry.Rounds

/-! # Operations and the connections they hold

What the operations of participants and retry managers make of the loans of a pool.  A session is
**kept** (`Keeps`) when its connection is on loan with the branch that its state stands for.  An
operation on a kept session ends with the session kept, or with the session closed and its
connection back with the pool; an operation that lends a connection to itself gives it back.  This
holds of every exit: each failure leaves either the session as it was, or a connection that is
given up together with whatever branch it has (`Owes.drop`).

A dialect enters by what its statements make of a loan, which is all that the lemmas on operations
know of a text. -/
namespace Coordinator.Plant

open Engine (Branch ConnectionId Statement)

variable {h : HostId} {k : Nat} {exact : Prop} {R : Table RegistryRef (Registry Line)}
  {loans : List Loan} {p : Plant} {n : ConnectionId} {o : Option (Bytes × Branch)}
  {sql x : Bytes} {d : Xa.Dialect} {P : Participant} {s : Session Line}

/-! ## The statements of a dialect -/

/-- The branch that a connection has on the engine for an xid: PostgreSQL names no xid before the
prepare, and its branches are none to the engine. -/
def claim (d : Xa.Dialect) (x : Bytes) (b : Branch) : Option (Bytes × Branch) :=
  if d = .postgres then none else some (x, b)

section Dialect
variable {r : PoolRef} {b : Branch}

theorem claim_postgres (hd : d = .postgres) : claim d x b = none := if_pos hd

theorem claim_of_ne (hd : d ≠ .postgres) : claim d x b = some (x, b) := if_neg hd

theorem turns_start (hsql : d.start x = .ok sql) :
    Turns r exact loans n sql none (claim d x ⟨.active, n⟩) := by
  by_cases hd : d = .postgres
  · subst hd
    exact Turns.of_passive (Engine.isPlain_start hsql).isPassive
  · rw [Engine.start_eq hd] at hsql
    obtain ⟨q, hq, rfl⟩ := ok_of_map hsql
    rw [claim_of_ne hd]
    exact Turns.start (Engine.parse_start hq)

theorem turns_finish (hsql : d.finish x = .ok sql) (hne : sql ≠ []) :
    Turns r exact loans n sql (claim d x b) (claim d x ⟨.idle, n⟩) := by
  by_cases hd : d = .postgres
  · subst hd
    cases hsql
    exact absurd rfl hne
  · rw [Engine.finish_eq hd] at hsql
    obtain ⟨q, hq, rfl⟩ := ok_of_map hsql
    rw [claim_of_ne hd, claim_of_ne hd]
    exact Turns.finish (Engine.parse_finish hq)

theorem turns_prepare (hsql : d.prepare x = .ok sql) :
    Turns r exact loans n sql (claim d x b) (claim d x .detached) := by
  by_cases hd : d = .postgres
  · subst hd
    exact Turns.of_passive (Engine.isPlain_prepare hsql).isPassive
  · rw [Engine.prepare_eq hd] at hsql
    obtain ⟨q, hq, rfl⟩ := ok_of_map hsql
    rw [claim_of_ne hd, claim_of_ne hd]
    exact Turns.prepare (Engine.parse_prepare hq)

/-- The branch of a loan, or, where loans need not be exact, none. -/
theorem claim_cases (ho : o = claim d x b ∨ o = none ∧ ¬ exact) (hd : d ≠ .postgres) :
    o = some (x, b) ∨ o = none ∧ ¬ exact := by
  rwa [claim_of_ne hd] at ho

theorem none_of_postgres (ho : o = claim .postgres x b ∨ o = none ∧ ¬ exact) : o = none := by
  rcases ho with ho | ⟨ho, -⟩
  · exact ho
  · exact ho

theorem turns_commit (hsql : d.commit x = .ok sql) (ho : o = claim d x b ∨ o = none ∧ ¬ exact) :
    Turns r exact loans n sql o none := by
  by_cases hd : d = .postgres
  · subst hd
    rw [none_of_postgres ho]
    exact Turns.of_passive (Engine.isPlain_commit hsql).isPassive
  · rw [Engine.commit_eq hd] at hsql
    obtain ⟨q, hq, rfl⟩ := ok_of_map hsql
    exact Turns.settle (Engine.parse_commit hq) (Or.inl ⟨false, rfl⟩) (claim_cases ho hd)

theorem turns_commitOnePhase (hsql : d.commitOnePhase x = .ok sql) :
    Turns r exact loans n sql (claim d x b) none := by
  by_cases hd : d = .postgres
  · subst hd
    exact Turns.of_passive (Engine.isPlain_commitOnePhase hsql).isPassive
  · rw [Engine.commitOnePhase_eq hd] at hsql
    obtain ⟨q, hq, rfl⟩ := ok_of_map hsql
    exact Turns.settle (Engine.parse_commitOnePhase hq) (Or.inl ⟨true, rfl⟩)
      (Or.inl (claim_of_ne hd))

/-- The statements of a list, one after the other, turn `o` into `o'`. -/
def TurnsAll (r : PoolRef) (exact : Prop) (loans : List Loan) (n : ConnectionId) :
    List Bytes → Option (Bytes × Branch) → Option (Bytes × Branch) → Prop
  | [], o, o' => o = o'
  | sql :: rest, o, o' => ∃ mid, Turns r exact loans n sql o mid ∧
      TurnsAll r exact loans n rest mid o'

theorem turnsAll_rollback {state : Xa.State} {statements : List Bytes}
    (hsql : d.rollback x state = .ok statements)
    (ho : o = claim d x b ∨ o = none ∧ ¬ exact ∧ state ≠ .started) :
    TurnsAll r exact loans n statements o none := by
  by_cases hd : d = .postgres
  · subst hd
    obtain ⟨sql, rfl, hplain⟩ := Engine.isPlain_rollback hsql
    obtain rfl : o = none := none_of_postgres (ho.imp_right fun ⟨ho, he, _⟩ => ⟨ho, he⟩)
    exact ⟨none, Turns.of_passive hplain.isPassive, rfl⟩
  · rw [Engine.rollback_eq hd] at hsql
    cases hq : Xa.Xid.quoteMysql x with
    | error e => rw [hq] at hsql; cases hsql
    | ok q =>
      rw [hq] at hsql
      cases hsql
      have hlast {o : Option (Bytes × Branch)} {b : Branch}
          (ho : o = some (x, b) ∨ o = none ∧ ¬ exact) :
          TurnsAll r exact loans n [ascii "XA ROLLBACK " ++ q] o none :=
        ⟨none, Turns.settle (Engine.parse_rollback hq) (Or.inr rfl) ho, rfl⟩
      by_cases hstate : state = .started
      · rcases ho with rfl | ⟨-, -, hne⟩
        · simp only [if_pos hstate, claim_of_ne hd, List.singleton_append]
          exact ⟨_, Turns.finish (Engine.parse_finish hq), hlast (Or.inl rfl)⟩
        · exact absurd hstate hne
      · simp only [if_neg hstate, List.nil_append]
        exact hlast (claim_cases (ho.imp_right fun ⟨ho, he, _⟩ => ⟨ho, he⟩) hd)

end Dialect

/-! ## Sessions and their loans -/

/-- The branch that a session in a state has on the engine. -/
def branchOf (state : Xa.State) (n : ConnectionId) : Branch :=
  match state with
  | .started => ⟨.active, n⟩
  | .ended => ⟨.idle, n⟩
  | _ => .detached

/-- The loan of a session, if it is open. -/
def loanOf? (d : Xa.Dialect) (s : Session Line) : Option Loan :=
  s.connection.map fun l => ⟨l.number, claim d s.xid (branchOf s.state l.number)⟩

/-- An open session has a connection of the pool, an xid that its dialect can write, and a state of
the protocol between start and end. -/
structure Sound (h : HostId) (k : Nat) (d : Xa.Dialect) (s : Session Line) : Prop where
  line : ∀ l, s.connection = some l → l = lineTo h k l.number
  state : s.isOpen → s.state = .started ∨ s.state = .ended ∨ s.state = .prepared
  quoted : s.isOpen → ∃ literal, d.quote s.xid = .ok literal

/-- The session is sound, and its connection is on loan besides the given ones. -/
def Keeps (h : HostId) (k : Nat) (exact : Prop) (R : Table RegistryRef (Registry Line))
    (d : Xa.Dialect) (loans : List Loan) (s : Session Line) (p : Plant) : Prop :=
  Sound h k d s ∧ Lends h k exact R ((loanOf? d s).toList ++ loans) p

/-- If the session is open, its connection is on loan, with whatever branch. -/
def Owes (h : HostId) (k : Nat) (exact : Prop) (R : Table RegistryRef (Registry Line))
    (loans : List Loan) (s : Session Line) (p : Plant) : Prop :=
  (s.connection = none ∧ Lends h k exact R loans p) ∨
    ∃ n o, s.connection = some (lineTo h k n) ∧ Lends h k exact R (⟨n, o⟩ :: loans) p

theorem Sound.of_closed (hs : s.connection = none) : Sound h k d s where
  line l hl := by rw [hs] at hl; cases hl
  state ho := by rw [Session.isOpen, hs] at ho; cases ho
  quoted ho := by rw [Session.isOpen, hs] at ho; cases ho

theorem Keeps.of_closed (hs : s.connection = none) (hp : Lends h k exact R loans p) :
    Keeps h k exact R d loans s p := by
  refine ⟨Sound.of_closed hs, ?_⟩
  rw [loanOf?, hs]
  exact hp

theorem Keeps.lends (hk : Keeps h k exact R d loans s p)
    (hn : s.connection = some (lineTo h k n)) :
    Lends h k exact R (⟨n, claim d s.xid (branchOf s.state n)⟩ :: loans) p := by
  have := hk.2
  rw [loanOf?, hn] at this
  exact this

theorem Keeps.owes (hk : Keeps h k exact R d loans s p) : Owes h k exact R loans s p := by
  cases hl : s.connection with
  | none =>
    have := hk.2
    rw [loanOf?, hl] at this
    exact Or.inl ⟨hl, this⟩
  | some l =>
    have hline := hk.1.line l hl
    rw [hline] at hl
    exact Or.inr ⟨l.number, _, hl, hk.lends hl⟩

/-- A session that is dropped gives its connection up. -/
theorem Owes.drop (ho : Owes h k exact R loans s p) :
    Lends h k exact R loans (s.drop (counter h k).toKeeper p) := by
  rcases ho with ⟨hnone, hp⟩ | ⟨n, o, hsome, hp⟩
  · rw [Session.drop, hnone]
    exact hp
  · rw [Session.drop, hsome]
    exact hp.discard _

/-! ## Operations in place -/

/-- A session that is driven beside its plant. -/
abbrev beside (h : HostId) (k : Nat) : Gateway (Session Line × Plant) Line :=
  (counter h k).within .second

theorem drop_beside (t : Session Line × Plant) :
    s.drop (beside h k).toKeeper t = (t.1, s.drop (counter h k).toKeeper t.2) := by
  unfold Session.drop
  cases s.connection <;> rfl

/-- A statement for a session driven in place turns its loan, or the session is closed and its
connection given up. -/
theorem sendInPlace_meets {o' : Option (Bytes × Branch)} {operation : Bytes}
    (hn : s.connection = some (lineTo h k n)) (ht : Turns (poolOf h k) exact loans n sql o o') :
    (P.sendInPlace (beside h k) .first (lineTo h k n) operation sql).Meets
      (fun t => t.1 = s ∧ Lends h k exact R (⟨n, o⟩ :: loans) t.2)
      (fun _ t => t.1 = s ∧ Lends h k exact R (⟨n, o'⟩ :: loans) t.2)
      fun _ t => t.1 = s.closed ∧ Lends h k exact R loans t.2 := by
  have hexecute : ((beside h k).execute (lineTo h k n) sql).Meets
      (fun t => t.1 = s ∧ Lends h k exact R (⟨n, o⟩ :: loans) t.2)
      (fun _ t => t.1 = s ∧ Lends h k exact R (⟨n, o'⟩ :: loans) t.2)
      fun _ t => t.1 = s ∧ Lends h k exact R (⟨n, o⟩ :: loans) t.2 :=
    (execute_meets ht).onCell (fun t hp => hp.2) (fun t _ _ hp hq => ⟨hp.1, hq⟩)
      fun t _ _ hp hq => ⟨hp.1, hq⟩
  refine hexecute.onFailure fun f t ⟨hs, hp⟩ => ?_
  simp only [drop_beside]
  subst hs
  exact ⟨rfl, Owes.drop (Or.inr ⟨n, o, hn, hp.log _⟩)⟩

theorem moveOn_meets {state : Xa.State} {message : String}
    {bad : Fault → Session Line × Plant → Prop} :
    (P.moveOn (beside h k) .first state message).Meets
      (fun t => t.1 = s ∧ Lends h k exact R loans t.2)
      (fun _ t => t.1 = { s with state } ∧ Lends h k exact R loans t.2) bad :=
  .update fun _ ⟨hs, hp⟩ => ⟨congrArg ({ · with state }) hs, hp.log _⟩

/-- A session that an operation drives in place is kept, open or closed. -/
abbrev KeepsFirst (h : HostId) (k : Nat) (exact : Prop) (R : Table RegistryRef (Registry Line))
    (d : Xa.Dialect) (loans : List Loan) (t : Session Line × Plant) : Prop :=
  Keeps h k exact R d loans t.1 t.2

/-- The session after a step in place, with the branch that the step leaves. -/
theorem Keeps.moved {state : Xa.State} (hk : Sound h k d s)
    (hn : s.connection = some (lineTo h k n))
    (hstate : state = .started ∨ state = .ended ∨ state = .prepared)
    (hp : Lends h k exact R (⟨n, claim d s.xid (branchOf state n)⟩ :: loans) p) :
    Keeps h k exact R d loans { s with state } p := by
  refine ⟨⟨hk.line, fun _ => hstate, hk.quoted⟩, ?_⟩
  have hloan : loanOf? d { s with state } = some ⟨n, claim d s.xid (branchOf state n)⟩ := by
    rw [loanOf?]
    exact congrArg (Option.map _) hn
  rw [hloan]
  exact hp

theorem statement_ok {ε ε' α : Type} {f : ε → ε'} {y : Except ε α} {a : α}
    (ha : y.mapError f = .ok a) : y = .ok a := by
  cases y with
  | error f => cases ha
  | ok a => cases ha; rfl

/-- A session whose loan is turned into the branch of the next state moves on. -/
theorem advance_meets {state : Xa.State} {message : String}
    {body : Action (Session Line × Plant) Unit} (hs : Sound h k P.dialect s)
    (hn : s.connection = some (lineTo h k n))
    (hstate : state = .started ∨ state = .ended ∨ state = .prepared)
    (hbody : body.Meets
      (fun t => t.1 = s ∧
        Lends h k exact R (⟨n, claim P.dialect s.xid (branchOf s.state n)⟩ :: loans) t.2)
      (fun _ t => t.1 = s ∧
        Lends h k exact R (⟨n, claim P.dialect s.xid (branchOf state n)⟩ :: loans) t.2)
      fun _ t => t.1 = s.closed ∧ Lends h k exact R loans t.2) :
    (body >>= fun _ => P.moveOn (beside h k) .first state message).Meets
      (fun t => KeepsFirst h k exact R P.dialect loans t ∧ t.1 = s)
      (fun _ => KeepsFirst h k exact R P.dialect loans)
      fun _ => KeepsFirst h k exact R P.dialect loans := by
  refine (hbody.bind fun _ => moveOn_meets).mono ?_ ?_ ?_
  · rintro t ⟨ht, rfl⟩
    exact ⟨rfl, ht.lends hn⟩
  · rintro _ ⟨s', p⟩ ⟨rfl, hp⟩
    exact Keeps.moved hs hn hstate hp
  · rintro _ ⟨s', p⟩ ⟨rfl, hp⟩
    exact Keeps.of_closed rfl hp

/-- An operation in place that first checks the session works on an open one, over a connection of
the pool. -/
theorem checked_meets {check : Session Line → Except Fault Line}
    {rest : Session Line → Line → Action (Session Line × Plant) Unit}
    (hcheck : ∀ s l, check s = .ok l → s.connection = some l)
    (hrest : ∀ s n, Sound h k d s → s.connection = some (lineTo h k n) →
      check s = .ok (lineTo h k n) → (rest s (lineTo h k n)).Meets
        (fun t => KeepsFirst h k exact R d loans t ∧ t.1 = s)
        (fun _ => KeepsFirst h k exact R d loans) fun _ => KeepsFirst h k exact R d loans) :
    (do let s ← Action.read Cell.first.get; let l ← .ofExcept (check s); rest s l).Meets
      (KeepsFirst h k exact R d loans) (fun _ => KeepsFirst h k exact R d loans)
      fun _ => KeepsFirst h k exact R d loans := by
  refine Action.Meets.read_bind fun s => ?_
  refine Action.Meets.ofExcept_bind (fun l hl => ?_) fun _ _ t ht => ht.1
  intro t ht
  have hsound : Sound h k d s := ht.2 ▸ ht.1.1
  have hline := hsound.line l (hcheck s l hl)
  rw [hline] at hl ⊢
  exact hrest s l.number hsound (hcheck s _ hl) hl t ht

/-- The work of a session is ended in place; a failing statement closes it. -/
theorem finish_meets : (P.finish (beside h k) .first).Meets
    (KeepsFirst h k exact R P.dialect loans) (fun _ => KeepsFirst h k exact R P.dialect loans)
    fun _ => KeepsFirst h k exact R P.dialect loans := by
  refine checked_meets (fun s l hl => (Session.expect_eq_ok hl).1) fun s n hs hn hl => ?_
  refine Action.Meets.ofExcept_bind (fun sql hsql => ?_) fun _ _ t ht => ht.1
  by_cases hne : sql = []
  · -- PostgreSQL has no statement for this step, and no branch on the engine.
    have hd : P.dialect = .postgres := by
      by_contra hd
      have := statement_ok hsql
      rw [Engine.finish_eq hd] at this
      obtain ⟨q, -, rfl⟩ := ok_of_map this
      cases hne
    rw [if_neg (not_not_intro hne)]
    refine advance_meets hs hn (Or.inr (Or.inl rfl)) (Action.Meets.pure (a := ()) fun t ht => ?_)
    rw [claim_postgres hd] at ht ⊢
    exact ht
  · rw [if_pos hne]
    refine advance_meets hs hn (Or.inr (Or.inl rfl)) (sendInPlace_meets hn ?_)
    exact turns_finish (statement_ok hsql) hne

/-- A session is prepared in place; a failing statement closes it. -/
theorem prepare_meets : (P.prepare (beside h k) .first).Meets
    (KeepsFirst h k exact R P.dialect loans) (fun _ => KeepsFirst h k exact R P.dialect loans)
    fun _ => KeepsFirst h k exact R P.dialect loans := by
  refine checked_meets (fun s l hl => (Session.expect_eq_ok hl).1) fun s n hs hn hl => ?_
  refine Action.Meets.ofExcept_bind (fun sql hsql => ?_) fun _ _ t ht => ht.1
  refine advance_meets hs hn (Or.inr (Or.inr rfl)) (sendInPlace_meets hn ?_)
  exact turns_prepare (statement_ok hsql)

/-! ## Operations that consume a session -/

/-- A statement of a session's own turns its loan or leaves it. -/
theorem participantSend_meets {o' : Option (Bytes × Branch)} {operation : Bytes}
    (ht : Turns (poolOf h k) exact loans n sql o o') :
    (P.send (counter h k) (lineTo h k n) operation x sql).Meets
      (Lends h k exact R (⟨n, o⟩ :: loans)) (fun _ => Lends h k exact R (⟨n, o'⟩ :: loans))
      fun _ => Lends h k exact R (⟨n, o⟩ :: loans) :=
  (execute_meets ht).onFailure fun _ _ hp => hp.log _

/-- The same, with less said of a failure. -/
theorem sendOwing_meets {o' : Option (Bytes × Branch)} {operation : Bytes}
    (ht : Turns (poolOf h k) exact loans n sql o o') :
    (P.send (counter h k) (lineTo h k n) operation x sql).Meets
      (Lends h k exact R (⟨n, o⟩ :: loans)) (fun _ => Lends h k exact R (⟨n, o'⟩ :: loans))
      fun _ p => ∃ o, Lends h k exact R (⟨n, o⟩ :: loans) p :=
  (participantSend_meets ht).mono (fun _ hp => hp) (fun _ _ hp => hp) fun _ _ hp => ⟨o, hp⟩

/-- Statements one after the other turn the loan step by step; a failing one leaves what the ones
before it made of it. -/
theorem sendAll_meets {o' : Option (Bytes × Branch)} {operation : Bytes} {statements : List Bytes}
    (ht : TurnsAll (poolOf h k) exact loans n statements o o') :
    (Action.forEach (P.send (counter h k) (lineTo h k n) operation x) statements).Meets
      (Lends h k exact R (⟨n, o⟩ :: loans)) (fun _ => Lends h k exact R (⟨n, o'⟩ :: loans))
      fun _ p => ∃ o, Lends h k exact R (⟨n, o⟩ :: loans) p := by
  induction statements generalizing o with
  | nil =>
    obtain rfl : o = o' := ht
    exact .pure fun _ hp => hp
  | cons sql rest ih =>
    obtain ⟨mid, hsql, hrest⟩ := ht
    exact (sendOwing_meets hsql).bind fun _ => ih hrest

/-- However an operation that consumes a session ends, the connection of the session is back. -/
theorem consuming_meets {pre : Plant → Prop} {body : Action Plant Unit}
    (hbody : body.Meets pre (fun _ => Lends h k exact R loans)
      fun _ => Owes h k exact R loans s) :
    (Participant.consuming (counter h k) s body).Meets pre (fun _ => Lends h k exact R loans)
      fun _ => Lends h k exact R loans :=
  hbody.onFailure fun _ _ => Owes.drop

/-- An operation that consumes a session checks it, and then works on its connection. -/
theorem settling_meets {check : Except Fault Line} {body : Line → Action Plant Unit}
    (hcheck : ∀ l, check = .ok l → s.connection = some l)
    (hbody : ∀ n, check = .ok (lineTo h k n) → (body (lineTo h k n)).Meets
      (Lends h k exact R (⟨n, claim d s.xid (branchOf s.state n)⟩ :: loans))
      (fun _ => Lends h k exact R loans)
      fun _ p => ∃ o, Lends h k exact R (⟨n, o⟩ :: loans) p) :
    (Participant.consuming (counter h k) s (do let l ← .ofExcept check; body l)).Meets
      (Keeps h k exact R d loans s) (fun _ => Lends h k exact R loans)
      fun _ => Lends h k exact R loans := by
  refine consuming_meets (Action.Meets.ofExcept_bind (fun l hl => ?_) fun _ _ p hp => hp.owes)
  intro p hp
  have hline := hp.1.line l (hcheck l hl)
  rw [hline] at hl ⊢
  have hconn := hcheck _ hl
  have hdone := (hbody l.number hl).mono (fun _ hp => hp) (fun _ _ hp => hp)
    (fun _ p ⟨o, ho⟩ => (Or.inr ⟨l.number, o, hconn, ho⟩ : Owes h k exact R loans s p))
  exact hdone p (hp.lends hconn)

/-- What is done on the connection of a settled session ends with the connection given back. -/
theorem settled_meets {statements : Action Plant Unit} {cleanUp : Plant → Plant}
    (hs : statements.Meets (Lends h k exact R (⟨n, o⟩ :: loans))
      (fun _ => Lends h k exact R (⟨n, none⟩ :: loans))
      fun _ p => ∃ o, Lends h k exact R (⟨n, o⟩ :: loans) p)
    (hc : ∀ p, Lends h k exact R (⟨n, none⟩ :: loans) p → Lends h k exact R loans (cleanUp p)) :
    (statements >>= fun _ => Action.update cleanUp).Meets (Lends h k exact R (⟨n, o⟩ :: loans))
      (fun _ => Lends h k exact R loans)
      fun _ p => ∃ o, Lends h k exact R (⟨n, o⟩ :: loans) p :=
  hs.bind fun _ => .update hc

theorem commit_meets : (P.commit (counter h k) s).Meets (Keeps h k exact R P.dialect loans s)
    (fun _ => Lends h k exact R loans) fun _ => Lends h k exact R loans := by
  refine settling_meets (fun l hl => (Session.expect_eq_ok hl).1) fun n hl => ?_
  refine Action.Meets.ofExcept_bind (fun sql hsql => ?_) fun _ _ p hp => ⟨_, hp⟩
  refine settled_meets (sendOwing_meets ?_) fun p hp => hp.release.log _
  exact turns_commit (statement_ok hsql) (Or.inl rfl)

theorem commitOnePhase_meets : (P.commitOnePhase (counter h k) s).Meets
    (Keeps h k exact R P.dialect loans s) (fun _ => Lends h k exact R loans)
    fun _ => Lends h k exact R loans := by
  refine settling_meets (fun l hl => (Session.expect_eq_ok hl).1) fun n hl => ?_
  refine Action.Meets.ofExcept_bind (fun sql hsql => ?_) fun _ _ p hp => ⟨_, hp⟩
  refine settled_meets (sendOwing_meets ?_) fun p hp => hp.release.log _
  exact turns_commitOnePhase (statement_ok hsql)

theorem rollback_meets : (P.rollback (counter h k) s).Meets
    (Keeps h k exact R P.dialect loans s) (fun _ => Lends h k exact R loans)
    fun _ => Lends h k exact R loans := by
  refine settling_meets (fun l hl => (Participant.expectRollback_eq_ok hl).1) fun n hl => ?_
  refine Action.Meets.ofExcept_bind (fun statements hsql => ?_) fun _ _ p hp => ⟨_, hp⟩
  refine settled_meets (sendAll_meets ?_) fun p hp => hp.release.log _
  exact turnsAll_rollback (statement_ok hsql) (Or.inl rfl)

/-! ## Sessions that start -/

/-- A log entry changes no loan. -/
theorem log_meets {r : Journal.Record} {bad : Fault → Plant → Prop} :
    (Action.update ((counter h k).log r)).Meets (Lends h k exact R loans)
      (fun _ => Lends h k exact R loans) bad := .update fun _ hp => hp.log r

/-- A quoted xid is one that the dialect can write. -/
theorem quoted_of_start (hsql : d.start x = .ok sql) : ∃ literal, d.quote x = .ok literal := by
  unfold Xa.Dialect.start at hsql
  cases hq : d.quote x with
  | error f => rw [hq] at hsql; cases hsql
  | ok literal => exact ⟨literal, rfl⟩

/-- A session that starts is kept; one that does not start costs no connection. -/
theorem start_meets : (P.start (counter h k) x).Meets (Lends h k exact R loans)
    (fun s p => Keeps h k exact R P.dialect loans s p ∧ s.xid = x)
    fun _ => Lends h k exact R loans := by
  unfold Participant.start
  refine Action.Meets.ofExcept_bind (fun sql hsql => ?_) fun _ _ p hp => hp
  refine acquire_bind fun n => ?_
  refine Action.Meets.bind (Action.Meets.onFailure
    (participantSend_meets (turns_start (statement_ok hsql)))
      fun _ _ hp => (hp.poison n).release) fun _ => ?_
  refine Action.Meets.bind log_meets fun _ => ?_
  have hsound : Sound h k P.dialect ⟨x, some (lineTo h k n), .started⟩ :=
    { line := fun l hl => by cases hl; rfl
      state := fun _ => Or.inl rfl
      quoted := fun _ => quoted_of_start (statement_ok hsql) }
  exact .pure fun p hp => ⟨⟨hsound, hp⟩, rfl⟩

/-! ## Recovery -/

/-- An operation on a connection of its own gives it back. -/
theorem withConnection_meets {α : Type} {f : Line → Action Plant α}
    (hf : ∀ n, (f (lineTo h k n)).Meets (Lends h k exact R (⟨n, none⟩ :: loans))
      (fun _ => Lends h k exact R (⟨n, none⟩ :: loans))
      fun _ => Lends h k exact R (⟨n, none⟩ :: loans)) :
    ((counter h k).withConnection f).Meets (Lends h k exact R loans)
      (fun _ => Lends h k exact R loans) fun _ => Lends h k exact R loans :=
  acquire_bind fun n => (hf n).ensuring (fun _ _ hp => hp.release) fun _ _ hp => hp.release

theorem commitByXid_meets (he : ¬ exact) : (P.commitByXid (counter h k) x).Meets
    (Lends h k exact R loans) (fun _ => Lends h k exact R loans)
    fun _ => Lends h k exact R loans := by
  refine Action.Meets.ofExcept_bind (fun sql hsql => ?_) fun _ _ _ hp => hp
  refine withConnection_meets fun n =>
    Action.Meets.bind (participantSend_meets ?_) fun _ => log_meets
  exact turns_commit (statement_ok hsql) (b := .detached) (Or.inr ⟨rfl, he⟩)

/-- Each statement that rolls a prepared branch back leaves a loan without a branch so. -/
theorem turns_recover {r : PoolRef} {statements : List Bytes} (he : ¬ exact)
    (hsql : d.rollback x .prepared = .ok statements) :
    ∀ sql ∈ statements, Turns r exact loans n sql none none := by
  have hall : TurnsAll r exact loans n statements none none :=
    turnsAll_rollback hsql (b := .detached) (Or.inr ⟨rfl, he, by decide⟩)
  obtain ⟨sql, rfl⟩ : ∃ sql, statements = [sql] := by
    by_cases hd : d = .postgres
    · subst hd
      obtain ⟨sql, rfl, -⟩ := Engine.isPlain_rollback hsql
      exact ⟨sql, rfl⟩
    · rw [Engine.rollback_eq hd] at hsql
      cases hq : Xa.Xid.quoteMysql x with
      | error e => rw [hq] at hsql; cases hsql
      | ok q => rw [hq] at hsql; cases hsql; exact ⟨_, rfl⟩
  obtain ⟨mid, hsql, rfl⟩ := hall
  intro sql' hm
  obtain rfl := List.mem_singleton.mp hm
  exact hsql

theorem rollbackByXid_meets (he : ¬ exact) : (P.rollbackByXid (counter h k) x).Meets
    (Lends h k exact R loans) (fun _ => Lends h k exact R loans)
    fun _ => Lends h k exact R loans := by
  refine Action.Meets.ofExcept_bind (fun statements hsql => ?_) fun _ _ _ hp => hp
  refine withConnection_meets fun n => Action.Meets.bind ?_ fun _ => log_meets
  exact .forEach fun sql hm => participantSend_meets (turns_recover he (statement_ok hsql) sql hm)

theorem recover_meets : (P.recover (counter h k)).Meets (Lends h k exact R loans)
    (fun _ => Lends h k exact R loans) fun _ => Lends h k exact R loans := by
  refine withConnection_meets fun n => ?_
  have hquery : Request.IsPassive (.rows P.dialect.recover []) := by
    intro sql hsql
    cases hsql
    exact Engine.isPassive_recover P.dialect
  refine Action.Meets.bind (Action.Meets.onFailure (query_meets hquery) fun _ _ hp => hp.log _)
    fun rows => ?_
  refine Action.Meets.ofExcept_bind (fun found _ => ?_) fun _ _ _ hp => hp
  exact Action.Meets.bind log_meets fun _ => .pure fun _ hp => hp

theorem find_meets : (P.find (counter h k) x).Meets (Lends h k exact R loans)
    (fun _ => Lends h k exact R loans) fun _ => Lends h k exact R loans :=
  recover_meets.bind fun _ => .pure fun _ hp => hp

theorem sweepEach_meets (he : ¬ exact) (counts : Participant.Sweep) (xids : List Bytes) :
    (P.sweepEach (counter h k) counts xids).Meets (Lends h k exact R loans)
      (fun _ => Lends h k exact R loans) fun _ => Lends h k exact R loans := by
  induction xids generalizing counts with
  | nil => exact .pure fun _ hp => hp
  | cons x rest ih =>
    have hone : (P.rollbackByXid (counter h k) x).attempt.Meets (Lends h k exact R loans)
        (fun _ => Lends h k exact R loans) fun _ => Lends h k exact R loans :=
      (rollbackByXid_meets he).attempt (fun _ _ hp => hp) fun _ _ hp => hp
    refine hone.bind fun ending => ?_
    cases ending with
    | ok => exact ih _
    | error f => exact Action.Meets.bind log_meets fun _ => ih _

theorem sweep_meets (he : ¬ exact) {stem : Bytes} : (P.sweep (counter h k) stem).Meets
    (Lends h k exact R loans) (fun _ => Lends h k exact R loans)
    fun _ => Lends h k exact R loans := by
  refine recover_meets.bind fun found => (sweepEach_meets he _ _).bind fun counts => ?_
  exact Action.Meets.bind log_meets fun _ => .pure fun _ hp => hp

/-! ## Retried transactions -/

section Retry
variable {m : Retry.Manager} {priority : Option Retry.Priority} {work : Retry.Work Plant Line}
  {sleep : Int64 → Action Plant Unit}

theorem isPassive_commit (d : Retry.Dialect) : Statement.IsPassive d.commit :=
  (Statement.isPlain_cons _ rfl (by decide) (by decide)).isPassive

theorem isPassive_of_frames {d : Retry.Dialect} (hs : Retry.Frames d sql) :
    Statement.IsPassive sql := by
  cases hs with
  | start => cases d <;> exact (Statement.isPlain_cons _ rfl (by decide) (by decide)).isPassive
  | priority hsql =>
    cases d with
    | sqlite => cases hsql
    | cockroach =>
      cases hsql
      exact (Statement.isPlain_cons _ rfl (by decide) (by decide)).isPassive
  | rollback => exact (Statement.isPlain_cons _ rfl (by decide) (by decide)).isPassive

/-- A unit of work leaves the connection it is given without a branch. -/
def WorksClean (h : HostId) (k : Nat) (exact : Prop) (R : Table RegistryRef (Registry Line))
    (loans : List Loan) (work : Retry.Work Plant Line) : Prop :=
  ∀ n number, (work (lineTo h k n) number).Meets (Lends h k exact R (⟨n, none⟩ :: loans))
    (fun _ => Lends h k exact R (⟨n, none⟩ :: loans))
    fun _ => Lends h k exact R (⟨n, none⟩ :: loans)

/-- A statement outside the protocol leaves the loan without a branch. -/
theorem passive_meets (hs : Statement.IsPassive sql) :
    ((counter h k).execute (lineTo h k n) sql).Meets (Lends h k exact R (⟨n, o⟩ :: loans))
      (fun _ => Lends h k exact R (⟨n, o⟩ :: loans))
      fun _ => Lends h k exact R (⟨n, o⟩ :: loans) := execute_meets (Turns.of_passive hs)

/-- An attempt leaves the loan of its connection without a branch. -/
theorem framed_lends (d : Retry.Dialect) : Retry.Framed (counter h k) d (lineTo h k n)
    (Lends h k exact R (⟨n, none⟩ :: loans)) (Lends h k exact R (⟨n, none⟩ :: loans)) where
  frame hs := passive_meets (isPassive_of_frames hs)
  commit := passive_meets (isPassive_commit d)
  poison _ hp := hp.poison n
  log r _ hp := hp.log r

theorem try_meets (hw : WorksClean h k exact R loans work) (number : UInt32) :
    (m.try_ (counter h k) priority work number).Meets (Lends h k exact R loans)
      (fun _ => Lends h k exact R loans) fun _ => Lends h k exact R loans :=
  withConnection_meets fun n =>
    Retry.Manager.onConnection_meets (framed_lends m.dialect) (hw n number)

/-- A transaction run by a retry manager ends with all its connections back, however it ends. -/
theorem transaction_meets (hw : WorksClean h k exact R loans work)
    (hsleep : ∀ delay, (sleep delay).Meets (Lends h k exact R loans)
      (fun _ => Lends h k exact R loans) fun _ => Lends h k exact R loans) :
    (m.execute (counter h k) sleep priority work).Meets (Lends h k exact R loans)
      (fun _ => Lends h k exact R loans) fun _ => Lends h k exact R loans := by
  have hrounds : (m.rounds (counter h k) sleep priority work UInt32.size 1).Meets
      (Lends h k exact R loans) (fun _ => Lends h k exact R loans)
      fun _ => Lends h k exact R loans :=
    (Retry.Manager.rounds_meets (try_meets hw) (fun r _ hp => hp.log r) (fun r _ hp => hp.log r)
      hsleep UInt32.size 1).mono (fun _ hp => hp) (fun _ p hp => (ite_self (Lends ..)).mp hp)
      fun _ _ hp => hp
  unfold Retry.Manager.execute
  split
  · exact Action.Meets.bind (.fail fun _ hp => hp) fun _ => hrounds
  · exact hrounds

end Retry
end Coordinator.Plant

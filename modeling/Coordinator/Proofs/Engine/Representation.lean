import Coordinator.Proofs.Engine.History
import Mathlib.Algebra.Group.Nat.Defs

/-! # Connections and the branches they own

An engine hands out numbers for its connections, counts those that are open, and notes in each
branch whom it belongs to.  What this is to agree with is kept in `Books`: the connections that a
history has opened, and those that are still open.  A history is **proper** (`Proper`) if it
addresses no connection but open ones; in the engine this is so because only a connection itself
makes its statements, and closes, once.

**The engine agrees with the books** after every proper history (`represents_after`): no number is
handed out twice, the count is that of the open connections, a branch is prepared exactly if it
belongs to nobody, any other one belongs to an open connection, and no connection has two of them
(`Represents`).  Each event keeps this; for the branches, the rules of the protocol do. -/
namespace Coordinator.Engine

/-! ## Branches in order -/

namespace Branches

variable {t u : Branches} {c : ConnectionId} {x : Bytes} {live : List ConnectionId}

/-- The branches are in order, if these are the open connections. -/
structure Orderly (t : Branches) (live : List ConnectionId) : Prop where
  /-- A branch is prepared exactly if it belongs to nobody. -/
  detached : ∀ x b, t.get? x = some b → (b.stage = .prepared ↔ b.owner = 0)
  /-- Any other branch belongs to an open connection. -/
  owned : ∀ x b, t.get? x = some b → b.stage ≠ .prepared → b.owner ∈ live
  /-- No connection has two branches that are not prepared. -/
  single : ∀ c x y b b', t.get? x = some b → t.get? y = some b' →
    b.isOpenOn c = true → b'.isOpenOn c = true → x = y

theorem orderly_empty (live : List ConnectionId) : Orderly ∅ live where
  detached x b h := by rw [Table.get?_empty] at h; cases h
  owned x b h := by rw [Table.get?_empty] at h; cases h
  single c x y b b' h := by rw [Table.get?_empty] at h; cases h

/-- Fewer branches are in order too. -/
theorem Orderly.fewer (h : t.Orderly live) (hu : ∀ y b, u.get? y = some b → t.get? y = some b) :
    u.Orderly live where
  detached x b hx := h.detached x b (hu x b hx)
  owned x b hx := h.owned x b (hu x b hx)
  single c x y b b' hx hy := h.single c x y b b' (hu x b hx) (hu y b' hy)

theorem Orderly.erase (h : t.Orderly live) : Orderly (t.erase x) live := by
  refine h.fewer fun y b hy => ?_
  rw [Table.get?_erase] at hy
  split at hy
  · cases hy
  · exact hy

/-- A branch in order is put in, and no other one is open on its connection. -/
theorem Orderly.insert (h : t.Orderly live) {b : Branch}
    (hdetached : b.stage = .prepared ↔ b.owner = 0)
    (howned : b.stage ≠ .prepared → b.owner ∈ live)
    (hsingle : ∀ c y b', b.isOpenOn c = true → t.get? y = some b' → b'.isOpenOn c = true → y = x) :
    Orderly (t.insert x b) live := by
  have hcases {y : Bytes} {b' : Branch} (hy : (t.insert x b).get? y = some b') :
      (y = x ∧ b' = b) ∨ t.get? y = some b' := by
    rw [Table.get?_insert] at hy
    split at hy
    · next hyx => exact Or.inl ⟨hyx, (Option.some.inj hy).symm⟩
    · exact Or.inr hy
  constructor
  · intro y b' hy
    rcases hcases hy with ⟨-, rfl⟩ | hy
    · exact hdetached
    · exact h.detached y b' hy
  · intro y b' hy
    rcases hcases hy with ⟨-, rfl⟩ | hy
    · exact howned
    · exact h.owned y b' hy
  · intro c y z b₁ b₂ hy hz hopen hopen'
    rcases hcases hy with ⟨rfl, rfl⟩ | hold
    · rcases hcases hz with ⟨rfl, -⟩ | hold'
      · rfl
      · exact (hsingle c z b₂ hopen hold' hopen').symm
    · rcases hcases hz with ⟨rfl, rfl⟩ | hold'
      · exact hsingle c y b₁ hopen' hold hopen
      · exact h.single c y z b₁ b₂ hold hold' hopen hopen'

/-- A prepared branch can be put in anywhere, also over another branch. -/
theorem Orderly.insert_detached (h : t.Orderly live) : Orderly (t.insert x .detached) live := by
  refine h.insert (by decide) (fun hb => absurd rfl hb) fun c y b' hopen => ?_
  exact absurd rfl (isOpenOn_iff.mp hopen).2

/-- A branch of a connection is put in, if it has no other one. -/
theorem Orderly.insert_own (h : t.Orderly live) (hc : c ∈ live) (hpos : c ≠ 0) {stage : Stage}
    (hstage : stage ≠ .prepared)
    (honly : ∀ y b, t.get? y = some b → b.isOpenOn c = true → y = x) :
    Orderly (t.insert x ⟨stage, c⟩) live := by
  refine h.insert (iff_of_false hstage hpos) (fun _ => hc) fun c' y b hopen hy hopen' => ?_
  obtain ⟨rfl, -⟩ := isOpenOn_iff.mp hopen
  exact honly y b hy hopen'

/-- The rules of the protocol keep the branches in order. -/
theorem Moves.orderly {verb : Verb} (h : t.Moves c x verb u) (ht : t.Orderly live)
    (hc : c ∈ live) (hpos : c ≠ 0) : u.Orderly live := by
  cases h with
  | start hfree hnew =>
    refine ht.insert_own hc hpos (by decide) fun y b hy hopen => ?_
    rw [hasOpen_eq_false_iff.mp hfree y b hy] at hopen
    cases hopen
  | finish hx =>
    refine ht.insert_own hc hpos (by decide) fun y b hy hopen => ?_
    exact ht.single c y x b _ hy hx hopen (isOpenOn_iff.mpr ⟨rfl, nofun⟩)
  | prepare => exact ht.insert_detached
  | commitOnePhase | commit | rollbackOwn | rollback => exact ht.erase

/-- A connection that opens owns nothing yet. -/
theorem Orderly.connect (h : t.Orderly live) : t.Orderly (c :: live) where
  detached := h.detached
  owned x b hx hb := List.mem_cons_of_mem c (h.owned x b hx hb)
  single := h.single

/-- A connection that closes leaves no branch behind that is not prepared. -/
theorem Orderly.disconnect (h : t.Orderly live) : (t.disconnect c).Orderly (live.erase c) := by
  have hfewer : (t.disconnect c).Orderly live :=
    h.fewer fun y b hy => (get?_of_get?_disconnect hy).1
  refine ⟨hfewer.detached, fun x b hx hb => ?_, hfewer.single⟩
  obtain ⟨-, hopen⟩ := get?_of_get?_disconnect hx
  have hne : b.owner ≠ c := by
    intro heq
    rw [isOpenOn_iff.mpr ⟨heq, hb⟩] at hopen
    cases hopen
  exact (List.mem_erase_of_ne hne).mpr (hfewer.owned x b hx hb)

end Branches

/-! ## Books of the connections -/

/-- The connections that were ever opened, and those that are open. -/
structure Books where
  opened : List ConnectionId := []
  live : List ConnectionId := []
deriving DecidableEq, Repr

/-- The books after an event. -/
def Event.book (e : Engine) (b : Books) : Event → Books
  | .connect =>
    match (Engine.connect.run e).1 with
    | .ok c => ⟨c :: b.opened, c :: b.live⟩
    | .error _ => b
  | .disconnect c => { b with live := b.live.erase c }
  | _ => b

/-- The books after a history. -/
def Books.after (e : Engine) (b : Books) : List Event → Books
  | [] => b
  | event :: history => Books.after (event.apply e) (event.book e b) history

/-- The event addresses no connection but an open one. -/
def Event.Allowed (live : List ConnectionId) : Event → Prop
  | .statement c _ | .disconnect c => c ∈ live
  | _ => True

instance (live : List ConnectionId) : (event : Event) → Decidable (event.Allowed live)
  | .statement c _ | .disconnect c => inferInstanceAs (Decidable (c ∈ live))
  | .connect | .inject _ | .clearInjected | .setAvailable _ | .injectPrepared _ => isTrue trivial

/-- No event of the history addresses a connection that is not open. -/
def Proper (e : Engine) (b : Books) : List Event → Prop
  | [] => True
  | event :: history =>
    event.Allowed b.live ∧ Proper (event.apply e) (event.book e b) history

instance decidableProper : (e : Engine) → (b : Books) → (history : List Event) →
    Decidable (Proper e b history)
  | _, _, [] => isTrue trivial
  | e, b, event :: history =>
    have := decidableProper (event.apply e) (event.book e b) history
    inferInstanceAs (Decidable (_ ∧ _))

/-! ## The engine agrees with the books -/

/-- The engine agrees with the books of its connections. -/
structure Represents (e : Engine) (b : Books) : Prop where
  branches : e.branches.Orderly b.live
  /-- Numbers are handed out in order, the first one being 1. -/
  next : e.nextConnection = b.opened.length + 1
  handedOut : ∀ c ∈ b.opened, 0 < c ∧ c < e.nextConnection
  /-- No number is handed out twice. -/
  unique : b.opened.Nodup
  live_opened : b.live.Sublist b.opened
  count : e.openConnections = b.live.length

variable {e : Engine} {b : Books}

theorem represents_fresh (version : Bytes) : Represents { version } {} where
  branches := Branches.orderly_empty []
  next := rfl
  handedOut _ hc := absurd hc List.not_mem_nil
  unique := List.nodup_nil
  live_opened := List.Sublist.refl []
  count := rfl

theorem Represents.ne_zero (h : Represents e b) {c : ConnectionId} (hc : c ∈ b.live) : c ≠ 0 :=
  (h.handedOut c (h.live_opened.subset hc)).1.ne'

/-- An event that concerns no connection keeps the agreement if it keeps the branches in order. -/
theorem Represents.frame (h : Represents e b) {e' : Engine} (hbranches : e'.branches.Orderly b.live)
    (hnext : e'.nextConnection = e.nextConnection)
    (hcount : e'.openConnections = e.openConnections) : Represents e' b :=
  ⟨hbranches, hnext.trans h.next, fun c hc => hnext ▸ h.handedOut c hc, h.unique, h.live_opened,
    hcount.trans h.count⟩

/-- No statement opens or closes a connection. -/
theorem connections_of_statement (e : Engine) (c : ConnectionId) (sql : Bytes) :
    ((Event.statement c sql).apply e).nextConnection = e.nextConnection ∧
      ((Event.statement c sql).apply e).openConnections = e.openConnections := by
  simp only [Event.apply]
  rcases hr : (run c sql).run e with ⟨f | rows, e'⟩
  · obtain ⟨statements, injected, rfl⟩ := run_error hr
    exact ⟨rfl, rfl⟩
  · obtain ⟨⟨statements, branches, committed, rfl⟩, -⟩ := branches_of_run_ok hr
    exact ⟨rfl, rfl⟩

theorem Represents.statement (h : Represents e b) {c : ConnectionId} (hc : c ∈ b.live)
    (sql : Bytes) : Represents ((Event.statement c sql).apply e) b := by
  obtain ⟨hnext, hcount⟩ := connections_of_statement e c sql
  refine h.frame ?_ hnext hcount
  rcases branches_of_statement e c sql with ⟨verb, xid, rows, -, -, hm⟩ | hb
  · exact hm.orderly h.branches hc (h.ne_zero hc)
  · rw [hb]
    exact h.branches

/-- The number that a connection gets is a new one. -/
theorem Represents.connect (h : Represents e b) :
    Represents (Event.connect.apply e) (Event.connect.book e b) := by
  by_cases ha : e.available = true
  · have hrun : Engine.connect.run e = (.ok e.nextConnection, { e with
        nextConnection := e.nextConnection + 1, openConnections := e.openConnections + 1 }) := by
      show Engine.connect e = _
      rw [Engine.connect, if_pos ha]
    simp only [Event.apply, Event.book, hrun]
    have hnew : e.nextConnection ∉ b.opened := fun hmem => (h.handedOut _ hmem).2.false
    constructor
    · exact h.branches.connect
    · show e.nextConnection + 1 = b.opened.length + 1 + 1
      rw [h.next]
    · intro c hc
      rcases List.mem_cons.mp hc with rfl | hc
      · exact ⟨h.next ▸ Nat.succ_pos _, Nat.lt_succ_self _⟩
      · obtain ⟨hpos, hlt⟩ := h.handedOut c hc
        exact ⟨hpos, Nat.lt_succ_of_lt hlt⟩
    · exact List.nodup_cons.mpr ⟨hnew, h.unique⟩
    · exact h.live_opened.cons_cons _
    · show e.openConnections + 1 = b.live.length + 1
      rw [h.count]
  · have hrun : Engine.connect.run e = (.error unavailable, e) := by
      show Engine.connect e = _
      rw [Engine.connect, if_neg ha]
    simp only [Event.apply, Event.book, hrun]
    exact h

theorem Represents.disconnect (h : Represents e b) {c : ConnectionId} (hc : c ∈ b.live) :
    Represents (e.disconnect c) { b with live := b.live.erase c } where
  branches := h.branches.disconnect
  next := h.next
  handedOut := h.handedOut
  unique := h.unique
  live_opened := List.erase_sublist.trans h.live_opened
  count := by
    show e.openConnections - 1 = (b.live.erase c).length
    rw [h.count, List.length_erase_of_mem hc]

/-- Each event keeps the agreement. -/
theorem Represents.apply (h : Represents e b) {event : Event} (ha : event.Allowed b.live) :
    Represents (event.apply e) (event.book e b) := by
  cases event with
  | statement c sql => exact h.statement ha sql
  | connect => exact h.connect
  | disconnect c => exact h.disconnect ha
  | inject | clearInjected | setAvailable => exact h.frame h.branches rfl rfl
  | injectPrepared xid => exact h.frame h.branches.insert_detached rfl rfl

theorem Represents.after (h : Represents e b) {history : List Event} (hp : Proper e b history) :
    Represents (e.after history) (b.after e history) := by
  induction history generalizing e b with
  | nil => exact h
  | cons event history ih =>
    obtain ⟨ha, hp⟩ := hp
    exact ih (h.apply ha) hp

/-- No event but a `connect` opens a connection. -/
theorem Event.length_opened (e : Engine) (b : Books) (event : Event) :
    (event.book e b).opened.length ≤ b.opened.length + [event].count .connect := by
  cases event with
  | connect =>
    simp only [Event.book]
    split
    · exact le_rfl
    · exact Nat.le_succ _
  | _ => exact Nat.le_add_right _ _

theorem Books.length_opened_after (e : Engine) (b : Books) (history : List Event) :
    (b.after e history).opened.length ≤ b.opened.length + history.count .connect := by
  induction history generalizing e b with
  | nil => exact le_rfl
  | cons event history ih =>
    have hstep := event.length_opened e b
    have hrest := ih (event.apply e) (event.book e b)
    rw [← List.singleton_append, List.count_append]
    exact hrest.trans (by omega)

/-- Words of 64 bits can hold the numbers of the connections and their count, also when one of them
closes. -/
structure Fits (e : Engine) (b : Books) : Prop where
  numbers : ∀ c ∈ b.opened, c < 2 ^ 64
  count : e.openConnections < 2 ^ 64
  /-- A connection that closes was counted, so the count does not go below 0. -/
  close : ∀ c ∈ b.live, (e.disconnect c).openConnections + 1 = e.openConnections

theorem Represents.fits (h : Represents e b) (hfew : b.opened.length < 2 ^ 64) : Fits e b := by
  constructor
  · intro c hc
    have hlt : c < b.opened.length + 1 := h.next ▸ (h.handedOut c hc).2
    exact Nat.lt_of_le_of_lt (Nat.le_of_lt_succ hlt) hfew
  · rw [h.count]
    exact Nat.lt_of_le_of_lt h.live_opened.length_le hfew
  · intro c hc
    have hpos : 0 < e.openConnections := h.count ▸ List.length_pos_of_mem hc
    exact Nat.sub_add_cancel hpos

/-- **The engine agrees with the books** of its connections, whatever happened to it in a proper
history; and as long as fewer connections were asked for than a word can count, words hold what it
counts. -/
theorem represents_after (version : Bytes) (history : List Event)
    (hproper : Proper { version } {} history) (hcount : history.count .connect < 2 ^ 64) :
    Represents (({ version } : Engine).after history)
        (({} : Books).after { version } history) ∧
      Fits (({ version } : Engine).after history) (({} : Books).after { version } history) := by
  have h := (represents_fresh version).after hproper
  have hfew := Books.length_opened_after { version } {} history
  refine ⟨h, h.fits ?_⟩
  rw [List.length_nil, Nat.zero_add] at hfew
  exact Nat.lt_of_le_of_lt hfew hcount

/-- One branch is prepared, one is taken over by a prepared branch that is put in, and one goes away
with its connection; a third connection gets a new number. -/
def turnover : List Event :=
  [.connect, .connect, .statement 1 (ascii "XA START 'a'"), .statement 2 (ascii "XA START 'b'"),
    .injectPrepared (ascii "b"), .statement 2 (ascii "xa start 'c';"),
    .statement 1 (ascii "XA END 'a'"), .setAvailable false, .connect,
    .setAvailable true, .statement 1 (ascii "XA PREPARE 'a'"), .disconnect 2, .connect,
    .statement 3 (ascii "XA START 'd'")]

theorem represents_turnover :
    (({ version := [] } : Engine).after turnover).openConnections = 2 ∧
      (({} : Books).after { version := [] } turnover) = ⟨[3, 2, 1], [3, 1]⟩ ∧
      Represents (({ version := [] } : Engine).after turnover)
        (({} : Books).after { version := [] } turnover) ∧
      Fits (({ version := [] } : Engine).after turnover)
        (({} : Books).after { version := [] } turnover) :=
  ⟨by decide, by decide, represents_after [] turnover (by decide) (by decide)⟩

end Coordinator.Engine

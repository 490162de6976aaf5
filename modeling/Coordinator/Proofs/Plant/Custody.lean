import Coordinator.Plant
import Coordinator.Proofs.Engine.Run
import Mathlib.Data.List.Nodup

/-! # Custody of connections

Of the connections that a pool has open, some wait in the pool and the others are in somebody's
hands: a **loan** is a connection in somebody's hands, with the branch it may have on the engine.
`Custody` is the invariant that ties three records kept apart — the pool, the client's side of the
connections, and the engine's branches — to the loans that are out:

* no connection is twice among the waiting and the lent ones, and the pool and the engine count as
  many connections as there are;
* an unprepared branch belongs to a lent connection, and the loan names its xid;
* where nothing else settles branches (`exact`), every branch that a loan names is on the engine as
  the loan has it, and no two loans name one xid.

Each lemma of this file is what one move makes of the loans: a connection is lent from the waiting
ones or opened, it goes back clean, it is closed with whatever it has, or a statement on it
succeeds and moves a branch. -/
namespace Coordinator.Plant

open Engine (Branch Branches ConnectionId)

/-- A connection in somebody's hands, and the branch it may have on the engine. -/
structure Loan where
  number : ConnectionId
  branch : Option (Bytes × Branch) := none
deriving DecidableEq, Repr

/-- The xid of the branch of a loan. -/
def Loan.xid? (l : Loan) : Option Bytes := l.branch.map Prod.fst

/-- The line of a pool to the connection with a number. -/
def lineOf (r : PoolRef) (n : ConnectionId) : Line := ⟨r.target, n, some r⟩

/-- The numbers of all connections, waiting and lent. -/
def numbers (pool : Pool Line) (loans : List Loan) : List ConnectionId :=
  pool.idle.map Line.number ++ loans.map Loan.number

/-- An engine and its connections once there is one more. -/
def connected (host : Host) : Host where
  engine := { host.engine with
    nextConnection := host.engine.nextConnection + 1
    openConnections := host.engine.openConnections + 1 }
  links := host.links.insert host.engine.nextConnection {}

/-- The pool `r`, its connections and the engine agree with the loans that are out. -/
structure Custody (r : PoolRef) (exact : Prop) (loans : List Loan) (host : Host)
    (pool : Pool Line) : Prop where
  idle : ∀ l ∈ pool.idle, l = lineOf r l.number
  distinct : (numbers pool loans).Nodup
  live : pool.live = pool.idle.length + loans.length
  opened : host.engine.openConnections = pool.live
  known : ∀ n ∈ numbers pool loans, n < host.engine.nextConnection ∧ host.links.contains n
  detached : host.engine.branches.Detached
  owned : ∀ x b, host.engine.branches.get? x = some b → b.stage ≠ .prepared →
    ∃ loan ∈ loans, loan.number = b.owner ∧ loan.xid? = some x
  agree : exact → ∀ loan ∈ loans, ∀ x b, loan.branch = some (x, b) →
    host.engine.branches.get? x = some b
  apart : exact → (loans.filterMap Loan.xid?).Nodup

namespace Custody

variable {r : PoolRef} {exact : Prop} {loans loans' : List Loan} {loan : Loan} {host : Host}
  {pool : Pool Line} {n : ConnectionId} {x : Bytes}

theorem mem_numbers_lent (h : loan ∈ loans) : loan.number ∈ numbers pool loans :=
  List.mem_append_right _ (List.mem_map_of_mem h)

/-- The order of the loans does not matter. -/
theorem perm (h : Custody r exact loans host pool) (hp : loans.Perm loans') :
    Custody r exact loans' host pool where
  idle := h.idle
  distinct := ((hp.map Loan.number).append_left _).nodup_iff.mp h.distinct
  live := hp.length_eq ▸ h.live
  opened := h.opened
  known n hn := h.known n (((hp.map Loan.number).append_left _).mem_iff.mpr hn)
  detached := h.detached
  owned x b hx hb := by
    obtain ⟨loan, hl, hloan⟩ := h.owned x b hx hb
    exact ⟨loan, hp.mem_iff.mp hl, hloan⟩
  agree he loan hl := h.agree he loan (hp.mem_iff.mpr hl)
  apart he := (hp.filterMap _).nodup_iff.mp (h.apart he)

/-! ## Loans and branches -/

/-- Two loans of one connection are one. -/
theorem loan_eq (h : Custody r exact loans host pool) {loan' : Loan} (hl : loan ∈ loans)
    (hl' : loan' ∈ loans) (hn : loan.number = loan'.number) : loan = loan' :=
  List.inj_on_of_nodup_map (List.nodup_append.mp h.distinct).2.1 hl hl' hn

/-- An unprepared branch on a lent connection has the xid that the loan names. -/
theorem xid_of_owned (h : Custody r exact loans host pool) (hl : loan ∈ loans) {b : Branch}
    (hx : host.engine.branches.get? x = some b) (hb : b.isOpenOn loan.number = true) :
    loan.xid? = some x := by
  obtain ⟨hn, hs⟩ := Branches.isOpenOn_iff.mp hb
  obtain ⟨loan', hl', hnumber, hxid⟩ := h.owned x b hx hs
  obtain rfl := h.loan_eq hl' hl (hnumber.trans hn)
  exact hxid

/-- A lent connection whose loan names no branch has none that is unprepared. -/
theorem free_of_clean (h : Custody r exact (⟨n, none⟩ :: loans) host pool) :
    host.engine.branches.hasOpen n = false := by
  refine Branches.hasOpen_eq_false_iff.mpr fun x b hx => Bool.eq_false_iff.mpr fun hb => ?_
  have := h.xid_of_owned List.mem_cons_self hx hb
  cases this

/-- A connection that is not on loan has no unprepared branch. -/
theorem free_of_unlent (h : Custody r exact loans host pool)
    (hn : ∀ loan ∈ loans, loan.number ≠ n) : host.engine.branches.hasOpen n = false := by
  refine Branches.hasOpen_eq_false_iff.mpr fun x b hx => Bool.eq_false_iff.mpr fun hb => ?_
  obtain ⟨howner, hs⟩ := Branches.isOpenOn_iff.mp hb
  obtain ⟨loan, hloan, hnumber, -⟩ := h.owned x b hx hs
  exact hn loan hloan (hnumber.trans howner)

/-- A waiting connection has no unprepared branch. -/
theorem free_of_idle (h : Custody r exact loans host pool) {l : Line} (hl : l ∈ pool.idle) :
    host.engine.branches.hasOpen l.number = false :=
  h.free_of_unlent fun _ hloan hnumber => (List.nodup_append.mp h.distinct).2.2 _
    (List.mem_map_of_mem hl) _ (List.mem_map_of_mem hloan) hnumber.symm

/-- A connection is lent once. -/
theorem number_ne_of_lent (h : Custody r exact (loan :: loans) host pool) {loan' : Loan}
    (hl : loan' ∈ loans) : loan'.number ≠ loan.number := fun heq =>
  (List.nodup_cons.mp (List.nodup_append.mp h.distinct).2.1).1
    (List.mem_map.mpr ⟨loan', hl, heq⟩)

/-! ## Connections lent and given back -/

/-- A waiting connection is lent. -/
theorem lend (h : Custody r exact loans host pool) {l : Line} {rest : List Line}
    (hidle : pool.idle = l :: rest) :
    Custody r exact (⟨l.number, none⟩ :: loans) host { pool with idle := rest } := by
  have hperm : (numbers { pool with idle := rest } (⟨l.number, none⟩ :: loans)).Perm
      (numbers pool loans) := by
    rw [numbers, numbers, hidle]
    exact List.perm_middle
  refine
    { idle := fun l' hl' => h.idle l' (hidle ▸ List.mem_cons_of_mem _ hl')
      distinct := hperm.nodup_iff.mpr h.distinct
      live := ?_
      opened := h.opened
      known := fun n hn => h.known n (hperm.mem_iff.mp hn)
      detached := h.detached
      owned := fun x b hx hb => ?_
      agree := fun he loan hl x b hb => ?_
      apart := h.apart }
  · have := h.live
    rw [hidle] at this
    simp only [List.length_cons] at this ⊢
    omega
  · obtain ⟨loan, hl, hloan⟩ := h.owned x b hx hb
    exact ⟨loan, List.mem_cons_of_mem _ hl, hloan⟩
  · rcases List.mem_cons.mp hl with rfl | hl
    · cases hb
    · exact h.agree he loan hl x b hb

/-- A connection without a branch waits again. -/
theorem giveBack (h : Custody r exact (⟨n, none⟩ :: loans) host pool) :
    Custody r exact loans host { pool with idle := lineOf r n :: pool.idle } := by
  have hperm : (numbers { pool with idle := lineOf r n :: pool.idle } loans).Perm
      (numbers pool (⟨n, none⟩ :: loans)) := List.perm_middle.symm
  refine
    { idle := fun l hl => ?_
      distinct := hperm.nodup_iff.mpr h.distinct
      live := ?_
      opened := h.opened
      known := fun n hn => h.known n (hperm.mem_iff.mp hn)
      detached := h.detached
      owned := fun x b hx hb => ?_
      agree := fun he loan hl => h.agree he loan (List.mem_cons_of_mem _ hl)
      apart := h.apart }
  · rcases List.mem_cons.mp hl with rfl | hl
    · rfl
    · exact h.idle l hl
  · have := h.live
    simp only [List.length_cons] at this ⊢
    omega
  · obtain ⟨loan, hl, hnumber, hxid⟩ := h.owned x b hx hb
    rcases List.mem_cons.mp hl with rfl | hl
    · cases hxid
    · exact ⟨loan, hl, hnumber, hxid⟩

/-- A lent connection is closed, and the branch it has not prepared goes with it. -/
theorem close (h : Custody r exact (loan :: loans) host pool) :
    Custody r exact loans (host.close loan.number) { pool with live := pool.live - 1 } := by
  have hnodup : (loan.number :: numbers pool loans).Nodup :=
    List.perm_middle.nodup_iff.mp h.distinct
  have hother : ∀ m ∈ numbers pool loans, m ≠ loan.number := fun m hm heq =>
    (List.nodup_cons.mp hnodup).1 (heq ▸ hm)
  have hlive := h.live
  simp only [List.length_cons] at hlive
  refine
    { idle := h.idle
      distinct := (List.nodup_cons.mp hnodup).2
      live := by show pool.live - 1 = pool.idle.length + loans.length; omega
      opened := congrArg (· - 1) h.opened
      known := fun m hm => ?_
      detached := h.detached.disconnect
      owned := fun x b hx hb => ?_
      agree := fun he loan' hl x b hb => ?_
      apart := fun he => ?_ }
  · -- The client forgets the connection that went, and it is none of the others.
    have hm' : m ∈ numbers pool (loan :: loans) :=
      List.perm_middle.mem_iff.mpr (List.mem_cons_of_mem _ hm)
    obtain ⟨hnext, hlink⟩ := h.known m hm'
    refine ⟨hnext, ?_⟩
    show (host.links.erase loan.number).contains m = true
    rw [Table.contains, Table.get?_erase, if_neg (hother m hm)]
    exact hlink
  · -- A branch that is left has another owner than the connection that went.
    obtain ⟨hx, hclosed⟩ := Branches.get?_of_get?_disconnect hx
    obtain ⟨loan', hl, hnumber, hxid⟩ := h.owned x b hx hb
    rcases List.mem_cons.mp hl with rfl | hl
    · exact absurd (Branches.isOpenOn_iff.mpr ⟨hnumber.symm, hb⟩) (Bool.eq_false_iff.mp hclosed)
    · exact ⟨loan', hl, hnumber, hxid⟩
  · have hx := h.agree he loan' (List.mem_cons_of_mem _ hl) x b hb
    refine Branches.get?_disconnect_of_kept hx (Bool.eq_false_iff.mpr fun hopen => ?_)
    -- Two loans would name the xid of the branch that is lost.
    have hxid := h.xid_of_owned List.mem_cons_self hx hopen
    have hnodup := h.apart he
    rw [List.filterMap_cons_some hxid] at hnodup
    refine (List.nodup_cons.mp hnodup).1 (List.mem_filterMap.mpr ⟨loan', hl, ?_⟩)
    rw [Loan.xid?, hb]; rfl
  · have := h.apart he
    cases hxid : loan.xid? with
    | none => rwa [List.filterMap_cons_none hxid] at this
    | some x => rw [List.filterMap_cons_some hxid] at this; exact (List.nodup_cons.mp this).2

/-- A new connection is opened and lent; the engine numbers it. -/
theorem connect (h : Custody r exact loans host pool) :
    Custody r exact (⟨host.engine.nextConnection, none⟩ :: loans) (connected host)
      { pool with live := pool.live + 1 } := by
  have hperm : (numbers pool (⟨host.engine.nextConnection, none⟩ :: loans)).Perm
      (host.engine.nextConnection :: numbers pool loans) := List.perm_middle
  have hnew : host.engine.nextConnection ∉ numbers pool loans := fun hm =>
    Nat.lt_irrefl _ (h.known _ hm).1
  refine
    { idle := h.idle
      distinct := hperm.nodup_iff.mpr (List.nodup_cons.mpr ⟨hnew, h.distinct⟩)
      live := ?_
      opened := congrArg (· + 1) h.opened
      known := fun m hm => ?_
      detached := h.detached
      owned := fun x b hx hb => ?_
      agree := fun he loan hl x b hb => ?_
      apart := h.apart }
  · have := h.live
    simp only [List.length_cons]
    omega
  · show m < host.engine.nextConnection + 1 ∧
      (host.links.insert host.engine.nextConnection {}).contains m = true
    rw [Table.contains, Table.get?_insert]
    rcases List.mem_cons.mp (hperm.mem_iff.mp hm) with rfl | hm
    · exact ⟨Nat.lt_succ_self _, by rw [if_pos rfl]; rfl⟩
    · obtain ⟨hlt, hlink⟩ := h.known m hm
      rw [if_neg (Nat.ne_of_lt hlt)]
      exact ⟨Nat.lt_succ_of_lt hlt, hlink⟩
  · obtain ⟨loan, hl, hloan⟩ := h.owned x b hx hb
    exact ⟨loan, List.mem_cons_of_mem _ hl, hloan⟩
  · rcases List.mem_cons.mp hl with rfl | hl
    · cases hb
    · exact h.agree he loan hl x b hb

/-- Waiting connections taken off the front of the list are closed, one after the other. -/
theorem discard (h : Custody r exact loans host pool) {bad rest : List Line}
    (hidle : pool.idle = bad ++ rest) :
    Custody r exact loans (bad.foldl (fun host l => host.close l.number) host)
      { pool with idle := rest, live := pool.live - bad.length } := by
  induction bad generalizing host pool with
  | nil => simp only [List.nil_append] at hidle; subst hidle; exact h
  | cons l bad ih =>
    have hnext := ih (h.lend hidle).close rfl
    simp only [Nat.sub_sub, Nat.add_comm 1] at hnext
    exact hnext

/-- What a caller in want of a connection gets, once the unhealthy ones taken off are closed: a
waiting connection, or a place that is not yet a loan. -/
theorem checkOut (h : Custody r exact loans host pool) (healthy : Line → Bool) :
    let host' := (pool.checkOut healthy).2.1.foldl (fun host l => host.close l.number) host
    match pool.checkOut healthy with
    | (.reuse l, _, pool') => l = lineOf r l.number ∧ healthy l = true ∧
        Custody r exact (⟨l.number, none⟩ :: loans) host' pool'
    | (.reserved, _, pool') => ∃ pool₀, pool' = { pool₀ with live := pool₀.live + 1 } ∧
        Custody r exact loans host' pool₀
    | (.exhausted, _, pool') => Custody r exact loans host' pool' := by
  have hsplit := List.takeWhile_append_dropWhile (p := fun l => !healthy l) (l := pool.idle)
  have hrest := h.discard hsplit.symm
  simp only [Pool.checkOut]
  cases hdrop : pool.idle.dropWhile fun l => !healthy l with
  | nil =>
    rw [hdrop] at hrest
    simp only
    -- All that waited was closed, which made room, unless the pool was full of lent ones.
    by_cases hfree : pool.live - (pool.idle.takeWhile fun l => !healthy l).length < pool.capacity
    · rw [if_pos hfree]
      exact ⟨_, rfl, hrest⟩
    · rw [if_neg hfree]
      exact hrest
  | cons l rest =>
    rw [hdrop] at hrest hsplit
    refine ⟨h.idle l (hsplit ▸ List.mem_append_right _ List.mem_cons_self), ?_, hrest.lend rfl⟩
    have hhead := List.head?_dropWhile_not (fun l => !healthy l) pool.idle
    rw [hdrop] at hhead
    simpa using hhead

/-! ## Changes that touch no branch -/

/-- What a connection is marked with does not matter. -/
theorem relink (h : Custody r exact loans host pool) {links : Table ConnectionId Link}
    (hl : ∀ m, links.contains m = host.links.contains m) :
    Custody r exact loans { host with links } pool :=
  { h with known := fun m hm => ⟨(h.known m hm).1, (hl m).trans (h.known m hm).2⟩ }

/-- Neither do the statements noted, the failures in store, and the commits counted. -/
theorem note (h : Custody r exact loans host pool) (statements : List Bytes)
    (injected : List Engine.Injected) (committed : Nat) :
    Custody r exact loans
      { host with engine := { host.engine with statements, injected, committed } } pool :=
  { h with }

/-- Nor whether the engine is there. -/
theorem setAvailable (h : Custody r exact loans host pool) (on : Bool) :
    Custody r exact loans { host with engine := host.engine.setAvailable on } pool :=
  { h with }

/-- A prepared branch put in from outside belongs to nobody; where loans are exact, it might take
the place of one that a loan names. -/
theorem injectPrepared (h : Custody r exact loans host pool) (he : ¬ exact) (x : Bytes) :
    Custody r exact loans { host with engine := host.engine.injectPrepared x } pool :=
  { h with
    detached := h.detached.insert fun _ => rfl
    owned := fun y b hy hb => by
      change (host.engine.branches.insert x .detached).get? y = some b at hy
      rw [Table.get?_insert] at hy
      split at hy
      · cases hy
        exact absurd rfl hb
      · exact h.owned y b hy hb
    agree := fun h' => absurd h' he }

/-- A pool without connections is in custody of nobody. -/
theorem of_new (r : PoolRef) (version name : Bytes) (capacity : Nat) (timeout : Int64) :
    Custody r exact [] { engine := { version } } (.new name capacity timeout) where
  idle l hl := by cases hl
  distinct := List.nodup_nil
  live := rfl
  opened := rfl
  known n hn := by cases hn
  detached := Branches.detached_empty
  owned x b hx := by cases hx
  agree he loan hl := by cases hl
  apart he := List.nodup_nil

/-! ## Branches that move -/

/-- The xid that a loan names is named by no other one. -/
theorem xid_ne (h : Custody r exact (loan :: loans) host pool) (hx : loan.xid? = some x) :
    exact → ∀ loan' ∈ loans, loan'.xid? ≠ some x := by
  intro he loan' hl hx'
  have hnodup := h.apart he
  rw [List.filterMap_cons_some hx] at hnodup
  exact (List.nodup_cons.mp hnodup).1 (List.mem_filterMap.mpr ⟨loan', hl, hx'⟩)

/-- An xid without a branch is named by no loan. -/
theorem xid_ne_of_absent (h : Custody r exact loans host pool)
    (hx : host.engine.branches.get? x = none) : exact → ∀ loan ∈ loans, loan.xid? ≠ some x := by
  intro he loan hl hxid
  obtain ⟨⟨y, b⟩, hb, rfl⟩ := Option.map_eq_some_iff.mp hxid
  have := h.agree he loan hl y b hb
  rw [hx] at this
  cases this

/-- The branch of a loan becomes `b`: one of its connection, or detached. -/
theorem setBranch {o : Option (Bytes × Branch)} {b : Branch} {branches : Branches}
    (h : Custody r exact (⟨n, o⟩ :: loans) host pool)
    (hown : ∀ y, Loan.xid? ⟨n, o⟩ = some y → y = x)
    (hother : exact → ∀ loan ∈ loans, loan.xid? ≠ some x)
    (hb : b.stage ≠ .prepared ∧ b.owner = n ∨ b = .detached)
    (hbranches : branches = host.engine.branches.insert x b) (statements : List Bytes)
    (committed : Nat) : Custody r exact (⟨n, some (x, b)⟩ :: loans)
      { host with engine := { host.engine with statements, branches, committed } } pool := by
  subst hbranches
  refine
    { h with
      detached := h.detached.insert fun hp => hb.resolve_left fun hn => hn.1 hp
      owned := fun y b' hy hb' => ?_
      agree := fun he loan hl y b' hb' => ?_
      apart := fun he => ?_ }
  · change (host.engine.branches.insert x b).get? y = some b' at hy
    rw [Table.get?_insert] at hy
    split at hy
    · next hxy =>
      obtain rfl := Option.some.inj hy
      rcases hb with ⟨-, hn⟩ | rfl
      · exact ⟨_, List.mem_cons_self, hn.symm, congrArg some hxy.symm⟩
      · exact absurd rfl hb'
    · next hxy =>
      obtain ⟨loan, hl, hnumber, hxid⟩ := h.owned y b' hy hb'
      rcases List.mem_cons.mp hl with rfl | hl
      · exact absurd (hown y hxid) hxy
      · exact ⟨loan, List.mem_cons_of_mem _ hl, hnumber, hxid⟩
  · show (host.engine.branches.insert x b).get? y = some b'
    rw [Table.get?_insert]
    rcases List.mem_cons.mp hl with rfl | hl
    · obtain ⟨rfl, rfl⟩ := Prod.mk.inj (Option.some.inj hb')
      rw [if_pos rfl]
    · -- The other loans name other xids, whose branches are as they were.
      have hxy : y ≠ x := fun hxy => hother he loan hl (by rw [Loan.xid?, hb', hxy]; rfl)
      rw [if_neg hxy]
      exact h.agree he loan (List.mem_cons_of_mem _ hl) y b' hb'
  · have hxid : Loan.xid? ⟨n, some (x, b)⟩ = some x := rfl
    rw [List.filterMap_cons_some hxid, List.nodup_cons]
    refine ⟨fun hm => ?_, ?_⟩
    · obtain ⟨loan, hl, hx⟩ := List.mem_filterMap.mp hm
      exact hother he loan hl hx
    · exact (h.apart he).sublist ((List.sublist_cons_self _ _).filterMap _)

/-- The branch of a loan is gone, or a prepared branch that no loan names. -/
theorem eraseBranch {o : Option (Bytes × Branch)} {branches : Branches}
    (h : Custody r exact (⟨n, o⟩ :: loans) host pool)
    (hown : ∀ y, Loan.xid? ⟨n, o⟩ = some y → y = x)
    (hother : exact → ∀ loan ∈ loans, loan.xid? ≠ some x)
    (hbranches : branches = host.engine.branches.erase x) (statements : List Bytes)
    (committed : Nat) : Custody r exact (⟨n, none⟩ :: loans)
      { host with engine := { host.engine with statements, branches, committed } } pool := by
  subst hbranches
  refine
    { h with
      detached := h.detached.erase
      owned := fun y b' hy hb' => ?_
      agree := fun he loan hl y b' hb' => ?_
      apart := fun he => (h.apart he).sublist ((List.sublist_cons_self _ _).filterMap _) }
  · change (host.engine.branches.erase x).get? y = some b' at hy
    rw [Table.get?_erase] at hy
    split at hy
    · cases hy
    · next hxy =>
      obtain ⟨loan, hl, hnumber, hxid⟩ := h.owned y b' hy hb'
      rcases List.mem_cons.mp hl with rfl | hl
      · exact absurd (hown y hxid) hxy
      · exact ⟨loan, List.mem_cons_of_mem _ hl, hnumber, hxid⟩
  · show (host.engine.branches.erase x).get? y = some b'
    rcases List.mem_cons.mp hl with rfl | hl
    · cases hb'
    · have hxy : y ≠ x := fun hxy => hother he loan hl (by rw [Loan.xid?, hb', hxy]; rfl)
      rw [Table.get?_erase, if_neg hxy]
      exact h.agree he loan (List.mem_cons_of_mem _ hl) y b' hb'

end Custody
end Coordinator.Plant

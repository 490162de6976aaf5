import Coordinator.Proofs.Pool.Steps
import Coordinator.Proofs.Table
import Mathlib.Algebra.Group.Prod
import Mathlib.Algebra.Ring.Int.Defs

/-! # Customers of a pool that interleave

Any number of customers use a pool, and their steps interleave.  Connections turn healthy and
unhealthy as they like, opening one may fail, and whoever has a connection may poison it.

**The pool keeps its books through all of it** (`accounts_run`).  The number of places taken is that
of the idle connections, of those handed out and of those being opened, never more than there are
places and never less than what a step is about to free.  No connection is in two places, and none
that waits is poisoned.

A customer who is sent off with a fault has left no trace in the books.  Others change them at the
same time, so what counts is what the customer's own steps changed (`changes`): at every moment they
add up to what the customer has (`changes_run`), which is nothing once it is gone. -/
namespace Coordinator.Pool

/-! ## The shared part -/

/-- What the customers of a pool share. -/
structure Yard where
  pool : Pool Nat
  /-- How many connections were opened so far. -/
  opened : Nat := 0
  poisoned : List Nat := []

/-- What the surroundings do in a step. -/
structure Answer where
  healthy : Nat → Bool
  opens : Except Fault Unit
  /-- Whether the time to wait is up. -/
  late : Bool

namespace Yard

def poolCell : Cell Yard (Pool Nat) := ⟨pool, fun pool y => { y with pool }⟩

def poison (c : Nat) (y : Yard) : Yard := { y with poisoned := c :: y.poisoned }

/-- The connections, as a customer meets them when the surroundings do so. -/
def backend (a : Answer) : Backend Yard Nat where
  connect y := match a.opens with
    | .ok () => (.ok y.opened, { y with opened := y.opened + 1 })
    | .error f => (.error f, y)
  close _ y := y
  isHealthy c _ := a.healthy c
  isPoisoned c y := y.poisoned.contains c
  poison := poison
  execute _ _ y := (.ok (), y)
  query _ _ _ y := (.ok [], y)
  placeholders := .questionMark

def site (a : Answer) : Site Yard Nat := ⟨poolCell, backend a, fun _ y => y⟩

end Yard

/-- A pool and its customers. -/
structure Traffic where
  yard : Yard
  customers : Table Nat (Phase Nat) := ∅
  /-- How many customers came so far. -/
  came : Nat := 0
  /-- Who left, and how. -/
  left : List (Nat × Except Fault Unit) := []

/-- A customer comes, takes a step, or poisons the connection it has. -/
inductive Step
  | arrive
  | advance (i : Nat) (a : Answer)
  | poison (i : Nat)

namespace Traffic

/-- A new pool without customers. -/
def new (name : Bytes) (capacity : Nat) (timeout : Int64) : Traffic :=
  { yard := { pool := .new name capacity timeout } }

/-- What is left of a customer after a step. -/
def settle (w : Traffic) (i : Nat) : Next Nat × Yard → Traffic
  | (.ended e, yard) =>
    { w with yard, customers := w.customers.erase i, left := (i, e) :: w.left }
  | (.goesOn φ, yard) => { w with yard, customers := w.customers.insert i φ }

def step (w : Traffic) : Step → Traffic
  | .arrive => { w with customers := w.customers.insert w.came .look, came := w.came + 1 }
  | .advance i a =>
    match w.customers.get? i with
    | none => w
    | some φ => w.settle i ((Yard.site a).advance a.late φ w.yard)
  | .poison i =>
    match w.customers.get? i with
    | some (.holding c) => { w with yard := w.yard.poison c }
    | _ => w

def run (w : Traffic) (steps : List Step) : Traffic := steps.foldl step w

end Traffic

/-! ## What customers have -/

namespace Phase

/-- The connection that a customer has. -/
def loan? : Phase Nat → Option Nat
  | holding c | returning c _ => some c
  | _ => none

/-- The place that is held for a customer while its connection is opened. -/
def place? : Phase Nat → Option Unit
  | opening | failed _ => some ()
  | _ => none

/-- How many places the next step is about to free. -/
def frees (healthy : Nat → Bool) (pool : Pool Nat) : Phase Nat → Nat
  | look | wait => (pool.checkOut healthy).2.1.length
  | failed _ => 1
  | returning _ reusable => if reusable then 0 else 1
  | _ => 0

/-- What a customer has: connections and places held. -/
def share (φ : Phase Nat) : Int × Int := (φ.loan?.toList.length, φ.place?.toList.length)

end Phase

namespace Next

/-- The phase of a customer after a step, unless the step was its last. -/
def phase? : Next Nat → Option (Phase Nat)
  | ended _ => none
  | goesOn φ => some φ

def loan? (n : Next Nat) : Option Nat := n.phase?.bind Phase.loan?

def place? (n : Next Nat) : Option Unit := n.phase?.bind Phase.place?

variable (e : Except Fault Unit) (φ : Phase Nat)

@[simp] theorem loan?_ended : (ended e).loan? = none := rfl
@[simp] theorem place?_ended : (ended e).place? = none := rfl
@[simp] theorem loan?_goesOn : (goesOn φ).loan? = φ.loan? := rfl
@[simp] theorem place?_goesOn : (goesOn φ).place? = φ.place? := rfl

end Next

namespace Traffic

/-- The connections handed out. -/
def lent (w : Traffic) : List Nat := w.customers.values.filterMap Phase.loan?

/-- The number of places held for connections being opened. -/
def reserved (w : Traffic) : Nat := (w.customers.values.filterMap Phase.place?).length

/-- The numbers of connections handed out and of places held. -/
def tally (w : Traffic) : Int × Int := (w.lent.length, w.reserved)

/-- What a customer has, which is nothing before it comes and after it left. -/
def share (w : Traffic) (i : Nat) : Int × Int := (w.customers.get? i).elim 0 Phase.share

/-- The customer who takes a step. -/
def mover (w : Traffic) : Step → Nat
  | .arrive => w.came
  | .advance i _ | .poison i => i

/-- What the steps of a customer change about the numbers of connections handed out and of places
held, all in all. -/
def changes (i : Nat) (w : Traffic) : List Step → Int × Int
  | [] => 0
  | what :: steps =>
    (if w.mover what = i then (w.step what).tally - w.tally else 0) + changes i (w.step what) steps

end Traffic

/-! ## What a step can do -/

/-- What a step of a customer makes of what is shared. -/
inductive Effect (φ : Phase Nat) (y : Yard) : Next Nat → Yard → Prop
  /-- An idle connection was lent. -/
  | lent {bad rest : List Nat} {c : Nat} (hloan : φ.loan? = none) (hplace : φ.place? = none)
      (hidle : y.pool.idle = bad ++ c :: rest) :
      Effect φ y (.goesOn (.holding c))
        { y with pool := { y.pool with idle := rest, live := y.pool.live - bad.length } }
  /-- No idle connection was left, and a place was taken. -/
  | reserved (hloan : φ.loan? = none) (hplace : φ.place? = none)
      (hroom : y.pool.live - y.pool.idle.length < y.pool.capacity) :
      Effect φ y (.goesOn .opening)
        { y with pool := { y.pool with idle := [], live := y.pool.live - y.pool.idle.length + 1 } }
  /-- No idle connection was left, and no place. -/
  | full (hloan : φ.loan? = none) (hplace : φ.place? = none) :
      Effect φ y (.goesOn .wait)
        { y with pool := { y.pool with idle := [], live := y.pool.live - y.pool.idle.length } }
  /-- Nothing that matters to others happened. -/
  | passed (next : Next Nat) (hloan : next.loan? = φ.loan?) (hplace : next.place? = φ.place?)
      (hclean : ∀ c, next.phase? = some (.returning c true) → c ∉ y.poisoned) : Effect φ y next y
  /-- A connection was opened for the place. -/
  | opened (hloan : φ.loan? = none) (hplace : φ.place? = some ()) :
      Effect φ y (.goesOn (.holding y.opened)) { y with opened := y.opened + 1 }
  /-- The place for a connection that could not be opened was given up. -/
  | vacated (f : Fault) (hloan : φ.loan? = none) (hplace : φ.place? = some ()) :
      Effect φ y (.ended (.error f)) { y with pool := { y.pool with live := y.pool.live - 1 } }
  /-- A connection came back. -/
  | returned (c : Nat) (hφ : φ = .returning c true) :
      Effect φ y (.ended (.ok ())) { y with pool := { y.pool with idle := c :: y.pool.idle } }
  /-- A connection came back that is not to be lent again. -/
  | discarded (c : Nat) (hφ : φ = .returning c false) :
      Effect φ y (.goesOn (.closing c)) { y with pool := { y.pool with live := y.pool.live - 1 } }

section Effect
variable {a : Answer} {φ : Phase Nat} {y y' : Yard} {next : Next Nat}

theorem lookUp_effect (hloan : φ.loan? = none) (hplace : φ.place? = none) :
    Effect φ y ((Yard.site a).lookUp y).1 ((Yard.site a).lookUp y).2 := by
  rcases hout : y.pool.checkOut a.healthy with ⟨outcome, bad, pool⟩
  have hlook : (Yard.site a).lookUp y = (.goesOn outcome.phase, { y with pool }) := by
    refine (Site.lookUp_eq hout).trans ?_
    -- Closing connections is of no concern here.
    exact congrArg (Prod.mk _) (List.foldl_fixed' (fun _ => rfl) bad)
  have hchecked := checkOut_checkedOut a.healthy y.pool
  rw [hout] at hchecked
  rw [hlook]
  cases hchecked with
  | reuse hidle hbad hc => exact .lent hloan hplace hidle
  | reserved hbad hroom => exact .reserved hloan hplace hroom
  | exhausted hbad hfull => exact .full hloan hplace

/-- **All a step can do.** -/
theorem effect_advance :
    Effect φ y ((Yard.site a).advance a.late φ y).1 ((Yard.site a).advance a.late φ y).2 := by
  cases φ with
  | look => exact lookUp_effect rfl rfl
  | wait =>
    unfold Site.advance
    dsimp only
    split
    · exact lookUp_effect rfl rfl
    · split
      · exact .passed _ rfl rfl nofun
      · exact .passed _ rfl rfl nofun
  | opening =>
    obtain ⟨healthy, opens, late⟩ := a
    cases opens with
    | ok u => exact .opened rfl rfl
    | error f => exact .passed _ rfl rfl nofun
  | failed f => exact .vacated f rfl rfl
  | holding c =>
    refine .passed _ rfl rfl fun c' hc' => ?_
    obtain ⟨rfl, hreusable⟩ := Phase.returning.inj (Option.some.inj hc')
    have hclean : (!y.poisoned.contains c) = true := (Bool.and_eq_true_iff.mp hreusable).1
    simpa using hclean
  | returning c reusable =>
    cases reusable with
    | true => exact .returned c rfl
    | false => exact .discarded c rfl
  | closing c => exact .passed _ rfl rfl nofun

/-- A step moves places between the idle connections and the customer, takes one or frees some. -/
theorem Effect.live (h : Effect φ y next y') (others : Nat) (hlive : y.pool.live =
      y.pool.idle.length + φ.loan?.toList.length + φ.place?.toList.length + others) :
    y'.pool.live =
      y'.pool.idle.length + next.loan?.toList.length + next.place?.toList.length + others := by
  cases h with
  | lent hloan hplace hidle =>
    rw [hloan, hplace, hidle] at hlive
    simp [Phase.loan?, Phase.place?] at hlive ⊢
    omega
  | reserved hloan hplace | full hloan hplace | opened hloan hplace | vacated f hloan hplace =>
    rw [hloan, hplace] at hlive
    simp [Phase.loan?, Phase.place?] at hlive ⊢
    omega
  | passed _ hloan hplace =>
    rw [hloan, hplace]
    exact hlive
  | returned c hφ | discarded c hφ =>
    subst hφ
    simp [Phase.loan?, Phase.place?] at hlive ⊢
    omega

theorem Effect.le (h : Effect φ y next y') (hle : y.pool.live ≤ y.pool.capacity) :
    y'.pool.live ≤ y'.pool.capacity := by
  cases h with
  | lent | full | vacated | discarded => exact (Nat.sub_le _ _).trans hle
  | reserved hloan hplace hroom => exact hroom
  | passed | opened | returned => exact hle

/-- Connections stay where they are, go from the pool to the customer or back, or go away; only one
that is opened is new. -/
theorem Effect.balance (h : Effect φ y next y') (n : Nat) :
    y'.pool.idle.count n + next.loan?.toList.count n + (List.range y.opened).count n ≤
      y.pool.idle.count n + φ.loan?.toList.count n + (List.range y'.opened).count n := by
  cases h with
  | lent hloan hplace hidle =>
    rw [hloan, hidle]
    simp [Phase.loan?, List.count_cons]
  | reserved hloan | full hloan | vacated f hloan =>
    rw [hloan]
    simp [Phase.loan?]
  | passed _ hloan => rw [hloan]
  | opened hloan =>
    rw [hloan, List.range_succ]
    simp [Phase.loan?]
    omega
  | returned c hφ | discarded c hφ =>
    subst hφ
    simp [Phase.loan?, List.count_cons]

theorem Effect.capacity (h : Effect φ y next y') : y'.pool.capacity = y.pool.capacity := by
  cases h <;> rfl

theorem Effect.poisoned (h : Effect φ y next y') : y'.poisoned = y.poisoned := by
  cases h <;> rfl

/-- What comes back was lent, and what can be lent again is not poisoned. -/
theorem Effect.clean (h : Effect φ y next y') (hidle : ∀ c ∈ y.pool.idle, c ∉ y.poisoned)
    (hφ : ∀ c, φ = .returning c true → c ∉ y.poisoned) : ∀ c ∈ y'.pool.idle, c ∉ y'.poisoned := by
  intro c hc
  rw [h.poisoned]
  cases h with
  | lent hloan hplace hsplit =>
    exact hidle c (hsplit ▸ List.mem_append_right _ (List.mem_cons_of_mem _ hc))
  | reserved | full => cases hc
  | passed | opened | vacated | discarded => exact hidle c hc
  | returned c' hreturning =>
    rcases List.mem_cons.mp hc with rfl | hc
    · exact hφ c hreturning
    · exact hidle c hc

theorem Effect.reusable (h : Effect φ y next y') {c : Nat}
    (hnext : next.phase? = some (.returning c true)) : c ∉ y'.poisoned := by
  cases h with
  | passed _ hloan hplace hclean => exact hclean c hnext
  | lent | reserved | full | opened | vacated | returned | discarded => cases hnext

end Effect

/-! ## What holds at every moment -/

/-- What every step preserves. -/
structure Tidy (w : Traffic) : Prop where
  live : w.yard.pool.live = w.yard.pool.idle.length + w.lent.length + w.reserved
  le : w.yard.pool.live ≤ w.yard.pool.capacity
  /-- Each connection is in one place, and was opened. -/
  once : ∀ n, w.yard.pool.idle.count n + w.lent.count n ≤ (List.range w.yard.opened).count n
  clean : ∀ c ∈ w.yard.pool.idle, c ∉ w.yard.poisoned
  reusable : ∀ i c, w.customers.get? i = some (.returning c true) → c ∉ w.yard.poisoned
  here : ∀ i φ, w.customers.get? i = some φ → i < w.came
  gone : ∀ i e, (i, e) ∈ w.left → w.customers.get? i = none ∧ i < w.came

namespace Tidy

variable {α : Type} {f : Phase Nat → Option α} {w : Traffic} {i j c : Nat} {φ : Phase Nat}
  {r : Next Nat × Yard} {y' : Yard} {next : Next Nat}

/-- No connection is in two places. -/
theorem apart (hw : Tidy w) : (w.yard.pool.idle ++ w.lent).Nodup := by
  refine List.nodup_iff_count.mpr fun n => ?_
  rw [List.count_append]
  exact (hw.once n).trans (List.nodup_iff_count.mp List.nodup_range n)

theorem lent_nodup (hw : Tidy w) : w.lent.Nodup := (List.nodup_append.mp hw.apart).2.1

theorem idle_of_lent (hw : Tidy w) (hc : c ∈ w.lent) : c ∉ w.yard.pool.idle :=
  fun hidle => (List.nodup_append.mp hw.apart).2.2 c hidle c hc rfl

theorem new (name : Bytes) (capacity : Nat) (timeout : Int64) :
    Tidy (.new name capacity timeout) where
  live := rfl
  le := Nat.zero_le _
  once n := Nat.zero_le _
  clean c hc := by cases hc
  reusable i c h := by cases h
  here i φ h := by cases h
  gone i e h := by cases h

/-! ### A customer comes -/

theorem absent (hw : Tidy w) : w.customers.get? w.came = none := by
  cases hc : w.customers.get? w.came with
  | none => rfl
  | some φ => exact absurd (hw.here _ φ hc) (Nat.lt_irrefl _)

/-- Who comes has nothing. -/
theorem items_arrive (hw : Tidy w) (hf : f .look = none) :
    ((w.step .arrive).customers.values.filterMap f).Perm (w.customers.values.filterMap f) := by
  have hperm := Table.items_insert_perm (f := f) w.customers w.came .look
  rwa [Table.erase_of_absent hw.absent, hf] at hperm

theorem lent_arrive (hw : Tidy w) : (w.step .arrive).lent.Perm w.lent := hw.items_arrive rfl

theorem reserved_arrive (hw : Tidy w) : (w.step .arrive).reserved = w.reserved :=
  (hw.items_arrive (f := Phase.place?) rfl).length_eq

theorem get?_arrive : (w.step .arrive).customers.get? j =
    if j = w.came then some .look else w.customers.get? j := Table.get?_insert ..

theorem arrive (hw : Tidy w) : Tidy (w.step .arrive) where
  live := by
    rw [hw.lent_arrive.length_eq, hw.reserved_arrive]
    exact hw.live
  le := hw.le
  once n := by
    rw [hw.lent_arrive.count_eq]
    exact hw.once n
  clean := hw.clean
  reusable i c h := by
    rw [get?_arrive] at h
    split at h
    · cases h
    · exact hw.reusable i c h
  here i φ h := by
    rw [get?_arrive] at h
    split at h
    · next heq => exact heq ▸ Nat.lt_succ_self _
    · exact Nat.lt_succ_of_lt (hw.here i φ h)
  gone i e h := by
    obtain ⟨hnone, hlt⟩ := hw.gone i e h
    refine ⟨?_, Nat.lt_succ_of_lt hlt⟩
    rw [get?_arrive, if_neg (Nat.ne_of_lt hlt), hnone]

/-! ### A customer poisons what it has -/

theorem mem_lent (hφ : w.customers.get? i = some φ) (hc : φ.loan? = some c) : c ∈ w.lent :=
  (Table.mem_items_iff _ c).mpr ⟨i, φ, hφ, hc⟩

/-- Nobody else has the connection, so it neither waits nor is on its way back. -/
theorem poison (hw : Tidy w) (hi : w.customers.get? i = some (.holding c)) :
    Tidy { w with yard := w.yard.poison c } where
  live := hw.live
  le := hw.le
  once := hw.once
  clean c' hidle hpoisoned := by
    rcases List.mem_cons.mp hpoisoned with rfl | hpoisoned
    · exact hw.idle_of_lent (mem_lent hi rfl) hidle
    · exact hw.clean c' hidle hpoisoned
  reusable j c' hj hpoisoned := by
    rcases List.mem_cons.mp hpoisoned with rfl | hpoisoned
    · obtain rfl := Table.key_unique hw.lent_nodup hi rfl hj rfl
      rw [hi] at hj
      cases hj
    · exact hw.reusable j c' hj hpoisoned
  here := hw.here
  gone := hw.gone

/-! ### A customer takes a step -/

/-- After a step, the customer is in its next phase, and the others are where they were. -/
theorem get?_settle : (w.settle i r).customers.get? j =
    if j = i then r.1.phase? else w.customers.get? j := by
  obtain ⟨e | φ, y⟩ := r
  · exact Table.get?_erase ..
  · exact Table.get?_insert ..

theorem yard_settle : (w.settle i r).yard = r.2 := by
  obtain ⟨e | φ, y⟩ := r <;> rfl

theorem came_settle : (w.settle i r).came = w.came := by
  obtain ⟨e | φ, y⟩ := r <;> rfl

theorem left_settle {e : Except Fault Unit} (h : (j, e) ∈ (w.settle i r).left) :
    j = i ∧ r.1.phase? = none ∨ (j, e) ∈ w.left := by
  obtain ⟨e' | φ, y⟩ := r
  · rcases List.mem_cons.mp h with h | h
    · cases h
      exact .inl ⟨rfl, rfl⟩
    · exact .inr h
  · exact .inr h

theorem items_settle : ((w.settle i r).customers.values.filterMap f).Perm
    ((r.1.phase?.bind f).toList ++ (w.customers.erase i).values.filterMap f) := by
  obtain ⟨e | φ, y⟩ := r
  · exact .refl _
  · exact Table.items_insert_perm w.customers i φ

/-- What all customers have is what this one has and what the others have. -/
theorem length_items (hφ : w.customers.get? i = some φ) :
    (w.customers.values.filterMap f).length =
      (f φ).toList.length + ((w.customers.erase i).values.filterMap f).length := by
  rw [(Table.items_perm_of_get? hφ).length_eq, List.length_append]

theorem length_settle : ((w.settle i r).customers.values.filterMap f).length =
    (r.1.phase?.bind f).toList.length + ((w.customers.erase i).values.filterMap f).length := by
  rw [items_settle.length_eq, List.length_append]

/-- What the other customers have, a step leaves as it is. -/
theorem live_settle (hw : Tidy w) (hφ : w.customers.get? i = some φ)
    (h : Effect φ w.yard next y') : y'.pool.live = y'.pool.idle.length +
      (w.settle i (next, y')).lent.length + (w.settle i (next, y')).reserved := by
  have hbefore := hw.live
  unfold Traffic.lent Traffic.reserved at hbefore ⊢
  rw [length_items hφ, length_items hφ] at hbefore
  rw [length_settle, length_settle]
  have hlive := h.live (((w.customers.erase i).values.filterMap Phase.loan?).length +
    ((w.customers.erase i).values.filterMap Phase.place?).length) (by omega)
  unfold Next.loan? Next.place? at hlive
  dsimp only
  omega

theorem once_settle (hw : Tidy w) (hφ : w.customers.get? i = some φ)
    (h : Effect φ w.yard next y') (n : Nat) :
    y'.pool.idle.count n + (w.settle i (next, y')).lent.count n ≤
      (List.range y'.opened).count n := by
  have hbefore : w.lent.count n = _ := (Table.items_perm_of_get? (f := Phase.loan?) hφ).count_eq n
  have hafter : (w.settle i (next, y')).lent.count n = _ := items_settle.count_eq n
  have hbalance := h.balance n
  have honce := hw.once n
  rw [List.count_append] at hbefore hafter
  unfold Next.loan? at hbalance
  dsimp only at hafter
  omega

theorem settle (hw : Tidy w) (hφ : w.customers.get? i = some φ) (h : Effect φ w.yard next y') :
    Tidy (w.settle i (next, y')) where
  live := by
    rw [yard_settle]
    exact hw.live_settle hφ h
  le := by
    rw [yard_settle]
    exact h.le hw.le
  once := by
    rw [yard_settle]
    exact hw.once_settle hφ h
  clean := by
    rw [yard_settle]
    exact h.clean hw.clean fun c hc => hw.reusable i c (hc ▸ hφ)
  reusable j c hj := by
    rw [get?_settle] at hj
    rw [yard_settle]
    split at hj
    · exact h.reusable hj
    · rw [h.poisoned]
      exact hw.reusable j c hj
  here j ψ hj := by
    rw [get?_settle] at hj
    rw [came_settle]
    split at hj
    · next heq => exact heq ▸ hw.here i φ hφ
    · exact hw.here j ψ hj
  gone j e hj := by
    rw [get?_settle, came_settle]
    rcases left_settle hj with ⟨rfl, hnone⟩ | hold
    · exact ⟨(if_pos rfl).trans hnone, hw.here j φ hφ⟩
    · -- Who has left takes no steps.
      obtain ⟨hnone, hlt⟩ := hw.gone j e hold
      have hne : j ≠ i := by
        rintro rfl
        rw [hφ] at hnone
        cases hnone
      exact ⟨(if_neg hne).trans hnone, hlt⟩

theorem step (hw : Tidy w) (what : Step) : Tidy (w.step what) := by
  cases what with
  | arrive => exact hw.arrive
  | advance i a =>
    unfold Traffic.step
    dsimp only
    cases hφ : w.customers.get? i with
    | none => exact hw
    | some φ => exact hw.settle hφ effect_advance
  | poison i =>
    unfold Traffic.step
    dsimp only
    split
    · next c hi => exact hw.poison hi
    · exact hw

theorem run (hw : Tidy w) (steps : List Step) : Tidy (w.run steps) := by
  induction steps generalizing w with
  | nil => exact hw
  | cons what steps ih => exact ih (hw.step what)

/-- A step frees no more places than are taken. -/
theorem frees_le (hw : Tidy w) (hφ : w.customers.get? i = some φ) (healthy : Nat → Bool) :
    φ.frees healthy w.yard.pool ≤ w.yard.pool.live := by
  have hlive := hw.live
  have hlent := length_items (f := Phase.loan?) hφ
  have hreserved := length_items (f := Phase.place?) hφ
  unfold Traffic.lent Traffic.reserved at hlive
  have hbad : (w.yard.pool.checkOut healthy).2.1.length ≤ w.yard.pool.idle.length := by
    have hchecked := checkOut_checkedOut healthy w.yard.pool
    revert hchecked
    rcases w.yard.pool.checkOut healthy with ⟨outcome, bad, pool⟩
    intro hchecked
    cases hchecked with
    | reuse hidle => rw [hidle, List.length_append]; exact Nat.le_add_right _ _
    | reserved | exhausted => exact le_rfl
  cases φ with
  | look | wait => exact hbad.trans (by omega)
  | failed f => simp [Phase.frees, Phase.place?] at hreserved ⊢; omega
  | returning c reusable =>
    cases reusable with
    | true => exact Nat.zero_le _
    | false => simp [Phase.frees, Phase.loan?] at hlent ⊢; omega
  | opening | holding | closing => exact Nat.zero_le _

end Tidy

/-! ## What a customer changes -/

section Changes
variable {w : Traffic} {i j : Nat} {φ : Phase Nat} {r : Next Nat × Yard}

/-- A step changes the numbers by what the customer has more, or less, than before. -/
theorem tally_settle (hφ : w.customers.get? i = some φ) :
    (w.settle i r).tally - w.tally = (w.settle i r).share i - w.share i := by
  have hbefore : w.share i = φ.share := by rw [Traffic.share, hφ]; rfl
  have hafter : (w.settle i r).share i =
      (((r.1.phase?.bind Phase.loan?).toList.length : Int),
        ((r.1.phase?.bind Phase.place?).toList.length : Int)) := by
    rw [Traffic.share, Tidy.get?_settle, if_pos rfl]
    cases r.1.phase? <;> rfl
  rw [hbefore, hafter]
  refine Prod.ext ?_ ?_
  · show ((w.settle i r).lent.length : Int) - w.lent.length = _ - (φ.loan?.toList.length : Int)
    unfold Traffic.lent
    rw [Tidy.length_settle, Tidy.length_items hφ]
    omega
  · show ((w.settle i r).reserved : Int) - w.reserved = _ - (φ.place?.toList.length : Int)
    unfold Traffic.reserved
    rw [Tidy.length_settle, Tidy.length_items hφ]
    omega

/-- Only a customer's own steps change what it has, and they change the numbers by as much. -/
theorem changes_step (hw : Tidy w) (what : Step) (i : Nat) :
    (if w.mover what = i then (w.step what).tally - w.tally else 0) =
      (w.step what).share i - w.share i := by
  cases what with
  | arrive =>
    -- Who comes has nothing yet.
    have htally : (w.step .arrive).tally = w.tally := by
      unfold Traffic.tally
      rw [hw.lent_arrive.length_eq, hw.reserved_arrive]
    have hshare : (w.step .arrive).share i = w.share i := by
      unfold Traffic.share
      rw [Tidy.get?_arrive]
      split
      · next heq =>
        rw [heq, hw.absent]
        rfl
      · rfl
    rw [htally, hshare, sub_self, sub_self, ite_self]
  | advance j a =>
    cases hφ : w.customers.get? j with
    | none =>
      have hstep : w.step (.advance j a) = w := by rw [Traffic.step, hφ]
      rw [hstep, sub_self, sub_self, ite_self]
    | some φ =>
      have hstep : w.step (.advance j a) =
          w.settle j ((Yard.site a).advance a.late φ w.yard) := by rw [Traffic.step, hφ]
      rw [hstep]
      show (if j = i then _ else _) = _
      split
      · next heq =>
        subst heq
        exact tally_settle hφ
      · next hne =>
        unfold Traffic.share
        rw [Tidy.get?_settle, if_neg (Ne.symm hne), sub_self]
  | poison j =>
    have hstep : (w.step (.poison j)).customers = w.customers := by
      unfold Traffic.step
      dsimp only
      split <;> rfl
    unfold Traffic.tally Traffic.share Traffic.lent Traffic.reserved
    rw [hstep, sub_self, sub_self, ite_self]

/-- All the steps of a customer together change the numbers by what it has in the end. -/
theorem changes_run (hw : Tidy w) (steps : List Step) (i : Nat) :
    w.changes i steps = (w.run steps).share i - w.share i := by
  induction steps generalizing w with
  | nil => exact (sub_self _).symm
  | cons what steps ih =>
    rw [Traffic.changes, changes_step hw, ih (hw.step what)]
    exact sub_add_sub_cancel' _ _ _

end Changes

/-! ## The books -/

/-- The books of a pool with so many places, after steps. -/
structure Accounts (capacity : Nat) (w : Traffic) : Prop where
  /-- A place is taken by an idle connection, by one handed out, or by one being opened. -/
  live : w.yard.pool.live = w.yard.pool.idle.length + w.lent.length + w.reserved
  le : w.yard.pool.live ≤ capacity
  /-- Whatever a customer is about to free was taken. -/
  frees : ∀ i φ healthy, w.customers.get? i = some φ →
    φ.frees healthy w.yard.pool ≤ w.yard.pool.live
  /-- No connection is in two places. -/
  apart : (w.yard.pool.idle ++ w.lent).Nodup
  clean : ∀ c ∈ w.yard.pool.idle, c ∉ w.yard.poisoned

theorem Tidy.accounts {w : Traffic} (hw : Tidy w) : Accounts w.yard.pool.capacity w where
  live := hw.live
  le := hw.le
  frees _ _ healthy hφ := hw.frees_le hφ healthy
  apart := hw.apart
  clean := hw.clean

theorem capacity_run (w : Traffic) (steps : List Step) :
    (w.run steps).yard.pool.capacity = w.yard.pool.capacity := by
  induction steps generalizing w with
  | nil => rfl
  | cons what steps ih =>
    refine (ih (w.step what)).trans ?_
    cases what with
    | arrive => rfl
    | advance i a =>
      unfold Traffic.step
      dsimp only
      split
      · rfl
      · rw [Tidy.yard_settle]
        exact effect_advance.capacity
    | poison i =>
      unfold Traffic.step
      dsimp only
      split <;> rfl

/-- **The books of a pool under interleaving.**  Whatever the capacity, where 0 means 1, however
many customers there are and however their steps interleave, whatever connections do and whoever
poisons them, the books are right at every moment; and a customer who left with a fault has changed
nothing about the connections handed out and the places held. -/
theorem accounts_run (name : Bytes) (capacity : Nat) (timeout : Int64) (steps : List Step) :
    Accounts (if capacity = 0 then 1 else capacity)
        (Traffic.run (.new name capacity timeout) steps) ∧
      ∀ i f, (i, .error f) ∈ (Traffic.run (.new name capacity timeout) steps).left →
        Traffic.changes i (.new name capacity timeout) steps = 0 := by
  have hnew := Tidy.new name capacity timeout
  have hw := hnew.run steps
  refine ⟨?_, fun i f hi => ?_⟩
  · have haccounts := hw.accounts
    rwa [capacity_run] at haccounts
  · rw [changes_run hnew, Traffic.share, (hw.gone i _ hi).1]
    rfl

/-- Two customers and one place.  While the first one's connection is being opened, the second one
waits; the first one gets its connection, poisons it and gives it back, so it is closed; the second
one, still there, takes the place, and a connection is opened for it. -/
example :
    let now : Answer := ⟨fun _ => true, .ok (), false⟩
    let w := Traffic.run (.new [] 0 0) [.arrive, .arrive, .advance 0 now, .advance 1 now,
      .advance 0 now, .poison 0, .advance 1 now, .advance 0 now, .advance 0 now, .advance 1 now,
      .advance 1 now]
    (w.yard.pool.live, w.yard.pool.idle, w.lent, w.reserved) = (1, [], [1], 0) := by decide

end Coordinator.Pool

import Coordinator.Pool
import Mathlib.Data.List.TakeWhile

/-! # Customers of a pool, step by step

A customer of a pool looks for a connection, uses it, and gives it back.  The pool is locked while
the customer looks for an idle connection or a free place, and again while a place is given up or a
connection comes back; opening a connection, using it and closing it take place while others use the
pool.  A **phase** (`Phase`) is where a customer stands between two such moments, and a **step**
(`Site.advance`) takes it to the next phase or sends it off.

The steps are those of the operations: a customer left alone gets what lending gets it
(`acquire_alone`), and what it gives back goes where taking back puts it (`release_alone`). -/
namespace Coordinator.Pool

variable {σ κ : Type}

/-! ## Looking into the pool -/

/-- What a look into the pool can come to: the outcome, the connections found unhealthy, and the
pool without them. -/
inductive CheckedOut (healthy : κ → Bool) (p : Pool κ) : Checkout κ × List κ × Pool κ → Prop
  | reuse {bad rest : List κ} {c : κ} (hidle : p.idle = bad ++ c :: rest)
      (hbad : ∀ c ∈ bad, healthy c = false) (hc : healthy c = true) :
      CheckedOut healthy p (.reuse c, bad, { p with idle := rest, live := p.live - bad.length })
  | reserved (hbad : ∀ c ∈ p.idle, healthy c = false)
      (hroom : p.live - p.idle.length < p.capacity) :
      CheckedOut healthy p
        (.reserved, p.idle, { p with idle := [], live := p.live - p.idle.length + 1 })
  | exhausted (hbad : ∀ c ∈ p.idle, healthy c = false)
      (hfull : ¬ p.live - p.idle.length < p.capacity) :
      CheckedOut healthy p
        (.exhausted, p.idle, { p with idle := [], live := p.live - p.idle.length })

theorem checkOut_checkedOut (healthy : κ → Bool) (p : Pool κ) :
    CheckedOut healthy p (p.checkOut healthy) := by
  have hsplit := List.takeWhile_append_dropWhile (p := fun c => !healthy c) (l := p.idle)
  have hbad (c : κ) (hc : c ∈ p.idle.takeWhile fun c => !healthy c) : healthy c = false := by
    simpa using List.mem_takeWhile_imp hc
  unfold checkOut
  cases hdrop : p.idle.dropWhile fun c => !healthy c with
  | nil =>
    -- Nothing healthy is left, so a place decides.
    rw [hdrop, List.append_nil] at hsplit
    rw [hsplit] at hbad ⊢
    by_cases hroom : p.live - p.idle.length < p.capacity
    · simp only [if_pos hroom]
      exact .reserved hbad hroom
    · simp only [if_neg hroom]
      exact .exhausted hbad hroom
  | cons c rest =>
    have hc := List.head?_dropWhile_not (fun c => !healthy c) p.idle
    rw [hdrop] at hc hsplit
    exact .reuse hsplit.symm hbad (by simpa using hc)

/-- Whether a customer who waits is to look again. -/
def hasRoom (p : Pool κ) : Bool := !p.idle.isEmpty || p.live < p.capacity

/-- A look that finds nothing leaves a pool that is not worth another look. -/
theorem hasRoom_of_exhausted {healthy : κ → Bool} {p p' : Pool κ} {bad : List κ}
    (h : p.checkOut healthy = (.exhausted, bad, p')) : p'.hasRoom = false := by
  have hout := checkOut_checkedOut healthy p
  rw [h] at hout
  cases hout with
  | exhausted hbad hfull => exact decide_eq_false hfull

/-! ## Phases and steps -/

/-- Where a customer stands between two steps. -/
inductive Phase (κ : Type)
  /-- The customer is to look for a connection. -/
  | look
  /-- All places were taken. -/
  | wait
  /-- A place is held, and a connection is being opened for it. -/
  | opening
  /-- A place is held, but no connection could be opened. -/
  | failed (f : Fault)
  | holding (c : κ)
  /-- The connection is to go back: it can be lent again, or it cannot. -/
  | returning (c : κ) (reusable : Bool)
  /-- The connection has left the pool and is to be closed. -/
  | closing (c : κ)

/-- What comes after a step. -/
inductive Next (κ : Type)
  | ended (result : Except Fault Unit)
  | goesOn (φ : Phase κ)

/-- What becomes of a customer to whom a connection was lent, or not. -/
def lent : Except Fault κ × σ → Next κ × σ
  | (.ok c, t) => (.goesOn (.holding c), t)
  | (.error f, t) => (.ended (.error f), t)

/-- Where a look into the pool leads. -/
def Checkout.phase : Checkout κ → Phase κ
  | reuse c => .holding c
  | reserved => .opening
  | exhausted => .wait

namespace Site

/-- A look into the pool. -/
def lookUp (p : Site σ κ) (t : σ) : Next κ × σ :=
  let (outcome, bad, pool) := (p.pool.get t).checkOut (p.backend.isHealthy · t)
  (.goesOn outcome.phase,
    bad.foldl (fun t c => p.backend.close c (p.log pool.discardRecord t)) (p.pool.set pool t))

/-- One step of a customer, whose time to wait may be up. -/
def advance (p : Site σ κ) (late : Bool) (φ : Phase κ) (t : σ) : Next κ × σ :=
  match φ with
  | .look => p.lookUp t
  | .wait =>
    let pool := p.pool.get t
    if pool.hasRoom then p.lookUp t
    else if late then (.ended (.error pool.exhaustedFault), p.log pool.exhaustedRecord t)
    else (.goesOn .wait, t)
  | .opening =>
    match p.backend.connect.run t with
    | (.ok c, t) => (.goesOn (.holding c), t)
    | (.error f, t) => (.goesOn (.failed f), t)
  | .failed f => (.ended (.error f), p.pool.modify openFailed t)
  | .holding c =>
    (.goesOn (.returning c (!p.backend.isPoisoned c t && p.backend.isHealthy c t)), t)
  | .returning c reusable =>
    (if reusable then .ended (.ok ()) else .goesOn (.closing c),
      p.pool.modify (giveBack reusable c) t)
  | .closing c => (.ended (.ok ()), p.backend.close c t)

/-- Where steps with nothing in between lead a customer whose time to wait is up. -/
inductive Leads (p : Site σ κ) : Phase κ → σ → Next κ × σ → Prop
  | step {φ : Phase κ} {t : σ} : Leads p φ t (p.advance true φ t)
  | more {φ ψ : Phase κ} {t u : σ} {r : Next κ × σ}
      (h : p.advance true φ t = (.goesOn ψ, u)) (hr : Leads p ψ u r) : Leads p φ t r

variable {p : Site σ κ} {t : σ} {c : κ}

theorem lookUp_eq {outcome : Checkout κ} {bad : List κ} {pool : Pool κ}
    (h : (p.pool.get t).checkOut (p.backend.isHealthy · t) = (outcome, bad, pool)) :
    p.lookUp t = (.goesOn outcome.phase, bad.foldl
      (fun t c => p.backend.close c (p.log pool.discardRecord t)) (p.pool.set pool t)) := by
  rw [lookUp, h]

theorem opening_eq {late : Bool} : p.advance late .opening t =
    match p.backend.connect.run t with
    | (.ok c, t) => (.goesOn (.holding c), t)
    | (.error f, t) => (.goesOn (.failed f), t) := rfl

theorem Leads.of_step {φ : Phase κ} {r : Next κ × σ} (h : p.advance true φ t = r) :
    Leads p φ t r := h ▸ .step

theorem Leads.two {φ ψ : Phase κ} {u : σ} {r : Next κ × σ}
    (h : p.advance true φ t = (.goesOn ψ, u)) (h' : p.advance true ψ u = r) : Leads p φ t r :=
  .more h (.of_step h')

/-- A customer left alone gets a connection if the pool lends one, and is sent off with the fault
otherwise. -/
theorem acquire_alone (hset : ∀ pool, p.pool.get (p.pool.set pool t) = pool)
    (hlog : ∀ r t, p.pool.get (p.log r t) = p.pool.get t)
    (hclose : ∀ c t, p.pool.get (p.backend.close c t) = p.pool.get t) :
    Leads p .look t (lent (p.acquire.run t)) := by
  unfold acquire
  rw [Action.run_bind, Action.run_read]
  rcases hout : (p.pool.get t).checkOut (p.backend.isHealthy · t) with ⟨outcome, bad, pool⟩
  dsimp only
  rw [Action.run_bind, Action.run_update]
  dsimp only
  rw [Action.run_bind, Action.run_update]
  dsimp only
  have hlook := lookUp_eq hout
  -- Closing connections leaves the pool as it is.
  have hkept : ∀ t, p.pool.get (bad.foldl
      (fun t c => p.backend.close c (p.log pool.discardRecord t)) t) = p.pool.get t := by
    clear hlook hout
    intro t
    induction bad generalizing t with
    | nil => rfl
    | cons c bad ih => rw [List.foldl_cons, ih, hclose, hlog]
  cases outcome with
  | reuse c => exact .of_step hlook
  | reserved =>
    dsimp only
    rw [Action.run_onFailure]
    rcases hc : p.backend.connect.run _ with ⟨f | c, u⟩
    · exact .more hlook (.two (by rw [Checkout.phase, opening_eq, hc]) rfl)
    · exact .two hlook (by rw [Checkout.phase, opening_eq, hc]; rfl)
  | exhausted =>
    -- The customer waits in vain.
    refine .two hlook ?_
    simp only [Checkout.phase, advance, hkept, hset, hasRoom_of_exhausted hout]
    rfl

/-- A customer left alone gives its connection back as the pool takes it. -/
theorem release_alone : Leads p (.holding c) t (.ended (.ok ()), p.release c t) := by
  unfold release
  cases hr : !p.backend.isPoisoned c t && p.backend.isHealthy c t with
  | true => exact .two (congrArg (fun r => (Next.goesOn (.returning c r), t)) hr) rfl
  | false =>
    exact .more (congrArg (fun r => (Next.goesOn (.returning c r), t)) hr) (.two rfl rfl)

end Site
end Coordinator.Pool

import Coordinator.Fault

/-! # Actions

An `Action σ α` works on surroundings of type `σ` and either returns an `α` or fails with a fault.
What it did to the surroundings before failing stays done.  A `Cell` is a part of the surroundings
that can be read and replaced, so that an action on the part becomes one on the whole. -/
namespace Coordinator

/-- A computation on surroundings `σ` that returns an `α` or fails. -/
def Action (σ α : Type) : Type := σ → Except Fault α × σ

namespace Action

variable {σ τ α β : Type}

/-- The result of an action and what it leaves behind. -/
def run (x : Action σ α) (s : σ) : Except Fault α × σ := x s

instance : Monad (Action σ) where
  pure a := fun s => (.ok a, s)
  bind x f := fun s => match x s with
    | (.ok a, t) => f a t
    | (.error e, t) => (.error e, t)

/-- Fails and changes nothing. -/
def fail (f : Fault) : Action σ α := fun s => (.error f, s)

/-- Returns what a computation without effects returns, or fails as it does. -/
def ofExcept : Except Fault α → Action σ α
  | .ok a => pure a
  | .error f => fail f

/-- Returns a view of the surroundings. -/
def read (view : σ → α) : Action σ α := fun s => (.ok (view s), s)

/-- Changes the surroundings. -/
def update (f : σ → σ) : Action σ Unit := fun s => (.ok (), f s)

/-- Runs an action that must not end the whole: its failure becomes its result. -/
def attempt (x : Action σ α) : Action σ (Except Fault α) := fun s =>
  let (r, t) := x s
  (.ok r, t)

/-- Cleans up if an action fails; the fault goes on. -/
def onFailure (x : Action σ α) (cleanUp : Fault → σ → σ) : Action σ α := fun s =>
  match x s with
  | (.ok a, t) => (.ok a, t)
  | (.error f, t) => (.error f, cleanUp f t)

/-- Cleans up however an action ends. -/
def ensuring (x : Action σ α) (cleanUp : σ → σ) : Action σ α := fun s =>
  let (r, t) := x s
  (r, cleanUp t)

/-- Runs an action for each item of a list in turn, until one fails. -/
def forEach (f : α → Action σ Unit) : List α → Action σ Unit
  | [] => pure ()
  | a :: rest => do f a; forEach f rest

/-! ## What the operations do -/

@[simp] theorem run_pure (a : α) (s : σ) : (pure a : Action σ α).run s = (.ok a, s) := rfl

theorem run_bind (x : Action σ α) (f : α → Action σ β) (s : σ) :
    (x >>= f).run s = match x.run s with
      | (.ok a, t) => (f a).run t
      | (.error e, t) => (.error e, t) := rfl

@[simp] theorem run_fail (f : Fault) (s : σ) : (fail f : Action σ α).run s = (.error f, s) := rfl

@[simp] theorem run_read (view : σ → α) (s : σ) : (read view).run s = (.ok (view s), s) := rfl

@[simp] theorem run_update (f : σ → σ) (s : σ) : (update f).run s = (.ok (), f s) := rfl

@[simp] theorem run_ofExcept (x : Except Fault α) (s : σ) :
    (ofExcept x : Action σ α).run s = (x, s) := by cases x <;> rfl

@[simp] theorem run_attempt (x : Action σ α) (s : σ) :
    x.attempt.run s = (.ok (x.run s).1, (x.run s).2) := rfl

theorem run_onFailure (x : Action σ α) (cleanUp : Fault → σ → σ) (s : σ) :
    (x.onFailure cleanUp).run s = match x.run s with
      | (.ok a, t) => (.ok a, t)
      | (.error f, t) => (.error f, cleanUp f t) := rfl

@[ext] theorem ext {x y : Action σ α} (h : ∀ s, x.run s = y.run s) : x = y := funext h

instance : LawfulMonad (Action σ) := by
  refine LawfulMonad.mk' _ ?_ (fun _ _ => rfl) ?_
  · intro α x
    refine Action.ext fun s => ?_
    show (match x s with | (.ok a, t) => (.ok a, t) | (.error e, t) => (.error e, t)) = x s
    rcases x s with ⟨_ | _, _⟩ <;> rfl
  · intro α β γ x f g
    refine Action.ext fun s => ?_
    simp only [run_bind]
    rcases x.run s with ⟨_ | _, _⟩ <;> rfl

end Action

/-- A part of the surroundings. -/
structure Cell (σ α : Type) where
  get : σ → α
  set : α → σ → σ

namespace Cell

variable {σ α β ℓ : Type}

/-- The surroundings with the part changed. -/
def modify (c : Cell σ α) (f : α → α) (s : σ) : σ := c.set (f (c.get s)) s

/-- The surroundings themselves. -/
def whole : Cell σ σ := ⟨id, fun a _ => a⟩

/-- A part of a part. -/
def within (outer : Cell σ α) (inner : Cell α β) : Cell σ β where
  get s := inner.get (outer.get s)
  set b s := outer.set (inner.set b (outer.get s)) s

/-- An action on a part, as one on the whole. -/
def run (c : Cell σ α) (x : Action α β) : Action σ β := fun s =>
  let (r, a) := x (c.get s)
  (r, c.set a s)

/-- The first of two parts. -/
def first : Cell (ℓ × σ) ℓ := ⟨Prod.fst, fun a s => (a, s.2)⟩

/-- The second of two parts. -/
def second : Cell (ℓ × σ) σ := ⟨Prod.snd, fun b s => (s.1, b)⟩

end Cell
end Coordinator

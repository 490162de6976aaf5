import Coordinator.Action

/-! # Contracts of actions

A **contract** (`Action.Meets`) says what an action makes of surroundings that satisfy `pre`: they
satisfy `ok a` when it returns `a`, and `bad f` when it fails with `f`.  What an action did before
it failed stays done, so the two halves matter alike.  There is one rule for each way of building an
action; an operation is proved by putting together the contracts of its parts. -/
namespace Coordinator.Action

variable {σ τ α β : Type}

theorem run_ensuring (x : Action σ α) (cleanUp : σ → σ) (s : σ) :
    (x.ensuring cleanUp).run s = ((x.run s).1, cleanUp (x.run s).2) := rfl

/-- From surroundings that satisfy `pre`, the action ends as `ok` or `bad` says. -/
def Meets (x : Action σ α) (pre : σ → Prop) (ok : α → σ → Prop) (bad : Fault → σ → Prop) : Prop :=
  ∀ s, pre s → match x.run s with
    | (.ok a, t) => ok a t
    | (.error f, t) => bad f t

namespace Meets

variable {x : Action σ α} {f : α → Action σ β} {pre mid : σ → Prop} {ok : α → σ → Prop}
  {bad : Fault → σ → Prop}

theorem ok_of_run (h : x.Meets pre ok bad) {s t : σ} {a : α} (hs : pre s)
    (hr : x.run s = (.ok a, t)) : ok a t := by
  have := h s hs
  rwa [hr] at this

theorem bad_of_run (h : x.Meets pre ok bad) {s t : σ} {e : Fault} (hs : pre s)
    (hr : x.run s = (.error e, t)) : bad e t := by
  have := h s hs
  rwa [hr] at this

/-- A weaker contract. -/
theorem mono {pre' : σ → Prop} {ok' : α → σ → Prop} {bad' : Fault → σ → Prop}
    (h : x.Meets pre ok bad) (hpre : ∀ s, pre' s → pre s) (hok : ∀ a s, ok a s → ok' a s)
    (hbad : ∀ f s, bad f s → bad' f s) : x.Meets pre' ok' bad' := by
  intro s hs
  have := h s (hpre s hs)
  rcases hr : x.run s with ⟨_ | a, t⟩ <;> rw [hr] at this
  · exact hbad _ t this
  · exact hok a t this

/-- Two contracts of one action. -/
theorem and {pre' : σ → Prop} {ok' : α → σ → Prop} {bad' : Fault → σ → Prop}
    (h : x.Meets pre ok bad) (h' : x.Meets pre' ok' bad') :
    x.Meets (fun s => pre s ∧ pre' s) (fun a s => ok a s ∧ ok' a s)
      fun f s => bad f s ∧ bad' f s := by
  rintro s ⟨hs, hs'⟩
  have hend := h s hs
  have hend' := h' s hs'
  rcases hr : x.run s with ⟨_ | a, t⟩ <;> rw [hr] at hend hend' <;> exact ⟨hend, hend'⟩

/-- However the action ends, it keeps what it found. -/
theorem state (h : x.Meets pre (fun _ => mid) fun _ => mid) {s : σ} (hs : pre s) :
    mid (x.run s).2 := by
  have := h s hs
  rcases hr : x.run s with ⟨_ | a, t⟩ <;> rw [hr] at this <;> exact this

theorem pure {a : α} (h : ∀ s, pre s → ok a s) :
    (Pure.pure a : Action σ α).Meets pre ok bad := h

theorem fail {e : Fault} (h : ∀ s, pre s → bad e s) :
    (Action.fail e : Action σ α).Meets pre ok bad := h

theorem update {g : σ → σ} {ok : Unit → σ → Prop} (h : ∀ s, pre s → ok () (g s)) :
    (Action.update g).Meets pre ok bad := h

theorem ofExcept {y : Except Fault α} (hok : ∀ a, y = .ok a → ∀ s, pre s → ok a s)
    (hbad : ∀ e, y = .error e → ∀ s, pre s → bad e s) : (Action.ofExcept y).Meets pre ok bad := by
  cases y with
  | ok a => exact hok a rfl
  | error e => exact hbad e rfl

/-- In sequence: what the first action establishes is what the second starts from. -/
theorem bind {mid : α → σ → Prop} {ok : β → σ → Prop} (hx : x.Meets pre mid bad)
    (hf : ∀ a, (f a).Meets (mid a) ok bad) : (x >>= f).Meets pre ok bad := by
  intro s hs
  have := hx s hs
  rw [run_bind]
  rcases hr : x.run s with ⟨_ | a, t⟩ <;> rw [hr] at this
  · exact this
  · exact hf a t this

/-- What the last action returns, it returns whatever came before. -/
theorem last {ok : β → σ → Prop}
    (hf : ∀ a, (f a).Meets (fun _ => True) ok fun _ _ => True) :
    (x >>= f).Meets (fun _ => True) ok fun _ _ => True := by
  intro s _
  rw [run_bind]
  rcases x.run s with ⟨_ | a, t⟩
  · trivial
  · exact hf a t trivial

/-- What follows a view of the surroundings starts from surroundings that look so. -/
theorem read_bind {view : σ → α} {ok : β → σ → Prop}
    (hf : ∀ a, (f a).Meets (fun s => pre s ∧ view s = a) ok bad) :
    (Action.read view >>= f).Meets pre ok bad := fun s hs => hf (view s) s ⟨hs, rfl⟩

/-- What follows a computation without effects starts from the same surroundings. -/
theorem ofExcept_bind {y : Except Fault α} {ok : β → σ → Prop}
    (hf : ∀ a, y = .ok a → (f a).Meets pre ok bad)
    (hbad : ∀ e, y = .error e → ∀ s, pre s → bad e s) :
    (Action.ofExcept y >>= f).Meets pre ok bad := by
  cases y with
  | ok a => exact hf a rfl
  | error e => exact hbad e rfl

theorem ofExcept_known {y : Except Fault α} {ok : β → σ → Prop} {a : α} (hy : y = .ok a)
    (hf : (f a).Meets pre ok bad) : (Action.ofExcept y >>= f).Meets pre ok bad := by
  subst hy
  exact hf

/-- An action that cannot fail returns. -/
theorem returns (h : x.Meets pre ok fun _ _ => False) {s : σ} (hs : pre s) :
    ∃ a t, x.run s = (.ok a, t) ∧ ok a t := by
  have := h s hs
  rcases hr : x.run s with ⟨_ | a, t⟩ <;> rw [hr] at this
  · exact this.elim
  · exact ⟨a, t, rfl, this⟩

/-- An action that cannot return fails. -/
theorem fails (h : x.Meets pre (fun _ _ => False) bad) {s : σ} (hs : pre s) :
    ∃ e t, x.run s = (.error e, t) ∧ bad e t := by
  have := h s hs
  rcases hr : x.run s with ⟨e | a, t⟩ <;> rw [hr] at this
  · exact ⟨e, t, rfl, this⟩
  · exact this.elim

/-- A clean-up after a failure turns what the failure left into what is promised. -/
theorem onFailure {left : Fault → σ → Prop} {cleanUp : Fault → σ → σ} (hx : x.Meets pre ok left)
    (hc : ∀ e s, left e s → bad e (cleanUp e s)) : (x.onFailure cleanUp).Meets pre ok bad := by
  intro s hs
  have := hx s hs
  rw [run_onFailure]
  rcases hr : x.run s with ⟨_ | a, t⟩ <;> rw [hr] at this
  · exact hc _ t this
  · exact this

/-- A clean-up at the end works on either end. -/
theorem ensuring {done : α → σ → Prop} {left : Fault → σ → Prop} {cleanUp : σ → σ}
    (hx : x.Meets pre done left) (hok : ∀ a s, done a s → ok a (cleanUp s))
    (hbad : ∀ e s, left e s → bad e (cleanUp s)) : (x.ensuring cleanUp).Meets pre ok bad := by
  intro s hs
  have := hx s hs
  show match ((x.run s).1, cleanUp (x.run s).2) with
    | (.ok a, t) => ok a t
    | (.error f, t) => bad f t
  rcases hr : x.run s with ⟨_ | a, t⟩ <;> rw [hr] at this
  · exact hbad _ t this
  · exact hok a t this

/-- What does not depend on the surroundings may be assumed. -/
theorem assuming {P : Prop} (h : P → x.Meets pre ok bad) :
    x.Meets (fun s => P ∧ pre s) ok bad := fun s hs => h hs.1 s hs.2

/-- An attempt never fails; it returns how the action ended. -/
theorem attempt {ok' : Except Fault α → σ → Prop} (hx : x.Meets pre ok bad)
    (hok : ∀ a s, ok a s → ok' (.ok a) s) (hbad : ∀ e s, bad e s → ok' (.error e) s)
    {bad' : Fault → σ → Prop} : x.attempt.Meets pre ok' bad' := by
  intro s hs
  have := hx s hs
  rw [run_attempt]
  rcases hr : x.run s with ⟨_ | a, t⟩ <;> rw [hr] at this
  · exact hbad _ t this
  · exact hok a t this

/-- Over a list: what each item keeps, the whole keeps. -/
theorem forEach {g : α → Action σ Unit} {items : List α}
    (h : ∀ a ∈ items, (g a).Meets mid (fun _ => mid) bad) :
    (Action.forEach g items).Meets mid (fun _ => mid) bad := by
  induction items with
  | nil => exact pure fun _ hs => hs
  | cons a rest ih =>
    exact bind (h a List.mem_cons_self) fun _ => ih fun b hb => h b (List.mem_cons_of_mem a hb)

/-- Where the first action returns only under a condition, the sequence does. -/
theorem first {Q : Prop} (hx : x.Meets pre (fun _ _ => Q) fun _ _ => True) :
    (x >>= f).Meets pre (fun _ _ => Q) fun _ _ => True := by
  refine hx.bind fun a s hQ => ?_
  rcases (f a).run s with ⟨_ | b, t⟩
  · trivial
  · exact hQ

/-- Where each item is done only under a condition, a list is done only if all items meet it. -/
theorem forEach_only {g : α → Action σ Unit} {Q : α → Prop} {items : List α}
    (h : ∀ a, (g a).Meets (fun _ => True) (fun _ _ => Q a) fun _ _ => True) :
    (Action.forEach g items).Meets (fun _ => True) (fun _ _ => ∀ a ∈ items, Q a)
      fun _ _ => True := by
  induction items with
  | nil => exact pure fun _ _ => nofun
  | cons a rest ih =>
    refine (h a).bind fun _ s ha => ?_
    have hrest := ih s trivial
    rcases hr : (Action.forEach g rest).run s with ⟨_ | u, t⟩ <;> rw [hr] at hrest
    · trivial
    · exact List.forall_mem_cons.mpr ⟨ha, hrest⟩

/-- An action on a part, as one on the whole. -/
theorem onCell {c : Cell τ σ} {pre' : τ → Prop} {ok' : α → τ → Prop} {bad' : Fault → τ → Prop}
    (hx : x.Meets pre ok bad) (hpre : ∀ s, pre' s → pre (c.get s))
    (hok : ∀ s a t, pre' s → ok a t → ok' a (c.set t s))
    (hbad : ∀ s e t, pre' s → bad e t → bad' e (c.set t s)) : (c.run x).Meets pre' ok' bad' := by
  intro s hs
  have := hx (c.get s) (hpre s hs)
  show match ((x.run (c.get s)).1, c.set (x.run (c.get s)).2 s) with
    | (.ok a, t) => ok' a t
    | (.error f, t) => bad' f t
  rcases hr : x.run (c.get s) with ⟨_ | a, t⟩ <;> rw [hr] at this
  · exact hbad s _ t hs this
  · exact hok s a t hs this

/-- An action on the second of two parts leaves the first alone. -/
theorem second {ℓ : Type} (hx : x.Meets pre ok bad) :
    (Cell.second.run x : Action (ℓ × σ) α).Meets (fun s => pre s.2) (fun a s => ok a s.2)
      fun f s => bad f s.2 :=
  hx.onCell (fun _ hs => hs) (fun _ _ _ _ h => h) fun _ _ _ _ h => h

end Meets
end Coordinator.Action

import Coordinator.Command

/-! # One command, two screens

A command works alike on every screen.  A **map of screens** (`Screen.IsMap`) respects printing; and
what a command does on the one screen, it does on the other one under the map (`Follows`), part by
part.  The texts of a transcript are such a map.  So what holds of the text of a command on a screen
for itself holds of what an invocation prints, although that is printed on a screen which the
journal shares (`output_run`). -/
namespace Coordinator.Command

variable {ω ω' α β : Type}

/-- A map of screens: printing before it is printing after it. -/
def Screen.IsMap [Screen ω] [Screen ω'] (φ : ω → ω') : Prop :=
  ∀ n text printed, φ (Screen.print n text printed) = Screen.print n text (φ printed)

/-- What `x` does on a screen, `y` does on the screen it is mapped to. -/
def Follows (φ : ω → ω') (x : Shell ω α) (y : Shell ω' α) : Prop :=
  ∀ printed p, y.run (φ printed, p) =
    ((x.run (printed, p)).1, φ (x.run (printed, p)).2.1, (x.run (printed, p)).2.2)

theorem isMap_texts : Screen.IsMap Transcript.texts := by
  intro n text printed
  show Transcript.texts (printed ++ [⟨text, n⟩]) = printed.texts ++ text
  simp [Transcript.texts]

namespace Follows

variable {φ : ω → ω'}

theorem pure (a : α) : Follows φ (Pure.pure a) (Pure.pure a) := fun _ _ => rfl

theorem ofExcept (y : Except Fault α) : Follows φ (.ofExcept y) (.ofExcept y) := by
  intro printed p
  rw [Action.run_ofExcept, Action.run_ofExcept]

theorem onPlant (x : Action Plant α) : Follows φ (onPlant x) (onPlant x) := fun _ _ => rfl

theorem bind {x : Shell ω α} {y : Shell ω' α} {f : α → Shell ω β} {g : α → Shell ω' β}
    (h : Follows φ x y) (hf : ∀ a, Follows φ (f a) (g a)) : Follows φ (x >>= f) (y >>= g) := by
  intro printed p
  rw [Action.run_bind, Action.run_bind, h printed p]
  rcases x.run (printed, p) with ⟨_ | a, printed', p'⟩
  · rfl
  · exact hf a printed' p'

theorem ite {c : Prop} [Decidable c] {x x' : Shell ω α} {y y' : Shell ω' α}
    (h : Follows φ x y) (h' : Follows φ x' y') :
    Follows φ (if c then x else x') (if c then y else y') := by
  split
  · exact h
  · exact h'

theorem forEach {f : β → Shell ω Unit} {g : β → Shell ω' Unit}
    (h : ∀ b, Follows φ (f b) (g b)) (items : List β) :
    Follows φ (Action.forEach f items) (Action.forEach g items) := by
  induction items with
  | nil => exact pure ()
  | cons b rest ih => exact (h b).bind fun _ => ih

variable [Screen ω] [Screen ω']

theorem print (hφ : Screen.IsMap φ) (text : Bytes) : Follows φ (print text) (print text) := by
  intro printed p
  simp only [run_print]
  rw [hφ]

/-- Work on the plant, and then a line about what came of it. -/
theorem report (hφ : Screen.IsMap φ) (x : Action Plant α) (line : α → Bytes) :
    Follows φ (Command.onPlant x >>= fun a => Command.print (line a) >>= fun _ => Pure.pure Ending.done)
      (Command.onPlant x >>= fun a => Command.print (line a) >>= fun _ =>
        Pure.pure Ending.done) :=
  (onPlant x).bind fun a => (print hφ (line a)).bind fun _ => pure Ending.done

/-- A recovery command on two screens. -/
theorem recover (hφ : Screen.IsMap φ) (d : Deployment) (verb name : Bytes) (rest : List Bytes) :
    Follows φ (recover d verb name rest) (recover d verb name rest) := by
  refine (ofExcept (d.participant name)).bind fun a => ?_
  refine .ite ?_ (.ite ?_ (.ite ?_ (.ite ?_ (pure Ending.misused))))
  · exact (onPlant _).bind fun found =>
      (forEach (fun b => print hφ (branchLine b)) found).bind fun _ => pure Ending.done
  · rcases rest with _ | ⟨xid, _ | _⟩
    · exact pure Ending.misused
    · exact report hφ _ fun _ => settledLine "commit" xid
    · exact pure Ending.misused
  · rcases rest with _ | ⟨xid, _ | _⟩
    · exact pure Ending.misused
    · exact report hφ _ fun _ => settledLine "rollback" xid
    · exact pure Ending.misused
  · exact .ite (pure Ending.noStem) ((print hφ _).bind fun _ => report hφ _ fun n =>
      Decimal.ofNat n ++ ascii " transaction(s)\n")

/-- A command on two screens. -/
theorem dispatch (hφ : Screen.IsMap φ) (d : Deployment) (family : Bytes) (args : List Bytes) :
    Follows φ (dispatch d family args) (dispatch d family args) := by
  refine .ite ?_ (.ite ?_ (.ite ?_ (pure Ending.misused)))
  · rcases args with _ | ⟨verb, _ | ⟨name, rest⟩⟩
    · exact pure Ending.misused
    · exact pure Ending.misused
    · exact recover hφ d verb name rest
  · rcases args with _ | ⟨name, _ | _⟩
    · exact pure Ending.misused
    · exact (ofExcept (d.manager name)).bind fun m => report hφ _ clusterText
    · exact pure Ending.misused
  · rcases args with _ | ⟨name, _ | ⟨interval, _ | ⟨query, _ | _⟩⟩⟩
    · exact pure Ending.misused
    · exact pure Ending.misused
    · exact pure Ending.misused
    · exact (ofExcept (d.manager name)).bind fun m => (ofExcept _).bind fun sql =>
        (print hφ _).bind fun _ => pure Ending.done
    · exact pure Ending.misused

/-- An invocation on two screens. -/
theorem obey (hφ : Screen.IsMap φ) (load : Bytes → Except Fault Config) (i : Invocation) :
    Follows φ (obey load i) (obey load i) :=
  (ofExcept (load i.file)).bind fun c => (onPlant (setUp c)).bind fun d =>
    dispatch hφ d i.family i.args

end Follows

/-- **What an invocation prints is what its command prints on a screen for itself**, and there it
ends the same and records the same. -/
theorem output_run (load : Bytes → Except Fault Config) {args : List Bytes} {i : Invocation}
    (hargs : Invocation.ofArgs? args = some i) (script : Client.Sqlite) :
    ∃ p', (obey load i).run (([] : Bytes), { sqlite := script }) =
        (((obey load i).run (([] : Transcript), { sqlite := script })).1,
          (run load args script).output, p') ∧ (run load args script).journal = p'.journal := by
  have hfollows := Follows.obey isMap_texts load i [] { sqlite := script }
  unfold run
  simp only [hargs]
  rcases hrun : (obey load i).run (([] : Transcript), { sqlite := script }) with
    ⟨_ | e, printed, q⟩ <;> rw [hrun] at hfollows
  · exact ⟨q, hfollows, rfl⟩
  · exact ⟨q, hfollows, rfl⟩

end Coordinator.Command

import Coordinator.Proofs.Command.Listing
import Coordinator.Proofs.Plant.Sweeping

/-! # How a command ends

A command that fails prints nothing but its error.  It prints on its way, so this has to be shown of
every step after which something may still fail.  There is one such step: a sweep, whose line is
begun before it starts.  But the engines of a deployment that was just set up are quiet, and on a
quiet engine **a sweep returns** (`sweep_returns`).  So the exit code, the error output, what the
command prints and the way it ended say the same (`run_consistent`).  The journal goes to the
standard output as well, and it is there when the command fails (`journal_on_standard_output`). -/
namespace Coordinator

namespace Deployment

open Plant

variable {c : Config} {d : Deployment} {p p' : Plant} {name : Bytes} {a : Pooled Participant}

/-- A participant that was just set up lists its branches. -/
theorem recoverNamed_returns (hp : p.Numbered) (hbuild : (build c).run p = (.ok d, p'))
    (ha : d.participant name = .ok a) :
    ∃ found t, (a.component.recover (alone.gateway a.pool)).run p' = (.ok found, t) := by
  have hc := builtIn_of_build hbuild
  obtain ⟨hall, hbuilds⟩ := complete_of_build hp hc hbuild
  have hname : name ∈ d.participants.keys := by
    by_contra habsent
    obtain ⟨f, hf, -⟩ : NotFound (find "participant" d.participants name) :=
      notFound_of_keys habsent
    rw [Deployment.participant, hf] at ha
    cases ha
  rw [hall.participants] at hname
  obtain ⟨q, hq, rfl⟩ := List.mem_map.mp hname
  have hwork : Workload c [] := ⟨nofun, nofun, List.nodup_nil, fun _ _ => Nat.zero_le _⟩
  obtain ⟨found, t, hrun, -⟩ := listed_of_shelved (shelved_of_complete hc hall hbuilds.consistent)
    hwork hq (places_pos q.pool)
  refine ⟨found, t, ?_⟩
  rw [recoverNamed, ha] at hrun
  exact hrun

/-- **A sweep of a participant that was just set up returns.** -/
theorem sweep_returns (hp : p.Numbered) (hbuild : (build c).run p = (.ok d, p'))
    (ha : d.participant name = .ok a) (stem : Bytes) :
    ∃ n t, (a.component.sweep (alone.gateway a.pool) stem).run p' = (.ok n, t) := by
  obtain ⟨found, t, hrecover⟩ := recoverNamed_returns hp hbuild ha
  obtain ⟨tries, u, -, -, hrun⟩ := Participant.sweep_run hrecover
  exact ⟨_, _, hrun⟩

end Deployment

namespace Command

open Plant

/-! ## Codes -/

namespace Ending

/-- The code of each ending. -/
inductive Coded : Ending → UInt8 → Prop
  | done : Coded .done 0
  | misused : Coded .misused 1
  | noStem : Coded .noStem 1
  | notFound {f : Fault} (h : f.kind = .notFound) : Coded (.failed f) 3
  | refused {f : Fault} (h : f.kind = .invalidArgument) : Coded (.failed f) 1
  | failed {f : Fault} (h : f.kind ≠ .notFound) (h' : f.kind ≠ .invalidArgument) :
    Coded (.failed f) 2

theorem coded (e : Ending) : Coded e e.code := by
  cases e with
  | done => exact .done
  | misused => exact .misused
  | noStem => exact .noStem
  | failed f =>
    by_cases h : f.kind = .notFound
    · have hcode : (failed f).code = 3 := by simp only [code, h]
      rw [hcode]
      exact .notFound h
    · by_cases h' : f.kind = .invalidArgument
      · have hcode : (failed f).code = 1 := by simp only [code, h']
        rw [hcode]
        exact .refused h'
      · have hcode : (failed f).code = 2 := by simp only [code]
        rw [hcode]
        exact .failed h h'

variable {e : Ending}

theorem code_cases (e : Ending) : e.code = 0 ∨ e.code = 1 ∨ e.code = 2 ∨ e.code = 3 := by
  have hcoded := e.coded
  generalize e.code = n at hcoded
  cases hcoded <;> simp

theorem code_eq_zero_iff : e.code = 0 ↔ e = .done := by
  constructor
  · intro h
    have hcoded := e.coded
    rw [h] at hcoded
    cases hcoded
    rfl
  · rintro rfl
    rfl

theorem code_eq_one_iff : e.code = 1 ↔
    e = .misused ∨ e = .noStem ∨ ∃ f, e = .failed f ∧ f.kind = .invalidArgument := by
  constructor
  · intro h
    have hcoded := e.coded
    rw [h] at hcoded
    cases hcoded with
    | misused => exact .inl rfl
    | noStem => exact .inr (.inl rfl)
    | refused hkind => exact .inr (.inr ⟨_, rfl, hkind⟩)
  · rintro (rfl | rfl | ⟨f, rfl, hkind⟩)
    · rfl
    · rfl
    · simp only [code, hkind]

theorem code_eq_two_iff : e.code = 2 ↔
    ∃ f, e = .failed f ∧ f.kind ≠ .notFound ∧ f.kind ≠ .invalidArgument := by
  constructor
  · intro h
    have hcoded := e.coded
    rw [h] at hcoded
    cases hcoded with
    | failed hkind hkind' => exact ⟨_, rfl, hkind, hkind'⟩
  · rintro ⟨f, rfl, hkind, hkind'⟩
    simp only [code]

theorem code_eq_three_iff : e.code = 3 ↔ ∃ f, e = .failed f ∧ f.kind = .notFound := by
  constructor
  · intro h
    have hcoded := e.coded
    rw [h] at hcoded
    cases hcoded with
    | notFound hkind => exact ⟨_, rfl, hkind⟩
  · rintro ⟨f, rfl, hkind⟩
    simp only [code, hkind]

/-- Every ending but success says something. -/
theorem errors_eq_nil_iff : e.errors = [] ↔ e = .done := by
  cases e with
  | done => exact ⟨fun _ => rfl, fun _ => rfl⟩
  | misused => exact ⟨fun h => absurd h (by decide), nofun⟩
  | noStem => exact ⟨fun h => absurd h (by decide), nofun⟩
  | failed f => simp [errors]

end Ending

/-! ## Usage -/

/-- The commands there are. -/
inductive Usage
  /-- What follows the name is not looked at. -/
  | list (name : Bytes) (rest : List Bytes)
  | commit (name xid : Bytes)
  | rollback (name xid : Bytes)
  /-- What follows the stem, if there is one, is not looked at. -/
  | cleanup (name : Bytes) (rest : List Bytes)
  | clusterInfo (name : Bytes)
  | asOf (name interval query : Bytes)

/-- The family of a command, and the arguments after it. -/
def Usage.words : Usage → Bytes × List Bytes
  | list name rest => (ascii "recover", ascii "list" :: name :: rest)
  | commit name xid => (ascii "recover", [ascii "commit", name, xid])
  | rollback name xid => (ascii "recover", [ascii "rollback", name, xid])
  | cleanup name rest => (ascii "recover", ascii "cleanup" :: name :: rest)
  | clusterInfo name => (ascii "cluster-info", [name])
  | asOf name interval query => (ascii "as-of", [name, interval, query])

/-- The arguments are those of a command. -/
def IsUsage (family : Bytes) (args : List Bytes) : Prop := ∃ u : Usage, u.words = (family, args)

theorem isUsage_recover_iff {args : List Bytes} : IsUsage (ascii "recover") args ↔
    ∃ verb name rest, args = verb :: name :: rest ∧
      (verb = ascii "list" ∨ (verb = ascii "commit" ∧ ∃ xid, rest = [xid]) ∨
        (verb = ascii "rollback" ∧ ∃ xid, rest = [xid]) ∨ verb = ascii "cleanup") := by
  constructor
  · rintro ⟨u, hu⟩
    cases u with
    | list name rest => exact ⟨_, name, rest, (Prod.mk.inj hu).2.symm, .inl rfl⟩
    | commit name xid =>
      exact ⟨_, name, [xid], (Prod.mk.inj hu).2.symm, .inr (.inl ⟨rfl, xid, rfl⟩)⟩
    | rollback name xid =>
      exact ⟨_, name, [xid], (Prod.mk.inj hu).2.symm, .inr (.inr (.inl ⟨rfl, xid, rfl⟩))⟩
    | cleanup name rest =>
      exact ⟨_, name, rest, (Prod.mk.inj hu).2.symm, .inr (.inr (.inr rfl))⟩
    | clusterInfo name => exact absurd (Prod.mk.inj hu).1 (by decide)
    | asOf name interval query => exact absurd (Prod.mk.inj hu).1 (by decide)
  · rintro ⟨verb, name, rest, rfl, rfl | ⟨rfl, xid, rfl⟩ | ⟨rfl, xid, rfl⟩ | rfl⟩
    · exact ⟨.list name rest, rfl⟩
    · exact ⟨.commit name xid, rfl⟩
    · exact ⟨.rollback name xid, rfl⟩
    · exact ⟨.cleanup name rest, rfl⟩

/-- A verb that settles a branch takes one xid. -/
theorem isUsage_settle_iff {verb name : Bytes} {rest : List Bytes}
    (hverb : verb = ascii "commit" ∨ verb = ascii "rollback") :
    IsUsage (ascii "recover") (verb :: name :: rest) ↔ ∃ xid, rest = [xid] := by
  rw [isUsage_recover_iff]
  constructor
  · rintro ⟨verb', name', rest', heq, hcases⟩
    cases heq
    rcases hcases with hlist | ⟨-, hrest⟩ | ⟨-, hrest⟩ | hcleanup
    · rcases hverb with rfl | rfl <;> exact absurd hlist (by decide)
    · exact hrest
    · exact hrest
    · rcases hverb with rfl | rfl <;> exact absurd hcleanup (by decide)
  · intro hrest
    refine ⟨verb, name, rest, rfl, .inr ?_⟩
    rcases hverb with hverb | hverb
    · exact .inl ⟨hverb, hrest⟩
    · exact .inr (.inl ⟨hverb, hrest⟩)

theorem isUsage_clusterInfo_iff {args : List Bytes} : IsUsage (ascii "cluster-info") args ↔
    ∃ name, args = [name] := by
  constructor
  · rintro ⟨u, hu⟩
    cases u with
    | clusterInfo name => exact ⟨name, (Prod.mk.inj hu).2.symm⟩
    | list | commit | rollback | cleanup | asOf => exact absurd (Prod.mk.inj hu).1 (by decide)
  · rintro ⟨name, rfl⟩
    exact ⟨.clusterInfo name, rfl⟩

theorem isUsage_asOf_iff {args : List Bytes} : IsUsage (ascii "as-of") args ↔
    ∃ name interval query, args = [name, interval, query] := by
  constructor
  · rintro ⟨u, hu⟩
    cases u with
    | asOf name interval query => exact ⟨name, interval, query, (Prod.mk.inj hu).2.symm⟩
    | list | commit | rollback | cleanup | clusterInfo =>
      exact absurd (Prod.mk.inj hu).1 (by decide)
  · rintro ⟨name, interval, query, rfl⟩
    exact ⟨.asOf name interval query, rfl⟩

theorem not_isUsage {family : Bytes} {args : List Bytes} (hrecover : family ≠ ascii "recover")
    (hcluster : family ≠ ascii "cluster-info") (hasOf : family ≠ ascii "as-of") :
    ¬ IsUsage family args := by
  rintro ⟨u, hu⟩
  have hfamily := (Prod.mk.inj hu).1
  cases u with
  | list | commit | rollback | cleanup => exact hrecover hfamily.symm
  | clusterInfo => exact hcluster hfamily.symm
  | asOf => exact hasOf hfamily.symm

/-- Arguments that are no command on a deployment.  A participant that does not exist is found out
before the rest of the arguments is looked at. -/
structure Misused (d : Deployment) (family : Bytes) (args : List Bytes) : Prop where
  unusual : ¬ IsUsage family args
  known : family = ascii "recover" → ∀ verb name rest, args = verb :: name :: rest →
    ∃ a, d.participant name = .ok a

/-- A sweep of an existing participant without a stem. -/
def NoStem (d : Deployment) (family : Bytes) (args : List Bytes) : Prop :=
  ∃ name rest a, family = ascii "recover" ∧ args = ascii "cleanup" :: name :: rest ∧
    d.participant name = .ok a ∧ rest.head?.getD d.staleStem = []

/-! ## What a command ends in -/

section Dispatch
variable {c : Config} {d : Deployment} {p p' : Plant} {family : Bytes} {args : List Bytes}

/-- How a command may end that has printed `printed` by then: it is misused and has no stem just
if the arguments say so, and it has printed something only if it is done. -/
structure Ends (d : Deployment) (family : Bytes) (args : List Bytes) (e : Ending)
    (printed : Transcript) : Prop where
  misused : e = .misused ↔ Misused d family args
  noStem : e = .noStem ↔ NoStem d family args
  silent : e ≠ .done → printed = []
  unfailed : ∀ f, e ≠ .failed f

/-- A command that fails has printed nothing, and its arguments are those of a command. -/
structure Fails (d : Deployment) (family : Bytes) (args : List Bytes) (printed : Transcript) :
    Prop where
  usual : ¬ Misused d family args
  stem : ¬ NoStem d family args
  silent : printed = []

theorem ends_misused (h : Misused d family args) (hstem : ¬ NoStem d family args) :
    Ends d family args .misused [] :=
  ⟨⟨fun _ => h, fun _ => rfl⟩, ⟨nofun, fun h => absurd h hstem⟩, fun _ => rfl, nofun⟩

theorem ends_done (h : IsUsage family args) (hstem : ¬ NoStem d family args)
    (printed : Transcript) : Ends d family args .done printed :=
  ⟨⟨nofun, fun hm => absurd h hm.unusual⟩, ⟨nofun, fun h => absurd h hstem⟩, nofun, nofun⟩

/-- Work on the plant, and then the printing of what came of it. -/
theorem onPlant_meets {α : Type} {x : Action Plant α} {prints : α → Shell Transcript Unit}
    (h : IsUsage family args) (hstem : ¬ NoStem d family args)
    (hprints : ∀ a printed p, ∃ printed', (prints a).run (printed, p) = (.ok (), printed', p)) :
    (onPlant x >>= fun a => prints a >>= fun _ => pure Ending.done :
      Shell Transcript Ending).Meets (· = ([], p')) (fun e s => Ends d family args e s.1)
      fun _ s => Fails d family args s.1 := by
  rintro s rfl
  rw [Action.run_bind, run_onPlant]
  rcases x.run p' with ⟨f | a, q⟩
  · exact ⟨fun hm => hm.unusual h, hstem, rfl⟩
  · obtain ⟨printed', hrun⟩ := hprints a [] q
    simp only [Action.run_bind, hrun]
    exact ends_done h hstem _

section Recovery
variable {verb name : Bytes} {rest : List Bytes} {a : Pooled Participant}

/-- A verb of an existing participant that makes no command. -/
theorem misused_recover (ha : d.participant name = .ok a)
    (h : ¬ IsUsage (ascii "recover") (verb :: name :: rest)) :
    Misused d (ascii "recover") (verb :: name :: rest) := by
  refine ⟨h, ?_⟩
  rintro - verb' name' rest' heq
  cases heq
  exact ⟨a, ha⟩

theorem not_noStem (h : verb ≠ ascii "cleanup") : ¬ NoStem d family (verb :: name :: rest) := by
  rintro ⟨name', rest', a', -, heq, -⟩
  exact h (List.cons.inj heq).1

/-- A branch is settled by the one xid that the verb takes. -/
theorem settle_meets (hverb : verb = ascii "commit" ∨ verb = ascii "rollback")
    (ha : d.participant name = .ok a) (settle : Bytes → Action Plant Unit)
    (line : Bytes → Bytes) :
    (show Shell Transcript Ending from match rest with
      | [xid] => onPlant (settle xid) >>= fun _ => print (line xid) >>= fun _ => pure .done
      | _ => pure .misused).Meets (· = ([], p'))
      (fun e s => Ends d (ascii "recover") (verb :: name :: rest) e s.1)
      fun _ s => Fails d (ascii "recover") (verb :: name :: rest) s.1 := by
  have hstem : ¬ NoStem d (ascii "recover") (verb :: name :: rest) :=
    not_noStem (by rcases hverb with rfl | rfl <;> decide)
  split
  · next xid =>
    exact onPlant_meets ((isUsage_settle_iff hverb).mpr ⟨xid, rfl⟩) hstem fun _ _ _ => ⟨_, rfl⟩
  · next hrest =>
    rintro s rfl
    refine ends_misused (misused_recover ha fun h => ?_) hstem
    obtain ⟨xid, hxid⟩ := (isUsage_settle_iff hverb).mp h
    exact hrest xid hxid

/-- A sweep has a stem and returns, so that the line about it is ended. -/
theorem cleanup_meets (hp : p.Numbered) (hbuild : (Deployment.build c).run p = (.ok d, p'))
    (ha : d.participant name = .ok a) :
    (show Shell Transcript Ending from if rest.head?.getD d.staleStem = [] then pure .noStem else
      print (ascii "rolled back ") >>= fun _ =>
        onPlant (a.component.sweep (alone.gateway a.pool) (rest.head?.getD d.staleStem)) >>=
          fun n => print (Decimal.ofNat n ++ ascii " transaction(s)\n") >>= fun _ =>
            pure .done).Meets (· = ([], p'))
      (fun e s => Ends d (ascii "recover") (ascii "cleanup" :: name :: rest) e s.1)
      fun _ s => Fails d (ascii "recover") (ascii "cleanup" :: name :: rest) s.1 := by
  have husage : IsUsage (ascii "recover") (ascii "cleanup" :: name :: rest) :=
    ⟨.cleanup name rest, rfl⟩
  by_cases hempty : rest.head?.getD d.staleStem = []
  · rw [if_pos hempty]
    rintro s rfl
    refine ⟨⟨nofun, fun hm => absurd husage hm.unusual⟩, ⟨fun _ => ?_, fun _ => rfl⟩,
      fun _ => rfl, nofun⟩
    exact ⟨name, rest, a, rfl, rfl, ha, hempty⟩
  · rw [if_neg hempty]
    rintro s rfl
    obtain ⟨n, t, hsweep⟩ := Deployment.sweep_returns hp hbuild ha (rest.head?.getD d.staleStem)
    simp only [Action.run_bind, run_print, run_onPlant, hsweep]
    refine ends_done husage (fun hstem => ?_) _
    obtain ⟨name', rest', a', -, heq, -, hempty'⟩ := hstem
    cases heq
    exact hempty hempty'

/-- The recovery family. -/
theorem recover_meets (hp : p.Numbered) (hbuild : (Deployment.build c).run p = (.ok d, p'))
    (verb name : Bytes) (rest : List Bytes) : (recover d verb name rest).Meets
      (· = (([] : Transcript), p'))
      (fun e s => Ends d (ascii "recover") (verb :: name :: rest) e s.1)
      fun _ s => Fails d (ascii "recover") (verb :: name :: rest) s.1 := by
  unfold recover
  refine .ofExcept_bind (fun a ha => ?_) fun f hf s hs => ?_
  · by_cases hlist : verb = ascii "list"
    · subst hlist
      rw [if_pos rfl]
      refine onPlant_meets ⟨.list name rest, rfl⟩ (not_noStem (by decide)) fun found printed q => ?_
      exact ⟨_, run_forEach_print branchLine found printed q⟩
    · rw [if_neg hlist]
      by_cases hcommit : verb = ascii "commit"
      · rw [if_pos hcommit]
        exact settle_meets (.inl hcommit) ha (a.component.commitByXid (alone.gateway a.pool))
          (settledLine "commit")
      · rw [if_neg hcommit]
        by_cases hrollback : verb = ascii "rollback"
        · rw [if_pos hrollback]
          exact settle_meets (.inr hrollback) ha
            (a.component.rollbackByXid (alone.gateway a.pool)) (settledLine "rollback")
        · rw [if_neg hrollback]
          by_cases hcleanup : verb = ascii "cleanup"
          · subst hcleanup
            rw [if_pos rfl]
            exact cleanup_meets hp hbuild ha
          · rw [if_neg hcleanup]
            rintro s rfl
            refine ends_misused (misused_recover ha fun h => ?_) (not_noStem hcleanup)
            obtain ⟨verb', name', rest', heq, hcases⟩ := isUsage_recover_iff.mp h
            cases heq
            rcases hcases with h | ⟨h, -⟩ | ⟨h, -⟩ | h
            · exact hlist h
            · exact hcommit h
            · exact hrollback h
            · exact hcleanup h
  · -- Without the participant nothing else of the arguments is looked at.
    rw [hs]
    refine ⟨fun hm => ?_, ?_, rfl⟩
    · obtain ⟨a, ha⟩ := hm.known rfl verb name rest rfl
      rw [hf] at ha
      cases ha
    · rintro ⟨name', rest', a, -, heq, ha, -⟩
      cases heq
      rw [hf] at ha
      cases ha

end Recovery

theorem misused_other (h : ¬ IsUsage family args) (hfamily : family ≠ ascii "recover") :
    Misused d family args := ⟨h, fun heq => absurd heq hfamily⟩

theorem not_noStem_other (h : family ≠ ascii "recover") : ¬ NoStem d family args := by
  rintro ⟨name, rest, a, hfamily, -⟩
  exact h hfamily

/-- What is shown when an invocation is done with a query of the past: the query on a line. -/
def PrintsQuery (args : List Bytes) (shown : Bytes → Prop) : Prop :=
  ∃ name interval query sql, args = [name, interval, query] ∧
    Retry.AsOf.addClause query interval = .ok sql ∧ shown (sql ++ [10])

/-- A command has printed one text, after all that is in the journal. -/
def PrintedLast (s : Transcript × Plant) (text : Bytes) : Prop :=
  s.1 = [⟨text, s.2.journal.length⟩]

/-- A query of the past is written by a manager whose dialect has them. -/
theorem asOf_ok {dialect : Retry.Dialect} {query interval sql : Bytes}
    (h : dialect.asOf query interval = .ok sql) :
    Retry.AsOf.addClause query interval = .ok sql := by
  cases dialect with
  | sqlite => cases h
  | cockroach =>
    unfold Retry.Dialect.asOf at h
    cases hclause : Retry.AsOf.addClause query interval with
    | error f =>
      rw [hclause] at h
      cases h
    | ok text =>
      rw [hclause] at h
      cases h
      rfl

theorem asOf_meets (d : Deployment) (args : List Bytes) :
    (dispatch d (ascii "as-of") args).Meets (· = (([] : Transcript), p'))
      (fun e s => Ends d (ascii "as-of") args e s.1 ∧
        (e = .done → PrintsQuery args (PrintedLast s)))
      fun _ s => Fails d (ascii "as-of") args s.1 := by
  have hstem : ¬ NoStem d (ascii "as-of") args := not_noStem_other (by decide)
  unfold dispatch
  rw [if_neg (by decide), if_neg (by decide), if_pos rfl]
  split
  · next name interval query =>
    have husage : IsUsage (ascii "as-of") [name, interval, query] :=
      ⟨.asOf name interval query, rfl⟩
    have hfails : Fails d (ascii "as-of") [name, interval, query] [] :=
      ⟨fun hm => hm.unusual husage, hstem, rfl⟩
    refine .ofExcept_bind (fun m hm => ?_) fun f hf s hs => hs ▸ hfails
    refine .ofExcept_bind (fun sql hsql => ?_) fun f hf s hs => hs ▸ hfails
    rintro s rfl
    rw [Action.run_bind, run_print]
    exact ⟨ends_done husage hstem _, fun _ =>
      ⟨name, interval, query, sql, rfl, asOf_ok hsql, rfl⟩⟩
  · next hargs =>
    rintro s rfl
    refine ⟨ends_misused (misused_other (fun h => ?_) (by decide)) hstem, nofun⟩
    obtain ⟨name, interval, query, heq⟩ := isUsage_asOf_iff.mp h
    exact hargs name interval query heq

/-- Every command. -/
theorem dispatch_meets (hp : p.Numbered) (hbuild : (Deployment.build c).run p = (.ok d, p'))
    (family : Bytes) (args : List Bytes) : (dispatch d family args).Meets
      (· = (([] : Transcript), p'))
      (fun e s => Ends d family args e s.1 ∧
        (e = .done → family = ascii "as-of" → PrintsQuery args (PrintedLast s)))
      fun _ s => Fails d family args s.1 := by
  by_cases hasOf : family = ascii "as-of"
  · subst hasOf
    exact (asOf_meets d args).mono (fun _ hs => hs) (fun _ _ h => ⟨h.1, fun hdone _ => h.2 hdone⟩)
      fun _ _ h => h
  · suffices hends : (dispatch d family args).Meets (· = (([] : Transcript), p'))
        (fun e s => Ends d family args e s.1) fun _ s => Fails d family args s.1 from
      hends.mono (fun _ hs => hs) (fun _ _ h => ⟨h, fun _ heq => absurd heq hasOf⟩) fun _ _ h => h
    unfold dispatch
    by_cases hrecover : family = ascii "recover"
    · subst hrecover
      rw [if_pos rfl]
      split
      · next verb name rest => exact recover_meets hp hbuild verb name rest
      · next hargs =>
        rintro s rfl
        have hunusual : ¬ IsUsage (ascii "recover") args := by
          intro h
          obtain ⟨verb, name, rest, heq, -⟩ := isUsage_recover_iff.mp h
          exact hargs verb name rest heq
        refine ends_misused ⟨hunusual, fun _ verb name rest heq => ?_⟩ ?_
        · exact absurd heq (hargs verb name rest)
        · rintro ⟨name, rest, a, -, heq, -⟩
          exact hargs _ name rest heq
    · rw [if_neg hrecover]
      have hstem : ¬ NoStem d family args := not_noStem_other hrecover
      by_cases hcluster : family = ascii "cluster-info"
      · subst hcluster
        rw [if_pos rfl]
        split
        · next name =>
          have husage : IsUsage (ascii "cluster-info") [name] := ⟨.clusterInfo name, rfl⟩
          refine .ofExcept_bind (fun m hm => ?_) fun f hf s hs => ?_
          · exact onPlant_meets husage hstem fun _ _ _ => ⟨_, rfl⟩
          · rw [hs]
            exact ⟨fun hm => hm.unusual husage, hstem, rfl⟩
        · next hargs =>
          rintro s rfl
          refine ends_misused (misused_other (fun h => ?_) (by decide)) hstem
          obtain ⟨name, heq⟩ := isUsage_clusterInfo_iff.mp h
          exact hargs name heq
      · rw [if_neg hcluster, if_neg hasOf]
        rintro s rfl
        exact ends_misused (misused_other (not_isUsage hrecover hcluster hasOf) hrecover) hstem

end Dispatch

/-! ## Invocations -/

/-- What stands on the standard output: what the library writes of the records of the journal, in
order, and then the text, which is all that the command itself has printed. -/
structure Outcome.Shows (o : Outcome) (text : Bytes) : Prop where
  own : o.output = text
  whole : ∀ library level pattern,
    o.standardOutput library level pattern = (o.lines library level pattern).flatten ++ text

section Output
variable {e : Ending} {printed : Transcript} {journal : List Journal.Record}
  {logging : Config.LoggingSettings} {text : Bytes}

theorem shows_nil : Outcome.Shows ⟨e, [], journal, logging⟩ [] :=
  ⟨rfl, fun _ _ _ => (List.append_nil _).symm⟩

theorem shows_last (h : printed = [⟨text, journal.length⟩]) :
    Outcome.Shows ⟨e, printed, journal, logging⟩ text := by
  subst h
  refine ⟨List.append_nil text, fun library level pattern => ?_⟩
  generalize hlines : Outcome.lines ⟨e, _, journal, logging⟩ library level pattern = lines
  have hlength : lines.length = journal.length := by simp [← hlines, Outcome.lines]
  rw [Outcome.standardOutput, hlines, Transcript.among, Transcript.among, ← hlength]
  simp

end Output

section Run
variable {load : Bytes → Except Fault Config} {args : List Bytes} {p : Plant}

/-- A fault ends the invocation, wherever it comes from. -/
def Raises (load : Bytes → Except Fault Config) (args : List Bytes) (p : Plant) (f : Fault) :
    Prop :=
  ∃ i, Invocation.ofArgs? args = some i ∧
    ((obey load i).run (([] : Transcript), p)).1 = .error f

/-- A mistake of the caller: the arguments make no command, or one that an argument is missing from
or not accepted for. -/
inductive Mistaken (load : Bytes → Except Fault Config) (args : List Bytes) (p : Plant) : Prop
  | noCommand (h : Invocation.ofArgs? args = none)
  | misused {i : Invocation} {c : Config} {d : Deployment} {p' : Plant}
    (hargs : Invocation.ofArgs? args = some i) (hload : load i.file = .ok c)
    (hset : (setUp c).run p = (.ok d, p')) (h : Misused d i.family i.args)
  | noStem {i : Invocation} {c : Config} {d : Deployment} {p' : Plant}
    (hargs : Invocation.ofArgs? args = some i) (hload : load i.file = .ok c)
    (hset : (setUp c).run p = (.ok d, p')) (h : NoStem d i.family i.args)
  | refused {f : Fault} (hraises : Raises load args p f) (h : f.kind = .invalidArgument)

/-- **The exit code, both outputs and the way an invocation ended say the same.**  The journal goes
to the standard output whatever the ending. -/
structure Consistent (load : Bytes → Except Fault Config) (args : List Bytes) (p : Plant)
    (o : Outcome) : Prop where
  codes : o.code = 0 ∨ o.code = 1 ∨ o.code = 2 ∨ o.code = 3
  errors : o.code = 0 ↔ o.errors = []
  silent : o.code ≠ 0 → o.Shows []
  notFound : o.code = 3 ↔ ∃ f, Raises load args p f ∧ f.kind = .notFound
  mistaken : o.code = 1 ↔ Mistaken load args p
  failed : o.code = 2 ↔ ∃ f, Raises load args p f ∧ f.kind ≠ .notFound ∧ f.kind ≠ .invalidArgument
  asOf : ∀ file rest, args = ascii "--config" :: file :: ascii "as-of" :: rest →
    o.code = 0 → PrintsQuery rest o.Shows

/-- How an invocation with arguments ends: after setting its configuration up, as the command
does. -/
structure Returns (load : Bytes → Except Fault Config) (i : Invocation) (p : Plant) (e : Ending)
    (s : Transcript × Plant) : Prop where
  ends : ∃ c d p', load i.file = .ok c ∧ (setUp c).run p = (.ok d, p') ∧
    Ends d i.family i.args e s.1
  asOf : e = .done → i.family = ascii "as-of" → PrintsQuery i.args (PrintedLast s)

/-- An invocation that fails, which it does before, in or after setting its configuration up. -/
structure Aborts (load : Bytes → Except Fault Config) (i : Invocation) (p : Plant)
    (printed : Transcript) : Prop where
  fails : ∀ c d p', load i.file = .ok c → (setUp c).run p = (.ok d, p') →
    Fails d i.family i.args printed
  silent : printed = []

/-- A file is set up in one way. -/
theorem deployment_unique {file : Bytes} {c c' : Config} {d d' : Deployment} {p' p'' : Plant}
    (hload : load file = .ok c) (hset : (setUp c).run p = (.ok d, p'))
    (hload' : load file = .ok c') (hset' : (setUp c').run p = (.ok d', p'')) : d' = d := by
  rw [hload] at hload'
  cases hload'
  rw [hset] at hset'
  cases hset'
  rfl

theorem Aborts.of_fails {i : Invocation} {c : Config} {d : Deployment} {p' : Plant}
    {printed : Transcript} (hload : load i.file = .ok c)
    (hset : (setUp c).run p = (.ok d, p')) (h : Fails d i.family i.args printed) :
    Aborts load i p printed := by
  refine ⟨fun c' d' p'' hload' hset' => ?_, h.silent⟩
  rw [deployment_unique hload hset hload' hset']
  exact h

/-- The journal is started before the configuration is set up. -/
theorem setUp_run (c : Config) (p : Plant) :
    (setUp c).run p = (Deployment.build c).run (p.log metricsRecord) := rfl

theorem obey_meets (hp : p.Numbered) (load : Bytes → Except Fault Config) (i : Invocation) :
    (obey load i).Meets (· = (([] : Transcript), p)) (Returns load i p)
      fun _ s => Aborts load i p s.1 := by
  unfold obey
  refine .ofExcept_bind (fun c hload => ?_) fun f hload s hs => ?_
  · have hsets : (onPlant (setUp c)).Meets (· = (([] : Transcript), p))
        (fun d s => s.1 = [] ∧ (setUp c).run p = (.ok d, s.2))
        fun _ s => Aborts load i p s.1 := by
      rintro s rfl
      rw [run_onPlant]
      rcases hset : (setUp c).run p with ⟨f | d, p'⟩
      · refine ⟨fun c' d' p'' hload' hset' => ?_, rfl⟩
        rw [hload] at hload'
        cases hload'
        rw [hset] at hset'
        cases hset'
      · exact ⟨rfl, rfl⟩
    refine hsets.bind fun d => ?_
    rintro ⟨printed, p'⟩ ⟨rfl, hset⟩
    have hlogged : (p.log metricsRecord).Numbered := ⟨hp.hosts, hp.pools, hp.registries⟩
    have hbuild : (Deployment.build c).run (p.log metricsRecord) = (.ok d, p') := by
      rw [← setUp_run, hset]
    have hdispatch := dispatch_meets hlogged hbuild i.family i.args
    refine hdispatch.mono (fun _ hs => hs) (fun e s hend => ?_) (fun f s hend => ?_) ([], p') rfl
    · exact ⟨⟨c, d, p', hload, hset, hend.1⟩, hend.2⟩
    · exact .of_fails hload hset hend
  · rw [hs]
    refine ⟨fun c d p' hload' _ => ?_, rfl⟩
    rw [hload] at hload'
    cases hload'

theorem raises_iff {i : Invocation} (hargs : Invocation.ofArgs? args = some i) {f : Fault} :
    Raises load args p f ↔ ((obey load i).run (([] : Transcript), p)).1 = .error f := by
  constructor
  · rintro ⟨i', hi', h⟩
    rw [hargs] at hi'
    cases hi'
    exact h
  · exact fun h => ⟨i, hargs, h⟩

/-- A mistake in arguments that name a command and a file is one of the command, once its
configuration is set up, or a fault. -/
theorem Mistaken.of_args {i : Invocation} (h : Mistaken load args p)
    (hargs : Invocation.ofArgs? args = some i) :
    (∃ c d p', load i.file = .ok c ∧ (setUp c).run p = (.ok d, p') ∧
      (Misused d i.family i.args ∨ NoStem d i.family i.args)) ∨
    ∃ f, Raises load args p f ∧ f.kind = .invalidArgument := by
  cases h with
  | noCommand hnone =>
    rw [hargs] at hnone
    cases hnone
  | misused hargs' hload hset h =>
    rw [hargs] at hargs'
    cases hargs'
    exact .inl ⟨_, _, _, hload, hset, .inl h⟩
  | noStem hargs' hload hset h =>
    rw [hargs] at hargs'
    cases hargs'
    exact .inl ⟨_, _, _, hload, hset, .inr h⟩
  | refused hraises hkind => exact .inr ⟨_, hraises, hkind⟩

/-- It is enough to know which faults end an invocation, and when it ends for a mistake. -/
theorem consistent_of {o : Outcome} (hsilent : o.ending ≠ .done → o.Shows [])
    (hraises : ∀ f, o.ending = .failed f ↔ Raises load args p f)
    (hmistaken : o.ending = .misused ∨ o.ending = .noStem → Mistaken load args p)
    (hending : Mistaken load args p → o.ending = .misused ∨ o.ending = .noStem ∨
      ∃ f, o.ending = .failed f ∧ f.kind = .invalidArgument)
    (hasOf : ∀ file rest, args = ascii "--config" :: file :: ascii "as-of" :: rest →
      o.ending = .done → PrintsQuery rest o.Shows) : Consistent load args p o where
  codes := o.ending.code_cases
  errors := Ending.code_eq_zero_iff.trans Ending.errors_eq_nil_iff.symm
  silent hcode := hsilent fun hdone => hcode (Ending.code_eq_zero_iff.mpr hdone)
  notFound := by
    rw [Outcome.code, Ending.code_eq_three_iff]
    simp only [hraises]
  mistaken := by
    rw [Outcome.code, Ending.code_eq_one_iff]
    constructor
    · rintro (h | h | ⟨f, h, hkind⟩)
      · exact hmistaken (.inl h)
      · exact hmistaken (.inr h)
      · exact .refused ((hraises f).mp h) hkind
    · exact hending
  failed := by
    rw [Outcome.code, Ending.code_eq_two_iff]
    simp only [hraises]
  asOf file rest hargs hcode := hasOf file rest hargs (Ending.code_eq_zero_iff.mp hcode)

/-- Arguments that name no command and no file. -/
theorem consistent_of_none (hargs : Invocation.ofArgs? args = none) :
    Consistent load args p { ending := .misused } := by
  refine consistent_of (fun _ => shows_nil) (fun f => ⟨nofun, ?_⟩) (fun _ => .noCommand hargs)
    (fun _ => .inl rfl) fun file rest hrest _ => ?_
  · rintro ⟨i, hi, -⟩
    rw [hargs] at hi
    cases hi
  · rw [hrest, Invocation.ofArgs?, if_pos rfl] at hargs
    cases hargs

section Obeyed
variable {i : Invocation} {e : Ending} {f : Fault} {printed : Transcript} {q : Plant}
  {logging : Config.LoggingSettings}

theorem consistent_of_returns (hargs : Invocation.ofArgs? args = some i)
    (hend : ((obey load i).run (([] : Transcript), p)).1 = .ok e)
    (hreturns : Returns load i p e (printed, q)) :
    Consistent load args p ⟨e, printed, q.journal, logging⟩ := by
  obtain ⟨⟨c, d, p', hload, hset, hends⟩, hasOf⟩ := hreturns
  have hnot (f : Fault) : ¬ Raises load args p f := by
    rw [raises_iff hargs, hend]
    nofun
  refine consistent_of (fun hdone => ?_) (fun f => ?_) ?_ ?_ ?_
  · obtain rfl : printed = [] := hends.silent hdone
    exact shows_nil
  · exact ⟨fun h => absurd h (hends.unfailed f), fun h => absurd h (hnot f)⟩
  · rintro (rfl | rfl)
    · exact .misused hargs hload hset (hends.misused.mp rfl)
    · exact .noStem hargs hload hset (hends.noStem.mp rfl)
  · intro hmistaken
    rcases hmistaken.of_args hargs with ⟨c', d', p'', hload', hset', h⟩ | ⟨f, hraises, -⟩
    · rw [deployment_unique hload hset hload' hset'] at h
      exact h.imp hends.misused.mpr fun h => .inl (hends.noStem.mpr h)
    · exact absurd hraises (hnot f)
  · rintro file rest rfl hdone
    rw [Invocation.ofArgs?, if_pos rfl] at hargs
    cases hargs
    obtain ⟨name, interval, query, sql, hrest, hsql, hprinted⟩ := hasOf hdone rfl
    exact ⟨name, interval, query, sql, hrest, hsql, shows_last hprinted⟩

theorem consistent_of_aborts (hargs : Invocation.ofArgs? args = some i)
    (hend : ((obey load i).run (([] : Transcript), p)).1 = .error f)
    (haborts : Aborts load i p printed) :
    Consistent load args p ⟨.failed f, printed, q.journal, logging⟩ := by
  have hraises (g : Fault) : Raises load args p g ↔ g = f := by
    rw [raises_iff hargs, hend, Except.error.injEq, eq_comm]
  obtain rfl : printed = [] := haborts.silent
  refine consistent_of (fun _ => shows_nil) (fun g => ?_) ?_ ?_ fun _ _ _ => nofun
  · rw [hraises, Ending.failed.injEq, eq_comm]
  · rintro (h | h)
    · cases h
    · cases h
  · intro hmistaken
    rcases hmistaken.of_args hargs with ⟨c, d, p', hload, hset, h⟩ | ⟨g, hraised, hkind⟩
    · have hfails := haborts.fails c d p' hload hset
      exact h.elim (fun h => absurd h hfails.usual) fun h => absurd h hfails.stem
    · rw [(hraises g).mp hraised] at hkind
      exact .inr (.inr ⟨f, rfl, hkind⟩)

end Obeyed

end Run

/-- **The exit code, the two outputs and the way a command ended say the same.** -/
theorem run_consistent (load : Bytes → Except Fault Config) (args : List Bytes)
    (script : Client.Sqlite) :
    Consistent load args { sqlite := script } (run load args script) := by
  have hp : Plant.Numbered { sqlite := script } := ⟨nofun, nofun, nofun⟩
  unfold run
  cases hargs : Invocation.ofArgs? args with
  | none => exact consistent_of_none hargs
  | some i =>
    have hmeets := obey_meets hp load i _ rfl
    rcases hrun : (obey load i).run (([] : Transcript), { sqlite := script }) with
      ⟨f | e, printed, q⟩
    · rw [hrun] at hmeets
      simp only [hrun]
      exact consistent_of_aborts hargs (by rw [hrun]) hmeets
    · rw [hrun] at hmeets
      simp only [hrun]
      exact consistent_of_returns hargs (by rw [hrun]) hmeets

/-- The outcome of a listing of a participant that is not there, under a configuration that wants
of a record its level and its text. -/
def listingNobody : Outcome :=
  run (fun _ => .ok {
      logging := { pattern := ascii "%l|%v" }
      participants := [{ name := ascii "p", backend := some (.memory []) }] })
    [ascii "--config", [], ascii "recover", ascii "list", ascii "nosuch"] {}

/-- Its standard output is not empty, although it ends with code 3: the journal is there. -/
theorem journal_on_standard_output : listingNobody.code = 3 ∧
    listingNobody.standardOutput Config.Logging.plain none none =
      ascii "info|Participant configured name=p dialect=mysql\n" := by
  decide +kernel

/-- There is nothing to sweep on an engine that was just set up.  The sweep has its record in the
middle of the line about it. -/
example : (run
    (fun _ => .ok { participants := [{ name := ascii "p", backend := some (.memory []) }] })
    [ascii "--config", [], ascii "recover", ascii "cleanup", ascii "p", ascii "old"]
    {}).standardOutput Config.Logging.plain none none =
      ascii "info|Participant configured name=p dialect=mysql\n" ++
      ascii "rolled back info|Stale XA sweep finished participant=p prefix=\"old\" " ++
      ascii "rolled_back=0 failed=0\n0 transaction(s)\n" := by decide +kernel

end Command
end Coordinator

import Coordinator.Proofs.Registry.Traffic

/-! # Calls of a registry that interleave

Sessions leave the registry while statements run for them, and meanwhile another call may register
one for the same xid.  **Sessions are in custody through all of it** (`custody_run`): the registry
has one session an xid, open and filed under its own xid; every connection lent is in one place, the
registry, one call or back where it came from; and no other call sends a statement for a session
which a commit or a rollback took out.

What every step preserves (`Tidy`) is an account of loans: those of the registry, those in the hands
of calls and those that are over make up all that were lent.  A step moves loans from one of these
to another (`Effect.balance`), so no loan is ever in two places, and none is lost. -/
namespace Coordinator.Registry

/-! ## What steps do to sessions -/

section Effect
variable {i : Nat} {φ : Phase Nat} {y y' : Yard} {next : Next Nat} {c : Nat}

/-- A step moves loans from place to place, and adds the one it lends. -/
theorem Effect.balance (h : Effect i φ y next y') (n : Nat) :
    y'.filed.count n + next.loan?.toList.count n + y'.closed.count n + (List.range y.lent).count n =
      y.filed.count n + φ.loan?.toList.count n + y.closed.count n +
        (List.range y'.lent).count n := by
  cases h with
  | refused e hφ => rw [hφ]; rfl
  | wasted e sql hφ =>
    rw [hφ, List.range_succ, List.count_append]
    simp only [Yard.filed, Next.loan?_ended, Option.toList_none, List.count_nil, List.count_cons]
    omega
  | started s sql hφ hs hc =>
    have hnew : (Next.goesOn (.insert s)).loan? = some y.lent := hc
    rw [hφ, hnew, List.range_succ, List.count_append]
    simp only [Yard.filed, Option.toList_none, Option.toList_some, List.count_nil]
    omega
  | filed e s hφ hs hm hfree =>
    have hloan : φ.loan? = s.connection := by rw [Phase.loan?, hφ]; rfl
    -- The xid was free, so the session is registered in the place of no other.
    have hfiled := (Table.items_insert_perm (f := Session.connection) y.registry s.xid s).count_eq n
    rw [Table.erase_of_absent hfree, List.count_append] at hfiled
    rw [hloan]
    simp only [Yard.filed, Next.loan?_ended, Option.toList_none, List.count_nil, hfiled]
    omega
  | took x s c m hφ hs hx hc =>
    have hnew : (Next.goesOn (.check m s)).loan? = s.connection := rfl
    have hfiled := (Table.items_perm_of_get? (f := Session.connection) hx).count_eq n
    rw [List.count_append] at hfiled
    rw [hφ, hnew]
    simp only [Yard.filed, Option.toList_none, List.count_nil, hfiled]
    omega
  | wentOn ψ c sqls hφ hψ hc hm =>
    have hnew : (Next.goesOn ψ).loan? = some c := hc
    rw [hφ, hnew]
    rfl
  | closed e c hφ =>
    rw [hφ]
    simp only [Yard.filed, Next.loan?_ended, Option.toList_none, Option.toList_some, List.count_nil,
      List.count_cons]
    omega

/-- What is registered stays in order. -/
theorem Effect.inOrder (h : Effect i φ y next y') (hy : y.registry.InOrder) :
    y'.registry.InOrder := by
  cases h with
  | filed e s hφ hs hm hfree => exact hy.insert hs
  | took x s c m hφ hs hx hc => exact hy.erase x
  | refused | wasted | started | wentOn | closed => exact hy

theorem Effect.fit (h : Effect i φ y next y') {ψ : Phase Nat} (hψ : next.phase? = some ψ) :
    ψ.Fit := by
  cases h with
  | started s sql hφ hs hc => cases hψ; exact .insert hs
  | took x s c m hφ hs hx hc => cases hψ; exact .check hs
  | wentOn ψ' c sqls hφ hψ' hc hm => cases hψ; exact hψ'
  | refused | wasted | filed | closed => cases hψ

/-- What is closed stays closed. -/
theorem Effect.closed_of (h : Effect i φ y next y') (hc : c ∈ y.closed) : c ∈ y'.closed := by
  cases h with
  | wasted | closed => exact List.mem_cons_of_mem _ hc
  | refused | started | filed | took | wentOn => exact hc

/-- A session taken out for good stays with the call until it is closed. -/
theorem Effect.keeps (h : Effect i φ y next y') (hc : φ.loan? = some c) (hm : φ.settles = true) :
    c ∈ y'.closed ∨ ∃ ψ, next.phase? = some ψ ∧ ψ.loan? = some c ∧ ψ.settles = true := by
  cases h with
  | refused e hφ | wasted e sql hφ | started s sql hφ | took x s c' m hφ =>
    rw [hφ] at hc
    cases hc
  | filed e s hφ hs hm' =>
    -- Only sessions that are to come back are registered.
    rw [hm'] at hm
    cases hm
  | wentOn ψ c' sqls hφ hψ hc' hm' =>
    rw [hφ] at hc
    cases hc
    exact .inr ⟨ψ, rfl, hc', hm' hm⟩
  | closed e c' hφ =>
    rw [hφ] at hc
    cases hc
    exact .inl List.mem_cons_self

/-- What a step adds to the log: statements over the connection in hand or a new one, and the taking
of a session that is in hand then. -/
inductive Added (i : Nat) (φ : Phase Nat) (y : Yard) (next : Next Nat) : Event → Prop
  | sent {c : Nat} {sql : Bytes} (hc : c = y.lent ∨ φ.loan? = some c) :
      Added i φ y next (.sent i c sql)
  | took {c : Nat} {m : Task} {ψ : Phase Nat} (hψ : next.phase? = some ψ)
      (hc : ψ.loan? = some c) (hm : m.settles = true → ψ.settles = true) :
      Added i φ y next (.took i c m)

theorem Effect.log (h : Effect i φ y next y') :
    ∃ events, y'.log = events ++ y.log ∧ ∀ e ∈ events, Added i φ y next e := by
  cases h with
  | refused | filed | closed => exact ⟨[], rfl, nofun⟩
  | wasted e sql hφ =>
    exact ⟨[_], rfl, fun e he => List.mem_singleton.mp he ▸ .sent (.inl rfl)⟩
  | started s sql hφ hs hc =>
    exact ⟨[_], rfl, fun e he => List.mem_singleton.mp he ▸ .sent (.inl rfl)⟩
  | took x s c m hφ hs hx hc =>
    exact ⟨[_], rfl, fun e he => List.mem_singleton.mp he ▸ .took rfl hc id⟩
  | wentOn ψ c sqls hφ hψ hc hm =>
    refine ⟨_, rfl, fun e he => ?_⟩
    obtain ⟨sql, -, rfl⟩ := List.mem_map.mp he
    exact .sent (.inr hφ)

end Effect

/-! ## What holds at every moment -/

/-- The loans of sessions in the hands of calls. -/
def Traffic.held (w : Traffic) : List Nat := w.calls.values.filterMap Phase.loan?

/-- The later event is no statement of another call for a session that the earlier one took out for
good. -/
def Event.Leaves (later earlier : Event) : Prop := ∀ i j c m sql,
  earlier = .took i c m → m.settles = true → later = .sent j c sql → j = i

/-- What every step preserves. -/
structure Tidy (w : Traffic) : Prop where
  filed : w.yard.registry.InOrder
  fit : ∀ i φ, w.calls.get? i = some φ → φ.Fit ∧ i < w.made
  /-- Each loan is in one place. -/
  once : (w.yard.filed ++ w.held ++ w.yard.closed).Perm (List.range w.yard.lent)
  /-- A session taken out for good is still with the call that took it, or closed. -/
  taken : ∀ i c m, .took i c m ∈ w.yard.log → m.settles = true → c ∈ w.yard.closed ∨
    ∃ φ, w.calls.get? i = some φ ∧ φ.loan? = some c ∧ φ.settles = true
  silent : w.yard.log.Pairwise Event.Leaves

namespace Tidy

variable {P : Participant} {w : Traffic} {i j c : Nat} {φ ψ : Phase Nat} {r : Next Nat × Yard}

theorem count_eq (hw : Tidy w) (n : Nat) :
    w.yard.filed.count n + w.held.count n + w.yard.closed.count n =
      (List.range w.yard.lent).count n := by
  have hcount := hw.once.count_eq n
  rwa [List.count_append, List.count_append] at hcount

theorem count_le (hw : Tidy w) (n : Nat) :
    w.yard.filed.count n + w.held.count n + w.yard.closed.count n ≤ 1 := by
  rw [hw.count_eq]
  exact List.nodup_iff_count.mp List.nodup_range n

theorem mem_held (hφ : w.calls.get? i = some φ) (hc : φ.loan? = some c) : c ∈ w.held :=
  (Table.mem_items_iff _ c).mpr ⟨i, φ, hφ, hc⟩

theorem filed_nodup (hw : Tidy w) : w.yard.filed.Nodup := by
  refine List.nodup_iff_count.mpr fun n => ?_
  have hle := hw.count_le n
  omega

theorem held_nodup (hw : Tidy w) : w.held.Nodup := by
  refine List.nodup_iff_count.mpr fun n => ?_
  have hle := hw.count_le n
  omega

/-- A session in hand is in one hand. -/
theorem hand_unique (hw : Tidy w) (hφ : w.calls.get? i = some φ) (hc : φ.loan? = some c)
    (hψ : w.calls.get? j = some ψ) (hc' : ψ.loan? = some c) : i = j :=
  Table.key_unique hw.held_nodup hφ hc hψ hc'

theorem not_closed_of_held (hw : Tidy w) (hc : c ∈ w.held) : c ∉ w.yard.closed := by
  intro hclosed
  have hheld := List.count_pos_iff.mpr hc
  have hclosed := List.count_pos_iff.mpr hclosed
  have hle := hw.count_le c
  omega

theorem lt_of_held (hw : Tidy w) (hc : c ∈ w.held) : c < w.yard.lent := by
  have hmem : c ∈ w.yard.filed ++ w.held ++ w.yard.closed :=
    List.mem_append_left _ (List.mem_append_right _ hc)
  exact List.mem_range.mp (hw.once.mem_iff.mp hmem)

theorem lt_of_closed (hw : Tidy w) (hc : c ∈ w.yard.closed) : c < w.yard.lent :=
  List.mem_range.mp (hw.once.mem_iff.mp (List.mem_append_right _ hc))

theorem empty : Tidy {} where
  filed x s h := by cases h
  fit i φ h := by cases h
  once := .refl _
  taken i c m h := by cases h
  silent := .nil

/-- A new call has nothing in hand. -/
theorem invoke (hw : Tidy w) (call : Call) : Tidy (w.step P (.invoke call)) := by
  have hnew : w.calls.get? w.made = none := by
    cases hc : w.calls.get? w.made with
    | none => rfl
    | some φ => exact absurd (hw.fit _ φ hc).2 (Nat.lt_irrefl _)
  have hphase : (call.phase : Phase Nat).Fit ∧ (call.phase : Phase Nat).loan? = none := by
    cases call with
    | start x => exact ⟨.start, rfl⟩
    | finish x | prepare x | commit x | rollback x => exact ⟨.take, rfl⟩
  have hheld : (w.step P (.invoke call)).held.Perm w.held := by
    have hperm := Table.items_insert_perm (f := Phase.loan?) w.calls w.made (call.phase : Phase Nat)
    rwa [Table.erase_of_absent hnew, hphase.2] at hperm
  refine ⟨hw.filed, fun i φ hi => ?_, ?_, fun i c m hlog hm => ?_, hw.silent⟩
  · have hget : (w.calls.insert w.made call.phase).get? i = some φ := hi
    rw [Table.get?_insert] at hget
    split at hget
    · next heq =>
      cases hget
      exact ⟨hphase.1, heq ▸ Nat.lt_succ_self _⟩
    · exact ⟨(hw.fit i φ hget).1, Nat.lt_succ_of_lt (hw.fit i φ hget).2⟩
  · exact ((hheld.append_left _).append_right _).trans hw.once
  · rcases hw.taken i c m hlog hm with hclosed | ⟨φ, hφ, hloan⟩
    · exact .inl hclosed
    · refine .inr ⟨φ, ?_, hloan⟩
      show (w.calls.insert w.made call.phase).get? i = some φ
      rw [Table.get?_insert, if_neg (Nat.ne_of_lt (hw.fit i φ hφ).2), hφ]

/-- After a step, the call is in its next phase, and the others are where they were. -/
theorem get?_settle : (w.settle i r).calls.get? j =
    if j = i then r.1.phase? else w.calls.get? j := by
  obtain ⟨e | φ, y⟩ := r
  · exact Table.get?_erase ..
  · exact Table.get?_insert ..

theorem yard_settle : (w.settle i r).yard = r.2 := by
  obtain ⟨e | φ, y⟩ := r <;> rfl

theorem made_settle : (w.settle i r).made = w.made := by
  obtain ⟨e | φ, y⟩ := r <;> rfl

theorem held_settle : (w.settle i r).held.Perm
    (r.1.loan?.toList ++ (w.calls.erase i).values.filterMap Phase.loan?) := by
  obtain ⟨e | φ, y⟩ := r
  · exact .refl _
  · exact Table.items_insert_perm w.calls i φ

variable {y' : Yard} {next : Next Nat}

/-- The loans add up as the step has them add up. -/
theorem once_settle (hw : Tidy w) (hφ : w.calls.get? i = some φ) (h : Effect i φ w.yard next y') :
    ((w.settle i (next, y')).yard.filed ++ (w.settle i (next, y')).held ++
      (w.settle i (next, y')).yard.closed).Perm (List.range (w.settle i (next, y')).yard.lent) := by
  rw [List.perm_iff_count, yard_settle]
  intro n
  have hold := hw.count_eq n
  have hbalance := h.balance n
  have hbefore : w.held.count n = _ := (Table.items_perm_of_get? (f := Phase.loan?) hφ).count_eq n
  have hafter := (held_settle (w := w) (i := i) (r := (next, y'))).count_eq n
  rw [List.count_append] at hbefore hafter
  rw [List.count_append, List.count_append]
  dsimp only at hafter ⊢
  omega

theorem taken_settle (hw : Tidy w) (hφ : w.calls.get? i = some φ) (h : Effect i φ w.yard next y')
    {m : Task} (hj : .took j c m ∈ y'.log) (hm : m.settles = true) : c ∈ y'.closed ∨
      ∃ ψ, (w.settle i (next, y')).calls.get? j = some ψ ∧ ψ.loan? = some c ∧ ψ.settles = true := by
  obtain ⟨events, hlog, hadded⟩ := h.log
  rw [hlog] at hj
  rcases List.mem_append.mp hj with hnew | hold
  · cases hadded _ hnew with
    | took hψ hc hsettles =>
      refine .inr ⟨_, ?_, hc, hsettles hm⟩
      rw [get?_settle, if_pos rfl, hψ]
  · -- What was taken out before is where it was, unless this call had it in hand.
    rcases hw.taken j c m hold hm with hclosed | ⟨ψ, hψ, hc, hsettles⟩
    · exact .inl (h.closed_of hclosed)
    · by_cases hji : j = i
      · subst hji
        rw [hφ] at hψ
        cases hψ
        rcases h.keeps hc hsettles with hclosed | ⟨ψ, hψ, hloan⟩
        · exact .inl hclosed
        · refine .inr ⟨ψ, ?_, hloan⟩
          rw [get?_settle, if_pos rfl, hψ]
      · refine .inr ⟨ψ, ?_, hc, hsettles⟩
        rw [get?_settle, if_neg hji, hψ]

/-- A statement goes over a new connection or over the one in hand, and no session that another call
took out for good has either. -/
theorem silent_settle (hw : Tidy w) (hφ : w.calls.get? i = some φ)
    (h : Effect i φ w.yard next y') : y'.log.Pairwise Event.Leaves := by
  obtain ⟨events, hlog, hadded⟩ := h.log
  rw [hlog]
  refine List.pairwise_append.mpr ⟨?_, hw.silent, fun later hlater earlier hearlier => ?_⟩
  · -- Whatever a step adds is of its own call.
    refine List.pairwise_of_forall_mem_list ?_
    intro later hlater earlier hearlier k j c m sql hk hm hj
    subst hk hj
    cases hadded _ hlater
    cases hadded _ hearlier
    rfl
  · intro k j c m sql hk hm hj
    subst hk hj
    cases hadded _ hlater with
    | sent hc =>
      rcases hw.taken k c m hearlier hm with hclosed | ⟨ψ, hψ, hloan, -⟩
      · rcases hc with rfl | hc
        · exact absurd (hw.lt_of_closed hclosed) (Nat.lt_irrefl _)
        · exact absurd hclosed (hw.not_closed_of_held (mem_held hφ hc))
      · rcases hc with rfl | hc
        · exact absurd (hw.lt_of_held (mem_held hψ hloan)) (Nat.lt_irrefl _)
        · exact hw.hand_unique hφ hc hψ hloan

theorem settle (hw : Tidy w) (hφ : w.calls.get? i = some φ) (h : Effect i φ w.yard next y') :
    Tidy (w.settle i (next, y')) := by
  refine ⟨?_, fun j ψ hj => ?_, hw.once_settle hφ h, fun j c m hj hm => ?_, ?_⟩
  · rw [yard_settle]
    exact h.inOrder hw.filed
  · rw [get?_settle] at hj
    rw [made_settle]
    split at hj
    · next heq => exact ⟨h.fit hj, heq ▸ (hw.fit i φ hφ).2⟩
    · exact hw.fit j ψ hj
  · rw [yard_settle] at hj ⊢
    exact hw.taken_settle hφ h hj hm
  · rw [yard_settle]
    exact hw.silent_settle hφ h

theorem step (hw : Tidy w) (what : Step) : Tidy (w.step P what) := by
  cases what with
  | invoke call => exact hw.invoke call
  | advance i a =>
    unfold Traffic.step
    dsimp only
    cases hφ : w.calls.get? i with
    | none => exact hw
    | some φ => exact hw.settle hφ (effect_advance (hw.fit i φ hφ).1 hw.filed)

theorem run (hw : Tidy w) (steps : List Step) : Tidy (w.run P steps) := by
  induction steps generalizing w with
  | nil => exact hw
  | cons what steps ih => exact ih (hw.step what)

end Tidy

/-! ## Custody -/

/-- Where the connection of a session can be. -/
inductive Place
  | registry (x : Bytes)
  | call (i : Nat)
  | closed

/-- A connection is at a place. -/
def Traffic.At (w : Traffic) (c : Nat) : Place → Prop
  | .registry x => ∃ s, w.yard.registry.get? x = some s ∧ s.connection = some c
  | .call i => ∃ φ, w.calls.get? i = some φ ∧ φ.loan? = some c
  | .closed => c ∈ w.yard.closed

/-- Sessions are kept one an xid, each in one place, and left alone by all other calls once a call
took them out for good. -/
structure Custody (w : Traffic) : Prop where
  /-- No two registered sessions have the same xid. -/
  distinct : (w.yard.registry.values.map Session.xid).Nodup
  /-- A registered session is filed under its xid, open, and started, ended or prepared. -/
  registered : ∀ x s, w.yard.registry.get? x = some s → s.xid = x ∧ s.isOpen = true ∧
    (s.state = .started ∨ s.state = .ended ∨ s.state = .prepared)
  /-- The connection lent for a session is in the registry, with one call, or back. -/
  place : ∀ c < w.yard.lent, ∃! p, w.At c p
  /-- No connection goes back twice. -/
  closed : w.yard.closed.Nodup
  /-- Once a commit or a rollback took a session out, no other call sends a statement for it. -/
  silent : ∀ later earlier i c m, w.yard.log = later ++ .took i c m :: earlier →
    m = .commit ∨ m = .rollback → ∀ j sql, .sent j c sql ∈ later → j = i

section Custody
variable {w : Traffic} {c : Nat} {p q : Place}

theorem Tidy.exists_place (hw : Tidy w) (hc : c < w.yard.lent) : ∃ p, w.At c p := by
  have hmem := hw.once.mem_iff.mpr (List.mem_range.mpr hc)
  rcases List.mem_append.mp hmem with hmem | hclosed
  · rcases List.mem_append.mp hmem with hfiled | hheld
    · obtain ⟨x, s, hs, hsc⟩ := (Table.mem_items_iff _ c).mp hfiled
      exact ⟨.registry x, s, hs, hsc⟩
    · obtain ⟨i, φ, hφ, hφc⟩ := (Table.mem_items_iff _ c).mp hheld
      exact ⟨.call i, φ, hφ, hφc⟩
  · exact ⟨.closed, hclosed⟩

/-- The connections at places of one kind. -/
def Traffic.loansAt (w : Traffic) : Place → List Nat
  | .registry _ => w.yard.filed
  | .call _ => w.held
  | .closed => w.yard.closed

theorem Traffic.At.mem (hp : w.At c p) : c ∈ w.loansAt p := by
  cases p with
  | registry x =>
    obtain ⟨s, hs, hsc⟩ := hp
    exact (Table.mem_items_iff _ c).mpr ⟨x, s, hs, hsc⟩
  | call i =>
    obtain ⟨φ, hφ, hφc⟩ := hp
    exact Tidy.mem_held hφ hφc
  | closed => exact hp

theorem Tidy.place_unique (hw : Tidy w) (hp : w.At c p) (hq : w.At c q) : p = q := by
  have hle := hw.count_le c
  have hpc := List.count_pos_iff.mpr hp.mem
  have hqc := List.count_pos_iff.mpr hq.mem
  -- Places of two kinds would hold the connection twice.
  cases p with
  | registry x =>
    cases q with
    | registry x' =>
      obtain ⟨s, hs, hsc⟩ := hp
      obtain ⟨s', hs', hsc'⟩ := hq
      rw [Table.key_unique hw.filed_nodup hs hsc hs' hsc']
    | call | closed => simp only [Traffic.loansAt] at hpc hqc; omega
  | call i =>
    cases q with
    | call j =>
      obtain ⟨φ, hφ, hφc⟩ := hp
      obtain ⟨ψ, hψ, hψc⟩ := hq
      rw [hw.hand_unique hφ hφc hψ hψc]
    | registry | closed => simp only [Traffic.loansAt] at hpc hqc; omega
  | closed =>
    cases q with
    | closed => rfl
    | registry | call => simp only [Traffic.loansAt] at hpc hqc; omega

theorem Tidy.custody (hw : Tidy w) : Custody w where
  distinct := by
    have hkeys : w.yard.registry.values.map Session.xid = w.yard.registry.keys := by
      rw [Table.values, Table.keys, List.map_map]
      refine List.map_congr_left fun ⟨x, s⟩ he => ?_
      exact (hw.filed x s ((Table.mem_entries_iff _ x s).mp he)).1
    rw [hkeys]
    exact w.yard.registry.nodup
  registered x s hx := ⟨(hw.filed x s hx).1, (hw.filed x s hx).2⟩
  place c hc := by
    obtain ⟨p, hp⟩ := hw.exists_place hc
    exact ⟨p, hp, fun q hq => hw.place_unique hq hp⟩
  closed := by
    refine List.nodup_iff_count.mpr fun n => ?_
    have hle := hw.count_le n
    omega
  silent := by
    intro later earlier i c m hlog hm j sql hj
    have hpair := hw.silent
    rw [hlog] at hpair
    have hleaves := (List.pairwise_append.mp hpair).2.2 _ hj _ List.mem_cons_self
    exact hleaves i j c m sql rfl (by rcases hm with rfl | rfl <;> rfl) rfl

/-- **Registered sessions under interleaving.**  Whatever the dialect, whatever the backend answers,
however many calls there are and however their steps interleave, sessions are in custody at every
moment. -/
theorem custody_run (P : Participant) (steps : List Step) : Custody (Traffic.run P {} steps) :=
  (Tidy.empty.run steps).custody

/-- A prepare is overtaken.  While its statement runs, another session is started under the xid, so
the first one finds no room and is dropped; the second one stays. -/
example :
    let yes : Answer := ⟨.ok (), .ok ()⟩
    let w := Traffic.run ⟨[], .postgres⟩ {} <|
      [.invoke (.start [112]), .advance 0 yes, .advance 0 yes, .invoke (.finish [112])] ++
        List.replicate 4 (.advance 1 yes) ++ [.invoke (.prepare [112])] ++
        List.replicate 3 (.advance 2 yes) ++
        [.invoke (.start [112]), .advance 3 yes, .advance 3 yes] ++
        List.replicate 3 (.advance 2 yes)
    (w.yard.filed, w.held, w.yard.closed) = ([1], [], [0]) := by decide

end Custody

end Coordinator.Registry

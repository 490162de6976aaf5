import Coordinator.Proofs.Sql.Reading

/-! # Where the words of a statement are

The words outside parentheses, quoted text and comments are found by their places (`IsTopLevel`): a
maximal run of word bytes, over which the reader of the statement is outside of everything.
**Call after call, the scanner finds exactly these runs, from left to right** (`finds_runs`).

Reader and scanner are known to meet the same words in the same order, so a place is fixed by the
number of words before it (`met`).  That number grows with the text, and grows by one at every place
where a word starts (`Run.met_lt`).  So there is one place for each number: the run at a place is the
word that the scanner finds after so many others, and of two words the later one starts later. -/
namespace Coordinator.Sql

open Reading

variable {sql u u' v v' text : Bytes} {b : UInt8} {w w' : Word} {r : Reading}

/-! ## Places -/

/-- A text after which the reader is outside quoted text, comments and parentheses. -/
def Exposed (before : Bytes) : Prop :=
  (reading before).region.isOutside = true ∧ (reading before).depth = 0

/-- The word is a maximal run of word bytes of the statement, after the text `before`. -/
structure Run (sql before : Bytes) (w : Word) (after : Bytes) : Prop where
  split : sql = before ++ (w.text ++ after)
  offset : w.offset = before.length
  nonempty : w.text ≠ []
  bytes : ∀ b ∈ w.text, isWordByte b = true
  left : ∀ b, before.getLast? = some b → isWordByte b = false
  right : ∀ b, after.head? = some b → isWordByte b = false

/-- The word is a maximal run outside of everything, from its first byte to its end. -/
def IsTopLevel (sql : Bytes) (w : Word) : Prop :=
  ∃ before after, Run sql before w after ∧ ∀ part, part <+: w.text → Exposed (before ++ part)

/-- The words that a scanner finds, call after call, up to the call that finds none. -/
inductive Calls : Scanner → List Word → Prop
  | last {s} (h : s.next? = none) : Calls s []
  | next {s t w ws} (h : s.next? = some (w, t)) (rest : Calls t ws) : Calls s (w :: ws)

/-! ## Readers between words -/

/-- A reader for which the next word byte starts a word outside parentheses. -/
structure Reading.Ready (r : Reading) : Prop where
  outside : r.region.isOutside = true
  depth : r.depth = 0
  word : r.word = []

theorem reading_concat (u : Bytes) (b : UInt8) : reading (u ++ [b]) = (reading u).step b :=
  reading_append u [b]

/-- A word is over for the reader where the last byte is not part of one. -/
theorem ready_iff : (reading u).Ready ↔
    Exposed u ∧ ∀ b, u.getLast? = some b → isWordByte b = false := by
  constructor
  · intro h
    refine ⟨⟨h.outside, h.depth⟩, fun b hlast => ?_⟩
    obtain ⟨u, rfl⟩ := List.getLast?_eq_some_iff.mp hlast
    by_contra hb
    rw [Bool.not_eq_false] at hb
    rw [reading_concat] at h
    have hout : (reading u).region.isOutside = true := by
      rw [← isOutside_step hb, ← region_step]
      exact h.outside
    have hregion : (reading u).region.step b = .plain := step_of_isWordByte hb hout
    -- The word byte is in the word of the reader.
    have hword := h.word
    rw [Reading.step, if_pos ⟨hregion, hb⟩] at hword
    simp at hword
  · rintro ⟨⟨hout, hdepth⟩, hleft⟩
    refine ⟨hout, hdepth, ?_⟩
    rcases List.eq_nil_or_concat u with rfl | ⟨u, b, rfl⟩
    · rfl
    · rw [List.concat_eq_append] at hleft ⊢
      rw [reading_concat, step_of_not_isWordByte (hleft b List.getLast?_concat)]

theorem Reading.Ready.words_eq (h : r.Ready) : r.words = r.done := by
  rw [Reading.words, if_pos h.word, List.append_nil]

/-- A word, from its start. -/
theorem Reading.Ready.after_word (h : r.Ready) (hne : text ≠ [])
    (hbytes : ∀ b ∈ text, isWordByte b = true) :
    r.after text = ⟨.plain, 0, r.done, text⟩ := by
  obtain ⟨b, s, rfl⟩ := List.exists_cons_of_ne_nil hne
  obtain ⟨hb, hs⟩ := List.forall_mem_cons.mp hbytes
  have hregion : r.region.step b = .plain := step_of_isWordByte hb h.outside
  have hstep : r.step b = ⟨.plain, 0, r.done, [b]⟩ := by
    unfold Reading.step
    rw [if_pos ⟨hregion, hb⟩, hregion, h.depth, h.word]
    rfl
  rw [after_cons, hstep, Reading.after_word s hs _ rfl]
  rfl

/-- What starts outside of everything stays there. -/
theorem Run.exposed (hrun : Run sql u w v) (h : (reading u).Ready) {part : Bytes}
    (hpart : part <+: w.text) : Exposed (u ++ part) := by
  by_cases hne : part = []
  · rw [hne, List.append_nil]
    exact (ready_iff.mp h).1
  · have hafter := h.after_word hne fun b hb => hrun.bytes b (hpart.subset hb)
    rw [Exposed, reading_append, hafter]
    exact ⟨rfl, rfl⟩

/-- The words of a text with a run in it. -/
theorem words_of_run (hrun : Run sql u w v) (h : (reading u).Ready) :
    ∃ rest, (reading sql).words = (reading u).words ++ (0, w.text) :: rest := by
  have halike : Alike v ⟨.plain, 0, (reading u).done, w.text⟩
      (between 0 ((reading u).done ++ [(0, w.text)])) :=
    alike_of_word w.text hrun.nonempty hrun.right
  refine ⟨((between 0 []).after v).words, ?_⟩
  rw [hrun.split, reading_append, after_append, h.after_word hrun.nonempty hrun.bytes,
    halike.words_after, words_after_between, h.words_eq, List.append_assoc]
  rfl

/-! ## The number of words before a place -/

/-- How many words outside parentheses the reader has met. -/
def met (r : Reading) : Nat := (topLevel r.words).length

theorem met_le_step (r : Reading) (b : UInt8) : met r ≤ met (r.step b) := by
  by_cases h : r.region.step b = .plain ∧ isWordByte b = true
  · -- The word that the reader is in becomes longer, or a word starts.
    have hstep : (r.step b).words = r.done ++ [(r.depth, r.word ++ [b])] := by
      rw [Reading.step, if_pos h, Reading.words, if_neg (by simp)]
    rw [met, met, hstep, topLevel_append, List.length_append, Reading.words, topLevel_append,
      List.length_append]
    refine Nat.add_le_add_left ?_ _
    by_cases hword : r.word = []
    · rw [if_pos hword]
      exact Nat.zero_le _
    · rw [if_neg hword]
      by_cases hdepth : r.depth = 0 <;> simp [topLevel, hdepth]
  · have hstep : (r.step b).words = r.words := by
      rw [Reading.step, if_neg h]
      exact List.append_nil _
    rw [met, met, hstep]

theorem met_le_after (r : Reading) (s : Bytes) : met r ≤ met (r.after s) := by
  induction s generalizing r with
  | nil => exact Nat.le_refl _
  | cons b s ih => exact Nat.le_trans (met_le_step r b) (ih (r.step b))

theorem met_mono (h : u <+: u') : met (reading u) ≤ met (reading u') := by
  obtain ⟨y, rfl⟩ := h
  rw [reading_append]
  exact met_le_after _ y

/-- Where a word starts, the reader meets it. -/
theorem met_lt_step (h : r.Ready) (hb : isWordByte b = true) : met r < met (r.step b) := by
  have hstep : r.step b = ⟨.plain, 0, r.done, [b]⟩ :=
    h.after_word (List.cons_ne_nil b []) (List.forall_mem_singleton.mpr hb)
  rw [hstep, met, met, h.words_eq, Reading.words, if_neg (List.cons_ne_nil b []), topLevel_append,
    List.length_append]
  exact Nat.lt_succ_self _

/-- Behind a place where a word starts, there are more words before a place. -/
theorem Run.met_lt (hrun : Run sql u w v) (h : (reading u).Ready) (hpart : u' <+: sql)
    (hlen : u.length < u'.length) : met (reading u) < met (reading u') := by
  obtain ⟨b, text, htext⟩ := List.exists_cons_of_ne_nil hrun.nonempty
  have hb : isWordByte b = true := hrun.bytes b (htext ▸ List.mem_cons_self)
  have hfront : u ++ [b] <+: u' := by
    refine List.prefix_of_prefix_length_le ⟨text ++ v, ?_⟩ hpart ?_
    · rw [hrun.split, htext]
      simp
    · rw [List.length_append]
      exact hlen
  have hmore := met_mono hfront
  rw [reading_concat] at hmore
  exact Nat.lt_of_lt_of_le (met_lt_step h hb) hmore

theorem Run.isPrefix (hrun : Run sql u w v) : u <+: sql := ⟨w.text ++ v, hrun.split.symm⟩

/-- A place where a word starts is fixed by the number of words before it. -/
theorem Run.length_le (hrun : Run sql u w v) (h : (reading u).Ready) (hpart : u' <+: sql)
    (hmet : met (reading u') ≤ met (reading u)) : u'.length ≤ u.length := by
  by_contra hlen
  exact absurd (hrun.met_lt h hpart (Nat.lt_of_not_le hlen)) (Nat.not_lt_of_le hmet)

/-- A run is fixed by its place and its text. -/
theorem Run.word_eq (hrun : Run sql u w v) (hrun' : Run sql u' w' v')
    (hplace : u.length = u'.length) (htext : w.text = w'.text) : w = w' := by
  have hoffset : w.offset = w'.offset := by rw [hrun.offset, hrun'.offset, hplace]
  obtain ⟨offset, text⟩ := w
  obtain ⟨offset', text'⟩ := w'
  cases hoffset
  cases htext
  rfl

/-- Between two runs there is a byte that is part of neither. -/
theorem Run.end_lt (hrun : Run sql u w v) (hrun' : Run sql u' w' v') (hlen : u.length < u'.length) :
    w.offset + w.text.length < w'.offset := by
  rw [hrun.offset, hrun'.offset, ← List.length_append]
  by_contra hend
  obtain ⟨y, rfl⟩ : u <+: u' :=
    List.prefix_of_prefix_length_le hrun.isPrefix hrun'.isPrefix (Nat.le_of_lt hlen)
  -- The place of the second run would lie in the first one, behind one of its bytes.
  have hinside : u ++ y <+: u ++ w.text :=
    List.prefix_of_prefix_length_le hrun'.isPrefix
      ⟨v, by rw [hrun.split, List.append_assoc]⟩ (Nat.le_of_not_lt hend)
  rcases List.eq_nil_or_concat y with rfl | ⟨y, b, rfl⟩
  · simp at hlen
  · rw [List.concat_eq_append] at hinside hrun'
    have hlast : (u ++ (y ++ [b])).getLast? = some b := by
      rw [← List.append_assoc, List.getLast?_concat]
    have hb : isWordByte b = true :=
      hrun.bytes b (((List.prefix_append_right_inj u).mp hinside).subset (by simp))
    rw [hrun'.left b hlast] at hb
    cases hb

/-! ## The scanner -/

theorem texts_of_run (hrun : Run sql u w v) (h : (reading u).Ready) :
    ∃ rest, (wordsOf sql).map Word.text = topLevel (reading u).words ++ w.text :: rest := by
  obtain ⟨rest, hwords⟩ := words_of_run hrun h
  refine ⟨topLevel rest, ?_⟩
  rw [wordsOf_eq, hwords, topLevel_append]
  rfl

/-- A word that the scanner finds is a run, after as many words as it has found before. -/
theorem exists_run_of_wordsOf {us vs : List Word} (h : wordsOf sql = us ++ w :: vs) :
    ∃ u v, Run sql u w v ∧ (reading u).Ready ∧ met (reading u) = us.length := by
  obtain ⟨u, v, seen, rfl, hoffset, hseen, ⟨b, s, rfl, hb⟩, halike⟩ := exists_split_of_wordsOf h
  have hstep : (reading u).step b = (between 0 seen).step b := halike.step b rfl
  have hplain : (reading u).region.step b = .plain := by
    rw [← region_step, hstep, region_step]
    exact enter_of_isWordByte hb
  have hready : (reading u).Ready := by
    refine ⟨isOutside_of_step_eq_plain hb hplain, halike.depth, ?_⟩
    have hword := congrArg Reading.word hstep
    rw [Reading.step, if_pos ⟨hplain, hb⟩, Reading.step,
      if_pos ⟨enter_of_isWordByte hb, hb⟩] at hword
    exact List.append_cancel_right hword
  have hwords : topLevel (reading u).words = us.map Word.text := by
    rw [halike.words, words_between, hseen]
  have hrun : Run (u ++ b :: s) u ⟨u.length, b :: s.takeWhile isWordByte⟩
      (s.dropWhile isWordByte) := by
    refine ⟨?_, rfl, List.cons_ne_nil _ _, ?_, (ready_iff.mp hready).2, fun c hc => ?_⟩
    · rw [List.cons_append, List.takeWhile_append_dropWhile]
    · exact List.forall_mem_cons.mpr ⟨hb, fun c hc => List.mem_takeWhile_imp hc⟩
    · exact Bytes.not_of_head?_dropWhile hc
  obtain ⟨rest, htexts⟩ := texts_of_run hrun hready
  rw [h, List.map_append, hwords, List.map_cons] at htexts
  obtain ⟨htext, -⟩ := List.cons.inj (List.append_cancel_left htexts)
  obtain ⟨offset, text⟩ := w
  cases hoffset
  cases htext
  exact ⟨u, _, hrun, hready, by rw [met, hwords, List.length_map]⟩

theorem mem_wordsOf_of_run (hrun : Run sql u w v) (h : (reading u).Ready) : w ∈ wordsOf sql := by
  obtain ⟨rest, htexts⟩ := texts_of_run hrun h
  obtain ⟨us, ws, hwords, hus, hws⟩ := List.map_eq_append_iff.mp htexts
  obtain ⟨w', vs, rfl, htext, -⟩ := List.map_eq_cons_iff.mp hws
  obtain ⟨u', v', hrun', hready', hmet⟩ := exists_run_of_wordsOf hwords
  have hsame : met (reading u') = met (reading u) := by
    rw [hmet, met, ← hus, List.length_map]
  have hplace : u.length = u'.length := Nat.le_antisymm
    (hrun'.length_le hready' hrun.isPrefix hsame.ge) (hrun.length_le h hrun'.isPrefix hsame.le)
  rw [hwords, hrun.word_eq hrun' hplace htext.symm]
  exact List.mem_append_right us List.mem_cons_self

theorem mem_wordsOf_iff : w ∈ wordsOf sql ↔ IsTopLevel sql w := by
  constructor
  · intro h
    obtain ⟨us, vs, hwords⟩ := List.append_of_mem h
    obtain ⟨u, v, hrun, hready, -⟩ := exists_run_of_wordsOf hwords
    exact ⟨u, v, hrun, fun _ => hrun.exposed hready⟩
  · rintro ⟨u, v, hrun, hexposed⟩
    have hstart : Exposed u := by simpa using hexposed [] List.nil_prefix
    exact mem_wordsOf_of_run hrun (ready_iff.mpr ⟨hstart, hrun.left⟩)

theorem pairwise_wordsOf (sql : Bytes) :
    (wordsOf sql).Pairwise fun v w => v.offset + v.text.length < w.offset := by
  refine List.pairwise_iff_getElem.mpr fun i j hi hj hij => ?_
  have hsplit (k : Nat) (hk : k < (wordsOf sql).length) :
      wordsOf sql = (wordsOf sql).take k ++ (wordsOf sql)[k] :: (wordsOf sql).drop (k + 1) := by
    rw [List.getElem_cons_drop, List.take_append_drop]
  obtain ⟨u, v, hrun, hready, hmet⟩ := exists_run_of_wordsOf (hsplit i hi)
  obtain ⟨u', v', hrun', hready', hmet'⟩ := exists_run_of_wordsOf (hsplit j hj)
  rw [List.length_take_of_le (Nat.le_of_lt hi)] at hmet
  rw [List.length_take_of_le (Nat.le_of_lt hj)] at hmet'
  refine hrun.end_lt hrun' (Nat.lt_of_not_le fun hle => ?_)
  have hfewer := met_mono (List.prefix_of_prefix_length_le hrun'.isPrefix hrun.isPrefix hle)
  rw [hmet, hmet'] at hfewer
  exact Nat.not_lt_of_le hfewer hij

/-! ## Calls -/

theorem calls_words (s : Scanner) : Calls s s.words := by
  fun_induction Scanner.words s with
  | case1 s h => exact .last h
  | case2 s w t h ih => exact .next h ih

theorem Calls.unique {s : Scanner} {ws ws' : List Word} (h : Calls s ws) (h' : Calls s ws') :
    ws = ws' := by
  induction h generalizing ws' with
  | last h =>
    cases h' with
    | last => rfl
    | next h' => cases h.symm.trans h'
  | next h _ ih =>
    cases h' with
    | last h' => cases h.symm.trans h'
    | next h' hrest =>
      cases h.symm.trans h'
      rw [ih hrest]

/-- What a scanner finds in a statement. -/
structure FindsRuns (sql : Bytes) (ws : List Word) : Prop where
  /-- The calls come to an end. -/
  calls : ∀ ws', Calls (Scanner.ofStatement sql) ws' ↔ ws' = ws
  exact : ∀ w, w ∈ ws ↔ IsTopLevel sql w
  ordered : ws.Pairwise fun v w => v.offset + v.text.length < w.offset

/-- A word may stand right behind quoted text or a comment. -/
example : (wordsOf (ascii "a)b 'c''d'e/*f*/g(h)$i -- j")).map Word.offset = [0, 2, 10, 16, 20] := by
  decide +kernel

end Coordinator.Sql

import Coordinator.Proofs.Bytes
import Coordinator.Sql.Words

/-! # A statement read byte by byte

The scanner of statements jumps from lexeme to lexeme, and looks ahead to see where one ends.  The
same rules are here those of a **reader** that takes one byte after the other (`Reading.step`): it
knows in which region of the statement it is (`Region`), how many parentheses are open, and the
words so far.  Where a lexeme needs a look ahead, the reader waits in a region of its own: after a
dash, after a slash, after a mark that closes quoted text unless it comes again.

So what a text does to the words of another one that it follows depends only on the state in which
the reader leaves the first.  Reader and scanner find the same words (`wordsOf_eq`), and where the
scanner finds one, the reader is outside quoted text, comments and parentheses
(`before_of_wordsOf`). -/
namespace Coordinator.Sql

/-! ## Regions -/

/-- A byte that opens quoted text, and closes it. -/
inductive Mark
  | single
  | double
  | backtick
deriving DecidableEq, Repr

namespace Mark

def byte : Mark → UInt8
  | single => 39
  | double => 34
  | backtick => 96

/-- The mark that a byte is. -/
def ofByte? (b : UInt8) : Option Mark :=
  if b = 39 then some single else if b = 34 then some double
  else if b = 96 then some backtick else none

end Mark

/-- Where the byte that a reader took last stands. -/
inductive Region
  /-- Outside quoted text and comments. -/
  | plain
  /-- On a dash outside: a second one opens a line comment. -/
  | dash
  /-- On a slash outside: an asterisk opens a block comment. -/
  | slash
  | quoted (mark : Mark)
  /-- On the mark that closes quoted text, unless it comes again. -/
  | closed (mark : Mark)
  | lineComment
  | blockComment
  /-- On an asterisk in a block comment: a slash closes the comment. -/
  | asterisk
deriving DecidableEq, Repr

namespace Region

/-- The region of a byte outside quoted text and comments. -/
def enter (b : UInt8) : Region :=
  match Mark.ofByte? b with
  | some mark => quoted mark
  | none => if b = 45 then dash else if b = 47 then slash else plain

/-- The region of the next byte. -/
def step : Region → UInt8 → Region
  | plain, b => enter b
  | dash, b => if b = 45 then lineComment else enter b
  | slash, b => if b = 42 then blockComment else enter b
  | quoted mark, b => if b = mark.byte then closed mark else quoted mark
  | closed mark, b => if b = mark.byte then quoted mark else enter b
  | lineComment, b => if b = 10 then plain else lineComment
  | blockComment, b => if b = 42 then asterisk else blockComment
  | asterisk, b => if b = 47 then plain else if b = 42 then asterisk else blockComment

/-- Whether the reader is outside quoted text and comments, or at the end of one. -/
def isOutside : Region → Bool
  | plain | dash | slash | closed _ => true
  | _ => false

/-- Whether the reader is inside quoted text or a block comment. -/
def isInside : Region → Bool
  | quoted _ | blockComment | asterisk => true
  | _ => false

end Region

/-! ## Readers -/

/-- A reader between two bytes.  Words come with the number of parentheses around them. -/
structure Reading where
  region : Region := .plain
  /-- How many parentheses are open. -/
  depth : Nat := 0
  /-- The words that have ended. -/
  done : List (Nat × Bytes) := []
  /-- The word that the reader is in; empty outside of words. -/
  word : Bytes := []
deriving DecidableEq, Repr

namespace Reading

/-- The words so far, the one that the reader is in included. -/
def words (r : Reading) : List (Nat × Bytes) :=
  r.done ++ if r.word = [] then [] else [(r.depth, r.word)]

/-- The reader after one more byte. -/
def step (r : Reading) (b : UInt8) : Reading :=
  let region := r.region.step b
  if region = .plain ∧ isWordByte b then { r with region, word := r.word ++ [b] }
  else
    { region
      depth := if region = .plain ∧ b = 40 then r.depth + 1
        else if region = .plain ∧ b = 41 then r.depth - 1 else r.depth
      done := r.words
      word := [] }

/-- The reader after a text. -/
def after (r : Reading) (s : Bytes) : Reading := s.foldl step r

/-- A reader outside of everything but parentheses, and between words. -/
def between (depth : Nat) (done : List (Nat × Bytes)) : Reading := { depth, done }

end Reading

/-- A statement read whole. -/
def reading (sql : Bytes) : Reading := ({} : Reading).after sql

/-- Of words, those outside parentheses. -/
def topLevel (words : List (Nat × Bytes)) : List Bytes :=
  words.filterMap fun w => if w.1 = 0 then some w.2 else none

theorem topLevel_append (ws vs : List (Nat × Bytes)) :
    topLevel (ws ++ vs) = topLevel ws ++ topLevel vs := List.filterMap_append

/-! ## Single bytes -/

section Bytes
variable {b : UInt8}

theorem ne_of_isWordByte {c : UInt8} (h : isWordByte b = true) (hc : isWordByte c = false) :
    b ≠ c := by
  rintro rfl
  rw [h] at hc
  cases hc

/-- A byte of a word has no meaning of its own. -/
theorem enter_of_isWordByte (h : isWordByte b = true) : Region.enter b = .plain := by
  have hne (c : UInt8) (hc : isWordByte c = false) : b ≠ c := ne_of_isWordByte h hc
  have hnone : Mark.ofByte? b = none := by
    unfold Mark.ofByte?
    rw [if_neg (hne 39 rfl), if_neg (hne 34 rfl), if_neg (hne 96 rfl)]
  unfold Region.enter
  rw [hnone]
  simp only [if_neg (hne 45 rfl), if_neg (hne 47 rfl)]

theorem Mark.not_isWordByte (mark : Mark) : isWordByte mark.byte = false := by cases mark <;> rfl

/-- Outside quoted text and comments, a byte of a word stays there. -/
theorem step_of_isWordByte {q : Region} (h : isWordByte b = true) (hq : q.isOutside = true) :
    q.step b = .plain := by
  have hne (c : UInt8) (hc : isWordByte c = false) : b ≠ c := ne_of_isWordByte h hc
  have henter := enter_of_isWordByte h
  cases q with
  | plain => exact henter
  | dash => exact (if_neg (hne 45 rfl)).trans henter
  | slash => exact (if_neg (hne 42 rfl)).trans henter
  | closed mark => exact (if_neg (hne mark.byte mark.not_isWordByte)).trans henter
  | quoted | lineComment | blockComment | asterisk => cases hq

/-- It leads neither into quoted text and comments, nor out of them. -/
theorem isOutside_step (h : isWordByte b = true) (q : Region) :
    (q.step b).isOutside = q.isOutside := by
  have hne (c : UInt8) (hc : isWordByte c = false) : b ≠ c := ne_of_isWordByte h hc
  cases hq : q.isOutside with
  | true =>
    rw [step_of_isWordByte h hq]
    rfl
  | false =>
    cases q with
    | plain | dash | slash | closed => cases hq
    | quoted mark =>
      simp only [Region.step, if_neg (hne mark.byte mark.not_isWordByte)]
      rfl
    | lineComment =>
      simp only [Region.step, if_neg (hne 10 rfl)]
      rfl
    | blockComment =>
      simp only [Region.step, if_neg (hne 42 rfl)]
      rfl
    | asterisk =>
      simp only [Region.step, if_neg (hne 47 rfl), if_neg (hne 42 rfl)]
      rfl

/-- Only outside quoted text and comments does a byte of a word leave the reader outside. -/
theorem isOutside_of_step_eq_plain {q : Region} (h : isWordByte b = true)
    (hq : q.step b = .plain) : q.isOutside = true := by
  rw [← isOutside_step h q, hq]
  rfl

/-- A blank or a semicolon. -/
def isInert (b : UInt8) : Bool := Byte.isBlank b || b == 59

theorem inert_cases (h : isInert b = true) :
    b = 32 ∨ b = 9 ∨ b = 10 ∨ b = 11 ∨ b = 12 ∨ b = 13 ∨ b = 59 := by
  simp only [isInert, Byte.isBlank, Bool.or_eq_true, Bool.and_eq_true, beq_iff_eq,
    decide_eq_true_eq, UInt8.le_iff_toNat_le, ← UInt8.toNat_inj] at h ⊢
  simp at h ⊢
  omega

/-- Outside quoted text and comments, it has no meaning. -/
theorem step_of_isOutside {q : Region} (h : isInert b = true) (hq : q.isOutside = true) :
    q.step b = .plain := by
  cases q with
  | plain | dash | slash =>
    rcases inert_cases h with rfl | rfl | rfl | rfl | rfl | rfl | rfl <;> rfl
  | closed mark =>
    rcases inert_cases h with rfl | rfl | rfl | rfl | rfl | rfl | rfl <;> cases mark <;> rfl
  | quoted | lineComment | blockComment | asterisk => cases hq

/-- It leads neither into quoted text and block comments, nor out of them. -/
theorem isInside_step (h : isInert b = true) (q : Region) :
    (q.step b).isInside = q.isInside := by
  cases hq : q.isOutside with
  | true =>
    rw [step_of_isOutside h hq]
    cases q <;> cases hq <;> rfl
  | false =>
    cases q with
    | plain | dash | slash | closed => cases hq
    | quoted mark =>
      rcases inert_cases h with rfl | rfl | rfl | rfl | rfl | rfl | rfl <;> cases mark <;> rfl
    | lineComment | blockComment | asterisk =>
      rcases inert_cases h with rfl | rfl | rfl | rfl | rfl | rfl | rfl <;> rfl

theorem not_isWordByte_of_isInert (h : isInert b = true) : isWordByte b = false := by
  rcases inert_cases h with rfl | rfl | rfl | rfl | rfl | rfl | rfl <;> rfl

theorem not_isInside_of_isOutside {q : Region} (h : q.isOutside = true) : q.isInside = false := by
  cases q with
  | plain | dash | slash | closed | lineComment => rfl
  | quoted | blockComment | asterisk => cases h

/-- Neither inside, nor in a line comment. -/
theorem isOutside_of_not_isInside {q : Region} (h : q.isInside = false) (hline : q ≠ .lineComment) :
    q.isOutside = true := by
  cases q with
  | plain | dash | slash | closed => rfl
  | quoted | blockComment | asterisk => cases h
  | lineComment => exact absurd rfl hline

end Bytes

/-! ## Texts -/

namespace Reading

variable {r r' r'' : Reading} {s t rest : Bytes} {b : UInt8} {depth : Nat}
  {ws vs : List (Nat × Bytes)}

@[simp] theorem after_nil (r : Reading) : r.after [] = r := rfl

@[simp] theorem after_cons (r : Reading) (b : UInt8) (s : Bytes) :
    r.after (b :: s) = (r.step b).after s := rfl

@[simp] theorem after_append (r : Reading) (s t : Bytes) :
    r.after (s ++ t) = (r.after s).after t := List.foldl_append

theorem reading_append (u s : Bytes) : reading (u ++ s) = (reading u).after s :=
  after_append _ _ _

@[simp] theorem words_between (depth : Nat) (done : List (Nat × Bytes)) :
    (between depth done).words = done := List.append_nil done

/-- The reader that has read other words before. -/
def following (ws : List (Nat × Bytes)) (r : Reading) : Reading := { r with done := ws ++ r.done }

theorem words_following (ws : List (Nat × Bytes)) (r : Reading) :
    (r.following ws).words = ws ++ r.words := List.append_assoc ..

theorem step_following (ws : List (Nat × Bytes)) (r : Reading) (b : UInt8) :
    (r.following ws).step b = (r.step b).following ws := by
  unfold step
  by_cases h : r.region.step b = .plain ∧ isWordByte b
  · rw [if_pos h, if_pos (by exact h)]
    rfl
  · rw [if_neg h, if_neg (by exact h), words_following]
    rfl

/-- Words read before stay in front, and change nothing else. -/
theorem after_following (ws : List (Nat × Bytes)) (r : Reading) (s : Bytes) :
    (r.following ws).after s = (r.after s).following ws := by
  induction s generalizing r with
  | nil => rfl
  | cons b s ih => rw [after_cons, after_cons, step_following, ih]

theorem words_after_between (ws : List (Nat × Bytes)) (s : Bytes) :
    ((between depth ws).after s).words = ws ++ ((between depth []).after s).words := by
  have hstart : between depth ws = (between depth []).following ws := by
    simp [between, following]
  rw [hstart, after_following, words_following]

/-- A byte that is not part of a word ends the word that the reader is in. -/
theorem step_of_not_isWordByte (h : isWordByte b = false) : r.step b =
    { region := r.region.step b
      depth := if r.region.step b = .plain ∧ b = 40 then r.depth + 1
        else if r.region.step b = .plain ∧ b = 41 then r.depth - 1 else r.depth
      done := r.words
      word := [] } := by
  unfold step
  rw [if_neg (by simp [h])]

theorem words_step (h : isWordByte b = false) : (r.step b).words = r.words := by
  rw [step_of_not_isWordByte h]
  exact List.append_nil _

/-- What such a byte does depends on region, depth and words alone. -/
theorem step_congr (h : isWordByte b = false) (hregion : r.region.step b = r'.region.step b)
    (hdepth : r.depth = r'.depth) (hwords : r.words = r'.words) : r.step b = r'.step b := by
  rw [step_of_not_isWordByte h, step_of_not_isWordByte h, hregion, hdepth, hwords]

theorem region_step (r : Reading) (b : UInt8) : (r.step b).region = r.region.step b := by
  unfold step
  by_cases h : r.region.step b = .plain ∧ isWordByte b
  · rw [if_pos h]
  · rw [if_neg h]

/-- A blank or a semicolon ends the word that the reader is in. -/
theorem step_of_isInert (h : isInert b = true) (r : Reading) :
    r.step b = { region := r.region.step b, depth := r.depth, done := r.words, word := [] } := by
  rw [step_of_not_isWordByte (not_isWordByte_of_isInert h)]
  have h40 : b ≠ 40 := by rintro rfl; cases h
  have h41 : b ≠ 41 := by rintro rfl; cases h
  simp only [h40, h41, and_false, if_false]

/-- Over blanks and semicolons, words and parentheses stay as they are, and a reader that is inside
quoted text or a block comment stays there. -/
theorem after_inert (h : ∀ b ∈ s, isInert b = true) (r : Reading) :
    (r.after s).words = r.words ∧ (r.after s).depth = r.depth ∧
      (r.after s).region.isInside = r.region.isInside := by
  induction s generalizing r with
  | nil => exact ⟨rfl, rfl, rfl⟩
  | cons b s ih =>
    have hb := h b List.mem_cons_self
    obtain ⟨hwords, hdepth, hinside⟩ := ih (fun c hc => h c (List.mem_cons_of_mem _ hc)) (r.step b)
    rw [after_cons, hwords, hdepth, hinside, words_step (not_isWordByte_of_isInert hb),
      region_step, isInside_step hb, step_of_isInert hb]
    exact ⟨rfl, rfl, rfl⟩

/-! ### Readers that go on alike -/

/-- Two readers that have the same words, and go on alike over the text that is left. -/
structure Alike (rest : Bytes) (r r' : Reading) : Prop where
  words : r.words = r'.words
  depth : r.depth = r'.depth
  step : ∀ b, rest.head? = some b → r.step b = r'.step b

theorem Alike.refl (rest : Bytes) (r : Reading) : Alike rest r r := ⟨rfl, rfl, fun _ _ => rfl⟩

theorem Alike.trans (h : Alike rest r r') (h' : Alike rest r' r'') : Alike rest r r'' :=
  ⟨h.words.trans h'.words, h.depth.trans h'.depth,
    fun b hb => (h.step b hb).trans (h'.step b hb)⟩

/-- Over a part of the text left, they stay alike for what follows it. -/
theorem Alike.after (h : Alike (s ++ rest) r r') : Alike rest (r.after s) (r'.after s) := by
  cases s with
  | nil => exact h
  | cons b s =>
    rw [after_cons, after_cons, h.step b rfl]
    exact .refl _ _

/-- Two readers outside of words that take the next byte into the same region. -/
theorem Alike.of_region {q q' : Region}
    (h : ∀ b, rest.head? = some b → q.step b = q'.step b) :
    Alike rest ⟨q, depth, ws, []⟩ ⟨q', depth, ws, []⟩ := by
  refine ⟨rfl, rfl, fun b hb => ?_⟩
  unfold Reading.step
  rw [show ({ region := q, depth, done := ws } : Reading).region.step b = q'.step b from h b hb]
  rfl

theorem Alike.of_end (hwords : r.words = r'.words) (hdepth : r.depth = r'.depth) :
    Alike [] r r' := ⟨hwords, hdepth, fun _ hb => by cases hb⟩

/-! ### Lexemes

What a lexeme is to the scanner, the reader does byte by byte; after it, the reader goes on as if it
had just come out of everything but parentheses. -/

/-- A byte that leads to no byte outside, or to one without meaning, only moves the region. -/
theorem step_silent {q : Region} (h : q.step b = .plain → isWordByte b = false ∧ b ≠ 40 ∧ b ≠ 41) :
    (⟨q, depth, ws, []⟩ : Reading).step b = ⟨q.step b, depth, ws, []⟩ := by
  unfold step
  by_cases hq : q.step b = .plain
  · obtain ⟨hb, h40, h41⟩ := h hq
    simp [hq, hb, h40, h41, words]
  · simp [hq, words]

theorem step_to {q q' : Region} (h : q.step b = q') (hq' : q' ≠ .plain) :
    (⟨q, depth, ws, []⟩ : Reading).step b = ⟨q', depth, ws, []⟩ := by
  rw [step_silent fun hplain => absurd (h.symm.trans hplain) hq', h]

/-- Quoted text, from the byte after its opening mark. -/
theorem after_quoted (mark : Mark) (s : Bytes) (depth : Nat) (ws : List (Nat × Bytes)) :
    ∃ t, s = t ++ afterQuoted mark.byte s ∧
      Alike (afterQuoted mark.byte s) ((⟨.quoted mark, depth, ws, []⟩ : Reading).after t)
        (between depth ws) := by
  have hquoted (b : UInt8) : (⟨.quoted mark, depth, ws, []⟩ : Reading).step b =
      ⟨(Region.quoted mark).step b, depth, ws, []⟩ := by
    refine step_silent fun h => ?_
    simp only [Region.step] at h
    split at h <;> cases h
  have hclose : (Region.quoted mark).step mark.byte = .closed mark := if_pos rfl
  fun_induction afterQuoted mark.byte s with
  | case1 => exact ⟨[], rfl, .of_end rfl rfl⟩
  | case2 b => exact ⟨[b], rfl, by rw [after_cons, hquoted]; exact .of_end rfl rfl⟩
  | case3 rest ih =>
    obtain ⟨t, ht, halike⟩ := ih
    refine ⟨mark.byte :: mark.byte :: t, by rw [List.cons_append, List.cons_append, ← ht], ?_⟩
    have hagain : (⟨.closed mark, depth, ws, []⟩ : Reading).step mark.byte =
        ⟨.quoted mark, depth, ws, []⟩ := step_to (if_pos rfl) (by simp)
    rw [after_cons, after_cons, hquoted, hclose, hagain]
    exact halike
  | case4 c rest hc =>
    refine ⟨[mark.byte], rfl, ?_⟩
    rw [after_cons, hquoted, hclose]
    refine Alike.of_region fun c' hc' => ?_
    cases hc'
    exact if_neg hc
  | case5 b c rest hb ih =>
    obtain ⟨t, ht, halike⟩ := ih
    refine ⟨b :: t, by rw [List.cons_append, ← ht], ?_⟩
    rw [after_cons, hquoted, show (Region.quoted mark).step b = _ from if_neg hb]
    exact halike

/-- A line comment, from its second dash or any byte after that. -/
theorem after_lineComment (s : Bytes) (depth : Nat) (ws : List (Nat × Bytes)) :
    Alike (s.dropWhile (· ≠ 10))
      ((⟨.lineComment, depth, ws, []⟩ : Reading).after (s.takeWhile (· ≠ 10)))
      (between depth ws) := by
  induction s with
  | nil => exact .of_end rfl rfl
  | cons b s ih =>
    by_cases hb : b = 10
    · subst hb
      refine Alike.of_region fun c hc => ?_
      cases hc
      rfl
    · have hstep : (⟨.lineComment, depth, ws, []⟩ : Reading).step b =
          ⟨.lineComment, depth, ws, []⟩ := step_to (if_neg hb) (by simp)
      rw [List.dropWhile_cons_of_pos (by simp [hb]), List.takeWhile_cons_of_pos (by simp [hb]),
        after_cons, hstep]
      exact ih

/-- A block comment, from the byte after its opening; on an asterisk the reader goes on as on any
other byte of the comment, unless a slash is next. -/
theorem after_blockComment (s : Bytes) (depth : Nat) (ws : List (Nat × Bytes)) (q : Region)
    (hq : q = .blockComment ∨ q = .asterisk ∧ s.head? ≠ some 47) :
    ∃ t, s = t ++ afterBlock s ∧
      Alike (afterBlock s) ((⟨q, depth, ws, []⟩ : Reading).after t) (between depth ws) := by
  fun_induction afterBlock s generalizing q with
  | case1 rest =>
    refine ⟨[42, 47], rfl, ?_⟩
    have hstar : (⟨q, depth, ws, []⟩ : Reading).step 42 = ⟨.asterisk, depth, ws, []⟩ := by
      refine step_to ?_ (by simp)
      rcases hq with rfl | ⟨rfl, -⟩ <;> rfl
    have hslash : (⟨.asterisk, depth, ws, []⟩ : Reading).step 47 = between depth ws :=
      step_silent fun _ => by decide
    rw [after_cons, hstar, after_cons, hslash]
    exact .refl _ _
  | case2 b rest hnot ih =>
    have hregion : q.step b = if b = 42 then .asterisk else .blockComment := by
      rcases hq with rfl | ⟨rfl, hb⟩
      · rfl
      · exact if_neg fun h => hb (by rw [h]; rfl)
    have hnext : (if b = 42 then Region.asterisk else .blockComment) = .blockComment ∨
        (if b = 42 then Region.asterisk else .blockComment) = .asterisk ∧ rest.head? ≠ some 47 := by
      by_cases hb : b = 42
      · refine Or.inr ⟨if_pos hb, fun hhead => ?_⟩
        obtain ⟨rest', hrest⟩ := List.head?_eq_some_iff.mp hhead
        exact hnot rest' hb hrest
      · exact Or.inl (if_neg hb)
    obtain ⟨t, ht, halike⟩ := ih _ hnext
    refine ⟨b :: t, by rw [List.cons_append, ← ht], ?_⟩
    rw [after_cons, step_to hregion (by split <;> simp)]
    exact halike
  | case3 => exact ⟨[], rfl, .of_end rfl rfl⟩

/-- The rest of a word. -/
theorem after_word (s : Bytes) (h : ∀ b ∈ s, isWordByte b = true) (r : Reading)
    (hr : r.region = .plain) : r.after s = { r with word := r.word ++ s } := by
  induction s generalizing r with
  | nil => simp
  | cons b s ih =>
    have hb := h b List.mem_cons_self
    have hregion : r.region.step b = .plain := by
      rw [hr]
      exact enter_of_isWordByte hb
    have hstep : r.step b = { r with word := r.word ++ [b] } := by
      unfold step
      rw [if_pos ⟨hregion, hb⟩, hregion, ← hr]
    rw [after_cons, hstep, ih (fun c hc => h c (List.mem_cons_of_mem _ hc)) _ (by exact hr)]
    simp

/-- A word that has ended. -/
theorem alike_of_word (text : Bytes) (hne : text ≠ [])
    (h : ∀ b, rest.head? = some b → isWordByte b = false) :
    Alike rest ⟨.plain, depth, ws, text⟩ (between depth (ws ++ [(depth, text)])) := by
  have hwords : (⟨.plain, depth, ws, text⟩ : Reading).words = ws ++ [(depth, text)] := by
    rw [words, if_neg hne]
  refine ⟨by rw [hwords, words_between], rfl, fun b hb => ?_⟩
  exact step_congr (h b hb) rfl rfl (by rw [hwords, words_between])

/-- What a lexeme makes of a reader between words. -/
def passing (depth : Nat) (ws : List (Nat × Bytes)) : Lexeme → Reading
  | .skipped => between depth ws
  | .opening => between (depth + 1) ws
  | .closing => between (depth - 1) ws
  | .word text => between depth (ws ++ [(depth, text)])

theorem alike_word (h : isWordByte b = true) (s : Bytes) (depth : Nat) (ws : List (Nat × Bytes)) :
    Alike (s.dropWhile isWordByte) ((between depth ws).after (b :: s.takeWhile isWordByte))
      (between depth (ws ++ [(depth, b :: s.takeWhile isWordByte)])) := by
  have hall : ∀ c ∈ b :: s.takeWhile isWordByte, isWordByte c = true := by
    intro c hc
    rcases List.mem_cons.mp hc with rfl | hc
    · exact h
    · exact List.mem_takeWhile_imp hc
  rw [after_word _ hall _ rfl]
  refine alike_of_word _ (List.cons_ne_nil _ _) fun c hc => ?_
  exact Bytes.not_of_head?_dropWhile hc

/-- A lexeme of the scanner, byte by byte. -/
theorem after_lexeme (b : UInt8) (s : Bytes) (depth : Nat) (ws : List (Nat × Bytes)) :
    ∃ t, b :: s = t ++ (readLexeme b s).2 ∧ Alike (readLexeme b s).2
      ((between depth ws).after t) (passing depth ws (readLexeme b s).1) := by
  unfold readLexeme
  split
  · -- Quoted text.
    next hmark =>
    obtain ⟨mark, rfl⟩ : ∃ mark : Mark, b = mark.byte := by
      rcases hmark with rfl | rfl | rfl
      · exact ⟨.single, rfl⟩
      · exact ⟨.double, rfl⟩
      · exact ⟨.backtick, rfl⟩
    obtain ⟨t, ht, halike⟩ := after_quoted mark s depth ws
    have hopen : (between depth ws).step mark.byte = ⟨.quoted mark, depth, ws, []⟩ := by
      cases mark <;> exact step_silent (by decide)
    exact ⟨mark.byte :: t, by rw [List.cons_append, ← ht], by rw [after_cons, hopen]; exact halike⟩
  split
  · -- A line comment.
    next hline =>
    obtain ⟨rfl, hhead⟩ := hline
    obtain ⟨s', rfl⟩ := List.head?_eq_some_iff.mp hhead
    refine ⟨45 :: 45 :: s'.takeWhile (· ≠ 10), ?_, ?_⟩
    · rw [List.dropWhile_cons_of_pos (by decide), List.cons_append, List.cons_append,
        List.takeWhile_append_dropWhile]
    · have hopen : ((between depth ws).step 45).step 45 = ⟨.lineComment, depth, ws, []⟩ := by
        rw [show (between depth ws).step 45 = ⟨.dash, depth, ws, []⟩ from step_silent (by decide)]
        exact step_silent (by decide)
      rw [List.dropWhile_cons_of_pos (by decide), after_cons, after_cons, hopen]
      exact after_lineComment s' depth ws
  split
  · -- A block comment.
    next hblock =>
    obtain ⟨rfl, hhead⟩ := hblock
    obtain ⟨s', rfl⟩ := List.head?_eq_some_iff.mp hhead
    obtain ⟨t, ht, halike⟩ := after_blockComment s' depth ws .blockComment (Or.inl rfl)
    refine ⟨47 :: 42 :: t, by rw [List.cons_append, List.cons_append, List.tail_cons, ← ht], ?_⟩
    have hopen : ((between depth ws).step 47).step 42 = ⟨.blockComment, depth, ws, []⟩ := by
      rw [show (between depth ws).step 47 = ⟨.slash, depth, ws, []⟩ from step_silent (by decide)]
      exact step_silent (by decide)
    rw [after_cons, after_cons, hopen]
    exact halike
  split
  · -- Parentheses.
    next hopening =>
    subst hopening
    have hstep : (between depth ws).step 40 = between (depth + 1) ws := by
      rw [step_of_not_isWordByte rfl, words_between]
      rfl
    exact ⟨[40], rfl, by rw [after_cons, hstep]; exact .refl _ _⟩
  split
  · next hclosing =>
    subst hclosing
    have hstep : (between depth ws).step 41 = between (depth - 1) ws := by
      rw [step_of_not_isWordByte rfl, words_between]
      rfl
    exact ⟨[41], rfl, by rw [after_cons, hstep]; exact .refl _ _⟩
  split
  · -- A word.
    next hword =>
    refine ⟨b :: s.takeWhile isWordByte, ?_, alike_word hword s depth ws⟩
    rw [List.cons_append, List.takeWhile_append_dropWhile]
  · -- A byte without meaning, or a dash or slash that opens no comment.
    next hmark hline hblock hopening hclosing hword =>
    refine ⟨[b], rfl, ?_⟩
    rw [after_cons, after_nil, show (between depth ws).step b = ⟨_, depth, ws, []⟩ from
      step_silent fun _ => ⟨by simpa using hword, hopening, hclosing⟩]
    refine Alike.of_region fun c hc => ?_
    have hnone : Mark.ofByte? b = none := by
      simp only [not_or] at hmark
      simp only [Mark.ofByte?, hmark, if_false]
    have henter : Region.enter b = if b = 45 then .dash else if b = 47 then .slash else .plain := by
      rw [Region.enter, hnone]
    show (Region.enter b).step c = Region.enter c
    rw [henter]
    by_cases hdash : b = 45
    · rw [if_pos hdash]
      exact if_neg fun hc' : c = 45 => hline ⟨hdash, hc' ▸ hc⟩
    · by_cases hslash : b = 47
      · rw [if_neg hdash, if_pos hslash]
        exact if_neg fun hc' : c = 42 => hblock ⟨hslash, hc' ▸ hc⟩
      · rw [if_neg hdash, if_neg hslash]
        rfl

end Reading

/-! ## Reader and scanner -/

section Scanner
open Reading
variable {s s' t : Scanner} {w : Word} {u v : Bytes} {inner seen : List (Nat × Bytes)}

/-- The scanner `s` finds the word `w` after the text `u`, in which the words `inner` all stand in
parentheses, and stands as `t` after it. -/
structure Finds (s t : Scanner) (w : Word) (u : Bytes) (inner : List (Nat × Bytes)) : Prop where
  split : s.rest = u ++ (w.text ++ t.rest)
  offset : w.offset = s.position + u.length
  position : t.position = w.offset + w.text.length
  depth : t.depth = 0
  enclosed : topLevel inner = []
  start : ∃ b text, w.text = b :: text ∧ isWordByte b = true
  before : ∀ ws, Alike (w.text ++ t.rest) ((between s.depth ws).after u) (between 0 (ws ++ inner))
  after : ∀ ws, Alike t.rest ((between 0 ws).after w.text) (between 0 (ws ++ [(0, w.text)]))

/-- From one scanner to a later one lies the text `v`, in which the words `inner` all stand in
parentheses. -/
structure Passes (s s' : Scanner) (v : Bytes) (inner : List (Nat × Bytes)) : Prop where
  split : s.rest = v ++ s'.rest
  position : s'.position = s.position + v.length
  enclosed : topLevel inner = []
  alike : ∀ ws, Alike s'.rest ((between s.depth ws).after v) (between s'.depth (ws ++ inner))

theorem Passes.finds (hv : Passes s s' v seen) (h : Finds s' t w u inner) :
    Finds s t w (v ++ u) (seen ++ inner) where
  split := by rw [hv.split, h.split, List.append_assoc]
  offset := by rw [h.offset, hv.position, List.length_append, Nat.add_assoc]
  position := h.position
  depth := h.depth
  enclosed := by rw [topLevel_append, hv.enclosed, h.enclosed, List.append_nil]
  start := h.start
  before ws := by
    have halike := hv.alike ws
    rw [h.split] at halike
    rw [after_append, ← List.append_assoc]
    exact halike.after.trans (h.before (ws ++ seen))
  after := h.after

/-- What a scanner that finds nothing leaves: all words left stand in parentheses. -/
def Ends (s : Scanner) (inner : List (Nat × Bytes)) : Prop :=
  topLevel inner = [] ∧ ∀ ws, ((between s.depth ws).after s.rest).words = ws ++ inner

/-- Readers that go on alike have the same words in the end. -/
theorem Reading.Alike.words_after {r r' : Reading} {rest : Bytes} (h : Alike rest r r') :
    (r.after rest).words = (r'.after rest).words := by
  rw [← List.append_nil rest] at h
  exact h.after.words

theorem Passes.ends (hv : Passes s s' v seen) (h : Ends s' inner) : Ends s (seen ++ inner) := by
  refine ⟨by rw [topLevel_append, hv.enclosed, h.1, List.append_nil], fun ws => ?_⟩
  rw [hv.split, after_append, (hv.alike ws).words_after, h.2, List.append_assoc]

/-- How far the scanner gets with a lexeme. -/
theorem length_lexeme {b : UInt8} {rest after : Bytes} (h : b :: rest = v ++ after) :
    rest.length + 1 - after.length = v.length := by
  have hlength := congrArg List.length h
  rw [List.length_cons, List.length_append] at hlength
  omega

/-- A lexeme that is no word outside parentheses is passed over. -/
theorem exists_passes (position : Nat) (b : UInt8) (rest : Bytes) (depth depth' : Nat)
    (inner : List (Nat × Bytes)) (hinner : topLevel inner = [])
    (h : ∀ ws, passing depth ws (readLexeme b rest).1 = between depth' (ws ++ inner)) :
    ∃ v, Passes ⟨position, b :: rest, depth⟩
      ⟨position + (rest.length + 1 - (readLexeme b rest).2.length), (readLexeme b rest).2, depth'⟩
      v inner := by
  obtain ⟨v, hv, -⟩ := after_lexeme b rest depth []
  refine ⟨v, hv, congrArg (position + ·) (length_lexeme hv), hinner, fun ws => ?_⟩
  obtain ⟨v', hv', halike⟩ := after_lexeme b rest depth ws
  obtain rfl : v = v' := List.append_cancel_right (hv.symm.trans hv')
  rw [h] at halike
  exact halike

/-- The word that a lexeme is. -/
theorem word_of_lexeme {b : UInt8} {rest text : Bytes} (h : (readLexeme b rest).1 = .word text) :
    isWordByte b = true ∧ readLexeme b rest =
      (.word (b :: rest.takeWhile isWordByte), rest.dropWhile isWordByte) := by
  unfold readLexeme at h ⊢
  split at h
  · cases h
  split at h
  · cases h
  split at h
  · cases h
  split at h
  · cases h
  split at h
  · cases h
  split at h
  · next hmark hline hblock hopening hclosing hword =>
    refine ⟨hword, ?_⟩
    rw [if_neg hmark, if_neg hline, if_neg hblock, if_neg hopening, if_neg hclosing, if_pos hword]
  · cases h

/-- What the scanner does next, for the reader. -/
def Meets (s : Scanner) : Option (Word × Scanner) → Prop
  | some (w, t) => ∃ u inner, Finds s t w u inner
  | none => ∃ inner, Ends s inner

theorem Passes.meets (hv : Passes s s' v seen) {next : Option (Word × Scanner)}
    (h : Meets s' next) : Meets s next := by
  cases next with
  | none =>
    obtain ⟨inner, hends⟩ := h
    exact ⟨_, hv.ends hends⟩
  | some found =>
    obtain ⟨u, inner, hfinds⟩ := h
    exact ⟨_, _, hv.finds hfinds⟩

/-- Reader and scanner agree on the next word. -/
theorem meets_next? (s : Scanner) : Meets s s.next? := by
  fun_induction Scanner.next? s with
  | case1 position depth =>
    exact ⟨[], rfl, fun ws => by rw [after_nil, words_between, List.append_nil]⟩
  | case2 position b rest depth after next hlexeme ih =>
    obtain ⟨v, hv⟩ := exists_passes position b rest depth depth [] rfl fun ws => by
      rw [hlexeme, passing, List.append_nil]
    exact hv.meets ih
  | case3 position b rest depth after next hlexeme ih =>
    obtain ⟨v, hv⟩ := exists_passes position b rest depth (depth + 1) [] rfl fun ws => by
      rw [hlexeme, passing, List.append_nil]
    exact hv.meets ih
  | case4 position b rest depth after next hlexeme ih =>
    obtain ⟨v, hv⟩ := exists_passes position b rest depth (depth - 1) [] rfl fun ws => by
      rw [hlexeme, passing, List.append_nil]
    exact hv.meets ih
  | case5 position b rest after next text hlexeme =>
    obtain ⟨hb, hread⟩ := word_of_lexeme hlexeme
    have hafter := congrArg Prod.snd hread
    obtain rfl : b :: rest.takeWhile isWordByte = text := by
      rw [hread] at hlexeme
      exact Lexeme.word.inj hlexeme
    have hsplit : b :: rest = b :: rest.takeWhile isWordByte ++ (readLexeme b rest).2 := by
      rw [hafter, List.cons_append, List.takeWhile_append_dropWhile]
    refine ⟨[], [], hsplit, rfl, congrArg (position + ·) (length_lexeme hsplit), rfl, rfl,
      ⟨b, _, rfl, hb⟩, fun ws => ?_, fun ws => ?_⟩
    · rw [List.append_nil]
      exact .refl _ _
    · show Alike (readLexeme b rest).2 _ _
      rw [hafter]
      exact alike_word hb rest 0 ws
  | case6 position b rest depth after next text hlexeme hdepth ih =>
    obtain ⟨v, hv⟩ := exists_passes position b rest depth depth [(depth, text)]
      (by simp [topLevel, hdepth]) fun ws => by rw [hlexeme, passing]
    exact hv.meets ih

theorem words_of_none (h : s.next? = none) : s.words = [] := by
  rw [Scanner.words]
  split
  · rfl
  · next hsome => rw [h] at hsome; cases hsome

theorem words_of_some (h : s.next? = some (w, t)) : s.words = w :: t.words := by
  rw [Scanner.words]
  split
  · next hnone => rw [h] at hnone; cases hnone
  · next hsome => rw [h] at hsome; cases hsome; rfl

/-- Of the words that the scanner finds, `w` comes after `us`: it starts the text `v`, and before it
the reader is outside of everything, and has met the words `us` outside parentheses. -/
structure Before (s : Scanner) (us : List Word) (w : Word) (u v : Bytes)
    (seen : List (Nat × Bytes)) : Prop where
  split : s.rest = u ++ v
  offset : w.offset = s.position + u.length
  texts : topLevel seen = us.map Word.text
  start : ∃ b text, v = b :: text ∧ isWordByte b = true
  alike : ∀ ws, Alike v ((between s.depth ws).after u) (between 0 (ws ++ seen))

/-- Where the scanner finds a word. -/
theorem exists_before {us vs : List Word} (h : s.words = us ++ w :: vs) :
    ∃ u v seen, Before s us w u v seen := by
  induction us generalizing s with
  | nil =>
    cases hnext : s.next? with
    | none => rw [words_of_none hnext] at h; cases h
    | some found =>
      obtain ⟨w', t⟩ := found
      have hmeets := meets_next? s
      rw [hnext] at hmeets
      rw [words_of_some hnext] at h
      obtain ⟨rfl, -⟩ := List.cons.inj h
      obtain ⟨u, inner, hfinds⟩ := hmeets
      obtain ⟨b, text, htext, hb⟩ := hfinds.start
      exact ⟨u, w'.text ++ t.rest, inner, hfinds.split, hfinds.offset, hfinds.enclosed,
        ⟨b, text ++ t.rest, by rw [htext, List.cons_append], hb⟩, hfinds.before⟩
  | cons first us ih =>
    cases hnext : s.next? with
    | none => rw [words_of_none hnext] at h; cases h
    | some found =>
      obtain ⟨w', t⟩ := found
      have hmeets := meets_next? s
      rw [hnext] at hmeets
      rw [words_of_some hnext] at h
      obtain ⟨rfl, hrest⟩ := List.cons.inj h
      obtain ⟨u, inner, hfinds⟩ := hmeets
      obtain ⟨u', v, seen, hbefore⟩ := ih hrest
      refine ⟨u ++ (w'.text ++ u'), v, inner ++ (0, w'.text) :: seen, ?_, ?_, ?_, hbefore.start, ?_⟩
      · rw [hfinds.split, hbefore.split, List.append_assoc, List.append_assoc]
      · rw [hbefore.offset, hfinds.position, hfinds.offset, List.length_append, List.length_append]
        omega
      · have hcons : topLevel ((0, w'.text) :: seen) = w'.text :: topLevel seen := rfl
        rw [topLevel_append, hfinds.enclosed, hcons, hbefore.texts]
        rfl
      · intro ws
        have hreach := hfinds.before ws
        rw [hbefore.split, ← List.append_assoc] at hreach
        have hword := hfinds.after (ws ++ inner)
        rw [hbefore.split] at hword
        have hlast := hbefore.alike (ws ++ inner ++ [(0, w'.text)])
        rw [hfinds.depth] at hlast
        rw [after_append, after_append]
        have hwhole := (hreach.after (s := w'.text ++ u')).trans
          (by rw [after_append]; exact hword.after.trans hlast)
        simpa using hwhole

/-- The scanner finds the words that the reader meets outside parentheses. -/
theorem exists_met (s : Scanner) : ∃ met, topLevel met = s.words.map Word.text ∧
    ∀ ws, ((between s.depth ws).after s.rest).words = ws ++ met := by
  induction hwords : s.words generalizing s with
  | nil =>
    cases hnext : s.next? with
    | some found => rw [words_of_some hnext] at hwords; cases hwords
    | none =>
      have hmeets := meets_next? s
      rw [hnext] at hmeets
      exact hmeets
  | cons first us ih =>
    cases hnext : s.next? with
    | none => rw [words_of_none hnext] at hwords; cases hwords
    | some found =>
      obtain ⟨w, t⟩ := found
      have hmeets := meets_next? s
      rw [hnext] at hmeets
      rw [words_of_some hnext] at hwords
      obtain ⟨rfl, hrest⟩ := List.cons.inj hwords
      obtain ⟨u, inner, hfinds⟩ := hmeets
      obtain ⟨met, hmet, hends⟩ := ih t hrest
      refine ⟨inner ++ (0, w.text) :: met, ?_, fun ws => ?_⟩
      · have hcons : topLevel ((0, w.text) :: met) = w.text :: topLevel met := rfl
        rw [topLevel_append, hfinds.enclosed, hcons, hmet]
        rfl
      · rw [hfinds.split, after_append, (hfinds.before ws).words_after, after_append,
          (hfinds.after _).words_after, ← hfinds.depth, hends]
        simp

end Scanner

/-! ## Whole statements -/

/-- The scanner of statements finds the words of a statement outside parentheses. -/
theorem wordsOf_eq (sql : Bytes) :
    (wordsOf sql).map Word.text = topLevel (reading sql).words := by
  obtain ⟨met, hmet, hwords⟩ := exists_met (Scanner.ofStatement sql)
  rw [show (reading sql).words = [] ++ met from hwords []]
  exact hmet.symm

/-- Where the scanner finds a word, it starts the text `v` after the text `u`; there the reader is
outside of everything, and has met the words `seen` that are found before. -/
theorem exists_split_of_wordsOf {sql : Bytes} {us vs : List Word} {w : Word}
    (h : wordsOf sql = us ++ w :: vs) : ∃ u v seen, sql = u ++ v ∧ w.offset = u.length ∧
      topLevel seen = us.map Word.text ∧ (∃ b text, v = b :: text ∧ isWordByte b = true) ∧
      Reading.Alike v (reading u) (Reading.between 0 seen) := by
  obtain ⟨u, v, seen, hbefore⟩ := exists_before h
  exact ⟨u, v, seen, hbefore.split, hbefore.offset.trans (Nat.zero_add _), hbefore.texts,
    hbefore.start, hbefore.alike []⟩

end Coordinator.Sql

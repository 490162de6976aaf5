import Coordinator.Proofs.Bytes
import Coordinator.Proofs.Sql.Reading
import Coordinator.Retry.AsOf

/-! # The clause among the words of a query

`addClause` cuts a query in two at the place of the clause, and drops the blanks at the seam
(`seam?`).  No quoted text, block comment or parenthesis is open there (`cut_of_seam?`), so the
words of the query are those of its two parts, and in the result the clause has its words between
them (`words_after_clause`).  There is one exception: the blanks at the seam may begin with the
newline that ends a line comment.  Without that newline the clause is a part of the comment, and so
is what follows it up to the next one (`words_in_lineComment`). -/
namespace Coordinator.Retry.AsOf

open Coordinator.Sql

/-- The texts of the words that the scanner finds. -/
def texts (sql : Bytes) : List Bytes := (wordsOf sql).map Word.text

/-- A query in which quoted text and block comments are terminated, and all parentheses closed.  A
closing parenthesis too many is as good as none to the scanner, and so it is here. -/
def WellFormed (query : Bytes) : Prop :=
  (reading query).region.isInside = false ∧ (reading query).depth = 0

instance (query : Bytes) : Decidable (WellFormed query) := inferInstanceAs (Decidable (_ ∧ _))

/-- An interval that is neither blank, nor a literal, nor an expression. -/
def IsBare (interval : Bytes) : Prop :=
  interval.trim ≠ [] ∧ interval.trim.head? ≠ some 39 ∧ 40 ∉ interval.trim

instance (interval : Bytes) : Decidable (IsBare interval) := inferInstanceAs (Decidable (_ ∧ _))

/-- The words of the clause. -/
def clauseWords : List Bytes := [ascii "AS", ascii "OF", ascii "SYSTEM", ascii "TIME"]

/-- The clause with its operand. -/
def clauseText (operand : Bytes) : Bytes := ascii " AS OF SYSTEM TIME " ++ operand

/-- The text of a query before the clause, and the text behind it. -/
def seam? (query : Bytes) : Option (Bytes × Bytes) :=
  (afterFrom? (wordsOf (body query).1)).map fun rest =>
    match clauseEnd? rest with
    | some at_ => (Bytes.trimRight ((body query).1.take at_), 32 :: (body query).1.drop at_)
    | none => ((body query).1, [])

/-- The semicolon that a query may end with. -/
def ending (query : Bytes) : Bytes := if (body query).2 then [59] else []

section
variable {query interval out front rest op : Bytes}

theorem exists_of_addClause (h : addClause query interval = .ok out) :
    ∃ front rest op, seam? query = some (front, rest) ∧ operand interval = .ok op ∧
      out = front ++ (clauseText op ++ (rest ++ ending query)) := by
  unfold addClause at h
  cases hop : operand interval with
  | error fault => rw [hop] at h; cases h
  | ok op =>
    rw [hop] at h
    unfold seam?
    cases hfrom : afterFrom? (wordsOf (body query).1) with
    | none => simp [hfrom, bind, Except.bind, throw, throwThe, MonadExceptOf.throw] at h
    | some rest =>
      simp only [bind, Except.bind, hfrom, pure, Except.pure, Except.ok.injEq] at h
      cases hend : clauseEnd? rest with
      | none =>
        rw [hend] at h
        exact ⟨_, _, op, by simp only [Option.map_some, hend]; rfl, rfl,
          by rw [← h]; simp [clauseText, ending]⟩
      | some at_ =>
        rw [hend] at h
        exact ⟨_, _, op, by simp only [Option.map_some, hend]; rfl, rfl,
          by rw [← h]; simp [clauseText, ending]⟩

/-! ## The two parts of a query -/

theorem exists_trimRight (s : Bytes) :
    ∃ blanks, s = Bytes.trimRight s ++ blanks ∧ ∀ b ∈ blanks, isInert b = true := by
  obtain ⟨blanks, hs, hblanks⟩ := Bytes.exists_trimRight s
  exact ⟨blanks, hs, fun b hb => by rw [isInert, hblanks b hb, Bool.true_or]⟩

/-- A query is its body, with blanks and at most one semicolon behind it. -/
theorem exists_body (query : Bytes) :
    ∃ tail, query = (body query).1 ++ tail ∧ ∀ b ∈ tail, isInert b = true := by
  obtain ⟨blanks, hquery, hblanks⟩ := exists_trimRight query
  unfold body
  by_cases hlast : query.trimRight.getLast? = some 59
  · obtain ⟨bare, hbare⟩ := List.getLast?_eq_some_iff.mp hlast
    obtain ⟨inner, hinner, hinert⟩ := exists_trimRight bare
    refine ⟨inner ++ 59 :: blanks, ?_, ?_⟩
    · simp only [hbare, List.getLast?_append, List.dropLast_concat]
      rw [hbare] at hquery
      simp only [List.getLast?_singleton, Option.some_or, if_true]
      rw [← List.append_assoc, ← hinner, hquery]
      simp
    · intro b hb
      rcases List.mem_append.mp hb with hb | hb
      · exact hinert b hb
      · rcases List.mem_cons.mp hb with rfl | hb
        · rfl
        · exact hblanks b hb
  · simp only [hlast, if_false]
    exact ⟨blanks, hquery, hblanks⟩

theorem exists_of_afterFrom? {ws rest : List Word} (h : afterFrom? ws = some rest) :
    ∃ us, ws = us ++ rest := by
  induction ws with
  | nil => cases h
  | cons w ws ih =>
    unfold afterFrom? at h
    split at h
    · cases h
      exact ⟨[w], rfl⟩
    · obtain ⟨us, hus⟩ := ih h
      exact ⟨w :: us, by rw [hus, List.cons_append]⟩

/-- The place of the clause is that of a word. -/
theorem exists_of_clauseEnd? {ws : List Word} {n : Nat} (h : clauseEnd? ws = some n) :
    ∃ us w vs, ws = us ++ w :: vs ∧ w.offset = n := by
  fun_induction clauseEnd? ws with
  | case1 => cases h
  | case2 w rest => exact ⟨[], w, rest, rfl, Option.some.inj h⟩
  | case3 => cases h
  | case4 w v rest => exact ⟨[], w, _, rfl, Option.some.inj h⟩
  | case5 w _ _ v rest _ ih =>
    obtain ⟨us, w', vs, hrest, hn⟩ := ih h
    exact ⟨w :: v :: us, w', vs, by rw [hrest]; rfl, hn⟩
  | case6 w rest _ _ ih =>
    obtain ⟨us, w', vs, hrest, hn⟩ := ih h
    exact ⟨w :: us, w', vs, by rw [hrest]; rfl, hn⟩

/-- Behind the clause comes nothing of the query, or a blank. -/
def Follows (rest : Bytes) : Prop := rest = [] ∨ ∃ v, rest = 32 :: v

/-- Where a well-formed query is cut, no quoted text, block comment or parenthesis is open, and no
word is cut. -/
structure Cut (query front rest : Bytes) : Prop where
  outside : (reading front).region.isInside = false
  depth : (reading front).depth = 0
  words : (reading query).words = (reading front).words ++ (reading rest).words
  follows : Follows rest

/-- A text that the reader goes on to read as if it had come out of everything. -/
theorem words_of_alike {u v : Bytes} {seen : List (Nat × Bytes)}
    (h : Reading.Alike v (reading u) (Reading.between 0 seen)) :
    (reading (u ++ v)).words = seen ++ (reading v).words := by
  rw [reading, Reading.after_append]
  exact h.words_after.trans (Reading.words_after_between seen v)

theorem reading_append_inert {s tail : Bytes} (h : ∀ b ∈ tail, isInert b = true) :
    (reading (s ++ tail)).words = (reading s).words ∧
      (reading (s ++ tail)).depth = (reading s).depth ∧
      (reading (s ++ tail)).region.isInside = (reading s).region.isInside := by
  rw [Reading.reading_append]
  exact Reading.after_inert h (reading s)

/-- Before a word that the scanner finds, without the blanks there. -/
theorem trimmed_of_alike {u v text : Bytes} {b : UInt8} {seen : List (Nat × Bytes)}
    (hv : v = b :: text) (hb : isWordByte b = true)
    (h : Reading.Alike v (reading u) (Reading.between 0 seen)) :
    (reading (Bytes.trimRight u)).words = seen ∧ (reading (Bytes.trimRight u)).depth = 0 ∧
      (reading (Bytes.trimRight u)).region.isInside = false := by
  obtain ⟨blanks, hu, hblanks⟩ := exists_trimRight u
  obtain ⟨hwords, hdepth, hinside⟩ := reading_append_inert (s := Bytes.trimRight u) hblanks
  rw [← hu] at hwords hdepth hinside
  have hplain : (reading u).region.step b = .plain := by
    rw [← Reading.region_step, h.step b (by rw [hv]; rfl), Reading.region_step]
    exact enter_of_isWordByte hb
  rw [← hwords, ← hdepth, ← hinside, h.words, h.depth]
  exact ⟨Reading.words_between _ _, rfl,
    not_isInside_of_isOutside (isOutside_of_step_eq_plain hb hplain)⟩

theorem cut_of_seam? (hquery : WellFormed query) (h : seam? query = some (front, rest)) :
    Cut query front rest := by
  obtain ⟨tail, hbody, htail⟩ := exists_body query
  obtain ⟨hwords, hdepth, hinside⟩ := reading_append_inert (s := (body query).1) htail
  rw [← hbody] at hwords hdepth hinside
  unfold seam? at h
  generalize (body query).1 = bare at *
  obtain ⟨found, hfrom, hcut⟩ := Option.map_eq_some_iff.mp h
  cases hend : clauseEnd? found with
  | none =>
    -- The clause goes to the end of the query.
    rw [hend] at hcut
    cases hcut
    exact ⟨hinside ▸ hquery.1, hdepth ▸ hquery.2,
      hwords.trans (List.append_nil _).symm, Or.inl rfl⟩
  | some at_ =>
    -- The clause goes before a word.
    obtain ⟨us, hus⟩ := exists_of_afterFrom? hfrom
    obtain ⟨us', w, vs, hfound, rfl⟩ := exists_of_clauseEnd? hend
    have hwordsOf : wordsOf bare = (us ++ us') ++ w :: vs := by
      rw [hus, hfound, List.append_assoc]
    obtain ⟨u, v, seen, rfl, hoffset, -, ⟨b, text, hv, hb⟩, halike⟩ :=
      exists_split_of_wordsOf hwordsOf
    simp only [hend, hoffset, List.take_left, List.drop_left] at hcut
    cases hcut
    obtain ⟨hseen, hzero, hout⟩ := trimmed_of_alike hv hb halike
    refine ⟨hout, hzero, ?_, Or.inr ⟨v, rfl⟩⟩
    rw [hwords, words_of_alike halike, hseen]
    rfl

/-! ## The clause -/

theorem operand_of_isBare (h : IsBare interval) : operand interval =
    .ok (39 :: interval.trim.flatMap (fun b => if b = 39 then [39, 39] else [b]) ++ [39]) := by
  obtain ⟨hne, hhead, hparen⟩ := h
  unfold operand
  rw [if_neg (by simpa using hne), if_neg (by simp [hhead, hparen])]

/-- Text with its quotes doubled, in quotes, is quoted text. -/
theorem after_literal (s : Bytes) (depth : Nat) (ws : List (Nat × Bytes)) :
    (Reading.between depth ws).after
      (39 :: s.flatMap (fun b => if b = 39 then [39, 39] else [b]) ++ [39]) =
      ⟨.closed .single, depth, ws, []⟩ := by
  have hopen : (Reading.between depth ws).step 39 = ⟨.quoted .single, depth, ws, []⟩ :=
    Reading.step_silent (by decide)
  have hclose : (⟨.quoted .single, depth, ws, []⟩ : Reading).step 39 =
      ⟨.closed .single, depth, ws, []⟩ := Reading.step_silent (by decide)
  have hagain : (⟨.closed .single, depth, ws, []⟩ : Reading).step 39 =
      ⟨.quoted .single, depth, ws, []⟩ := Reading.step_silent (by decide)
  have hinner : (⟨.quoted .single, depth, ws, []⟩ : Reading).after
      (s.flatMap fun b => if b = 39 then [39, 39] else [b]) =
      ⟨.quoted .single, depth, ws, []⟩ := by
    induction s with
    | nil => rfl
    | cons b s ih =>
      rw [List.flatMap_cons, Reading.after_append]
      by_cases hb : b = 39
      · rw [if_pos hb, Reading.after_cons, Reading.after_cons, hclose, hagain]
        exact ih
      · have hregion : (Region.quoted .single).step b = .quoted .single := if_neg hb
        rw [if_neg hb, Reading.after_cons, Reading.step_to hregion (by decide)]
        exact ih
  rw [List.cons_append, Reading.after_cons, hopen, Reading.after_append, hinner,
    Reading.after_cons, hclose]
  rfl

/-- The words of the clause as the reader meets them, outside parentheses. -/
def clauseMet : List (Nat × Bytes) := clauseWords.map fun text => (0, text)

theorem after_keywords (ws : List (Nat × Bytes)) :
    (Reading.between 0 ws).after (ascii "AS OF SYSTEM TIME ") =
      Reading.between 0 (ws ++ clauseMet) := by
  have hstart : Reading.between 0 ws = (Reading.between 0 []).following ws := by
    simp [Reading.between, Reading.following]
  have hmet : (Reading.between 0 []).after (ascii "AS OF SYSTEM TIME ") =
      Reading.between 0 clauseMet := by decide +kernel
  rw [hstart, Reading.after_following, hmet]
  rfl

theorem step_blank {r : Reading} (h : r.region.isOutside = true) :
    r.step 32 = Reading.between r.depth r.words := by
  rw [Reading.step_of_isInert rfl, step_of_isOutside rfl h]
  rfl

theorem ending_inert (query : Bytes) : ∀ b ∈ ending query, isInert b = true := by
  unfold ending
  split
  · intro b hb
    rw [List.mem_singleton.mp hb]
    rfl
  · exact nofun

/-- Outside of everything, the clause adds its words, and what follows it has its own. -/
theorem words_after_clause {r : Reading} {tail : Bytes} (hbare : IsBare interval)
    (hop : operand interval = .ok op) (hout : r.region.isOutside = true) (hdepth : r.depth = 0)
    (hrest : Follows rest) (htail : ∀ b ∈ tail, isInert b = true) :
    (r.after (clauseText op ++ (rest ++ tail))).words =
      r.words ++ clauseMet ++ (reading rest).words := by
  have hop' := hop.symm.trans (operand_of_isBare hbare)
  obtain rfl := Except.ok.inj hop'
  have hclosed : (⟨.closed .single, 0, r.words ++ clauseMet, []⟩ : Reading).words =
      r.words ++ clauseMet := List.append_nil _
  have hclause : ascii " AS OF SYSTEM TIME " = 32 :: ascii "AS OF SYSTEM TIME " := rfl
  rw [← List.append_assoc, Reading.after_append, (Reading.after_inert htail _).1, clauseText,
    hclause, List.append_assoc, List.cons_append, Reading.after_cons, step_blank hout, hdepth,
    Reading.after_append, after_keywords, Reading.after_append, after_literal]
  rcases hrest with rfl | ⟨v, rfl⟩
  · exact hclosed.trans (List.append_nil _).symm
  · rw [Reading.after_cons, step_blank rfl, Reading.words_after_between, hclosed]
    rfl

/-- In a line comment, text adds the words behind the next newline. -/
theorem words_in_lineComment {r : Reading} {tail : Bytes} (hregion : r.region = .lineComment)
    (hdepth : r.depth = 0) :
    (r.after (32 :: tail)).words =
      r.words ++ (reading ((32 :: tail).dropWhile (· ≠ 10))).words := by
  have hstep : r.step 32 = ⟨.lineComment, 0, r.words, []⟩ := by
    rw [Reading.step_of_isInert rfl, hregion, hdepth]
    rfl
  have hcomment := Reading.after_lineComment tail 0 r.words
  have hwords := hcomment.words_after
  rw [← Reading.after_append, List.takeWhile_append_dropWhile] at hwords
  rw [Reading.after_cons, hstep, hwords, Reading.words_after_between,
    List.dropWhile_cons_of_pos (by decide)]
  rfl

theorem texts_eq (sql : Bytes) : texts sql = topLevel (reading sql).words := wordsOf_eq sql

end

/-- What the clause does to a query: between the text before it and the text behind it, which have
the words of the query, it adds its own words; but where the text before it ends in a line comment,
the comment goes on to the next newline. -/
structure Adds (query front rest out : Bytes) : Prop where
  kept : texts query = texts front ++ texts rest
  /-- The same with the words in parentheses, and their depths. -/
  kept_all : (reading query).words = (reading front).words ++ (reading rest).words
  added : (reading front).region ≠ .lineComment →
    texts out = texts front ++ clauseWords ++ texts rest
  added_all : (reading front).region ≠ .lineComment →
    (reading out).words = (reading front).words ++ clauseMet ++ (reading rest).words
  commented : (reading front).region = .lineComment →
    ∃ tail, out = front ++ tail ∧ texts out = texts front ++ texts (tail.dropWhile (· ≠ 10))

/-- A query with every kind of text that the scanner skips. -/
def crowded : Bytes :=
  ascii "SELECT a FROM t /* WHERE ; */ , (SELECT 'it''s (' FROM u -- (\n) v\t WHERE b;\n"

/-- A query with a line comment before its `WHERE`. -/
def annotated : Bytes := ascii "SELECT a FROM t -- c\nWHERE b = 1"

end Coordinator.Retry.AsOf

import Coordinator.Proofs.Retry.AsOf
import Mathlib.Algebra.Group.Nat.Even

/-! # The place of the clause

The clause of `addClause` is documented to stand at the end of the `FROM` clause: before the first
word after `FROM` that starts another clause (`startsClause`), or else at the end of the query.  The
scan behind it (`clauseEnd?`) does not look at every word.  A `GROUP` or `ORDER` that no `BY`
follows starts no clause, and with it goes the word after it, whatever that is.  So of several such
words in a row every other one is looked at, and a word is passed over exactly if an odd number of
them stands right before it (`Examined`).

`placed_of_addClause` says when there is no result, where the clause is otherwise, and when that is
the documented place: if the word there comes after an even number of `GROUP` and `ORDER`, or if
there is none (`eq_iff_of_first`).  In `swallowed`, the word is `WHERE`, after a table that is called
`order`. -/
namespace Coordinator.Retry.AsOf

open Coordinator.Sql

/-! ## Rules for a place among words -/

/-- Whether a word is a keyword, in upper or lower case. -/
def isKeyword (text : Bytes) (keyword : String) : Bool := text.toUpper == ascii keyword

/-- A word that starts a clause if `BY` follows it. -/
def isGrouping (text : Bytes) : Bool := isKeyword text "GROUP" || isKeyword text "ORDER"

/-- Whether a word starts the clause after `FROM`, given the words that follow it. -/
def startsClause (text : Bytes) (rest : List Bytes) : Bool :=
  isKeyword text "WHERE" || isKeyword text "HAVING" || isKeyword text "LIMIT" ||
    isKeyword text "OFFSET" || (isGrouping text && rest.head?.any (isKeyword · "BY"))

/-- How many `GROUP` and `ORDER` stand in a row at the end. -/
def groupings (texts : List Bytes) : Nat := (texts.reverse.takeWhile isGrouping).length

/-- What is asked of a word, given the words before it and those after it. -/
abbrev Rule := List Bytes → Bytes → List Bytes → Prop

/-- The documented rule: the word starts a clause. -/
def Documented : Rule := fun _ text rest => startsClause text rest = true

instance (us : List Bytes) (text : Bytes) (rest : List Bytes) :
    Decidable (Documented us text rest) := inferInstanceAs (Decidable (_ = true))

/-- The rule for `FROM`. -/
def IsFrom : Rule := fun _ text _ => isKeyword text "FROM" = true

/-- The rule of the scan, which passes over every other word in a row of `GROUP` and `ORDER`. -/
def Examined : Rule := fun us text rest => startsClause text rest = true ∧ Even (groupings us)

/-- The first place that a rule admits lies between the words `us` and `vs`; it is the end if the
rule admits no word. -/
structure First (rule : Rule) (words us vs : List Bytes) : Prop where
  split : words = us ++ vs
  here : ∀ text rest, vs = text :: rest → rule us text rest
  earlier : ∀ us' text rest, words = us' ++ text :: rest → us'.length < us.length →
    ¬ rule us' text rest

section
variable {rule rule' : Rule} {words us us' vs vs' : List Bytes} {text next : Bytes}

theorem First.length_le (h : First rule words us vs) (h' : First rule words us' vs') :
    us.length ≤ us'.length := by
  by_contra hlt
  have hsplit := h.split.symm.trans h'.split
  cases vs' with
  | nil =>
    have hlength := congrArg List.length hsplit
    simp only [List.length_append, List.length_nil] at hlength
    omega
  | cons text rest => exact h.earlier us' text rest h'.split (by omega) (h'.here text rest rfl)

/-- There is one first place. -/
theorem First.unique (h : First rule words us vs) (h' : First rule words us' vs') :
    us = us' ∧ vs = vs' :=
  List.append_inj (h.split.symm.trans h'.split) (Nat.le_antisymm (h.length_le h') (h'.length_le h))

/-- The place of a rule is that of a weaker one, if the stricter rule admits it. -/
theorem First.mono (h : First rule words us vs) (hrule : ∀ us text rest, rule' us text rest →
    rule us text rest) (hhere : ∀ text rest, vs = text :: rest → rule' us text rest) :
    First rule' words us vs :=
  ⟨h.split, hhere, fun us' text rest hwords hlt hr =>
    h.earlier us' text rest hwords hlt (hrule _ _ _ hr)⟩

theorem First.nil (rule : Rule) : First rule [] [] [] := ⟨rfl, nofun, nofun⟩

theorem First.of_head (h : rule [] text words) : First rule (text :: words) [] (text :: words) :=
  ⟨rfl, fun _ _ hvs => by cases hvs; exact h, fun _ _ _ _ hlt => by simp at hlt⟩

/-- Every list of words has a documented place. -/
theorem exists_documented (words : List Bytes) : ∃ us vs, First Documented words us vs := by
  induction words with
  | nil => exact ⟨[], [], .nil _⟩
  | cons text words ih =>
    by_cases hstart : startsClause text words = true
    · exact ⟨[], text :: words, .of_head hstart⟩
    · obtain ⟨us, vs, hfirst⟩ := ih
      refine ⟨text :: us, vs, by rw [hfirst.split, List.cons_append], hfirst.here, ?_⟩
      intro us' next rest hwords hlt hrule
      cases us' with
      | nil =>
        obtain ⟨rfl, rfl⟩ := List.cons.inj hwords
        exact hstart hrule
      | cons first us' =>
        exact hfirst.earlier us' next rest (List.cons.inj hwords).2 (Nat.lt_of_succ_lt_succ hlt)
          hrule

/-- No word before the place is one that the rule could admit. -/
theorem First.of_forall (hwords : words = us ++ text :: vs) (hhere : rule us text vs)
    (hbefore : ∀ t ∈ us, ∀ us' rest, ¬ rule us' t rest) : First rule words us (text :: vs) := by
  refine ⟨hwords, fun _ _ hvs => by cases hvs; exact hhere, fun us' t rest hsplit hlt => ?_⟩
  refine hbefore t ?_ us' rest
  rcases List.append_eq_append_iff.mp (hwords.symm.trans hsplit) with ⟨as, rfl, -⟩ | ⟨bs, rfl, hbs⟩
  · rw [List.length_append] at hlt
    omega
  · cases bs with
    | nil => simp at hlt
    | cons b bs =>
      obtain ⟨rfl, -⟩ := List.cons.inj hbs
      exact List.mem_append_right _ List.mem_cons_self

/-- The scan ends in the documented place exactly if it looks at the word there. -/
theorem eq_iff_of_first (h : First Examined words us vs) (h' : First Documented words us' vs') :
    us = us' ↔ vs' = [] ∨ Even (groupings us') := by
  constructor
  · rintro rfl
    obtain rfl := List.append_cancel_left (h.split.symm.trans h'.split)
    cases vs with
    | nil => exact Or.inl rfl
    | cons text rest => exact Or.inr (h.here text rest rfl).2
  · intro heven
    refine (h.unique (h'.mono (fun _ _ _ hr => hr.1) fun text rest hvs => ?_)).1
    exact ⟨h'.here text rest hvs, heven.resolve_left (by rw [hvs]; exact List.cons_ne_nil _ _)⟩

/-! ## The scan -/

theorem groupings_cons_of_not (h : isGrouping text = false) (us : List Bytes) :
    groupings (text :: us) = groupings us := by
  unfold groupings
  rw [List.reverse_cons, List.takeWhile_append, List.takeWhile_cons_of_neg (by simp [h])]
  split
  · next hall =>
    rw [List.append_nil]
    exact hall.symm
  · rfl

theorem groupings_cons (h : isGrouping text = true) (us : List Bytes) :
    groupings (text :: us) = if us.all isGrouping then us.length + 1 else groupings us := by
  have hall : (us.reverse.takeWhile isGrouping).length = us.reverse.length ↔
      us.all isGrouping = true := by
    rw [List.all_eq_true]
    constructor
    · intro hlength text htext
      have htake := (List.takeWhile_prefix isGrouping).eq_of_length hlength
      exact List.mem_takeWhile_imp (htake ▸ List.mem_reverse.mpr htext)
    · intro hus
      rw [List.takeWhile_eq_self_iff.mpr fun text htext => hus text (List.mem_reverse.mp htext)]
  unfold groupings
  rw [List.reverse_cons, List.takeWhile_append, List.takeWhile_cons_of_pos h]
  by_cases hus : us.all isGrouping = true
  · rw [if_pos (hall.mpr hus), if_pos hus]
    simp
  · rw [if_neg (mt hall.mp hus), if_neg hus]

theorem groupings_of_all (h : us.all isGrouping = true) : groupings us = us.length := by
  unfold groupings
  rw [List.takeWhile_eq_self_iff.mpr fun text htext =>
    List.all_eq_true.mp h text (List.mem_reverse.mp htext), List.length_reverse]

/-- A `GROUP` or `ORDER` and the word after it change nothing for what follows. -/
theorem even_groupings (h : isGrouping text = true) (next : Bytes) (us : List Bytes) :
    Even (groupings (text :: next :: us)) ↔ Even (groupings us) := by
  cases hnext : isGrouping next with
  | false =>
    rw [groupings_cons h, if_neg (by simp [hnext]), groupings_cons_of_not hnext]
  | true =>
    rw [groupings_cons h, groupings_cons hnext]
    by_cases hus : us.all isGrouping = true
    · have hall : (next :: us).all isGrouping = true := by simp [hnext, hus]
      rw [if_pos hall, groupings_of_all hus, List.length_cons, Nat.even_add_one, Nat.even_add_one,
        not_not]
    · rw [if_neg (by simp [hnext, hus]), if_neg hus]

/-- A word that the scan looks at and goes past. -/
theorem First.cons (h : First Examined words us vs) (hstart : startsClause text words = false)
    (htext : isGrouping text = false) : First Examined (text :: words) (text :: us) vs where
  split := by rw [h.split, List.cons_append]
  here next rest hvs := by
    obtain ⟨hnext, heven⟩ := h.here next rest hvs
    exact ⟨hnext, by rwa [groupings_cons_of_not htext]⟩
  earlier us' next rest hwords hlt := by
    rintro ⟨hnext, heven⟩
    cases us' with
    | nil =>
      obtain ⟨rfl, rfl⟩ := List.cons.inj hwords
      rw [hstart] at hnext
      cases hnext
    | cons first us' =>
      obtain ⟨rfl, htail⟩ := List.cons.inj hwords
      rw [groupings_cons_of_not htext] at heven
      exact h.earlier us' next rest htail (Nat.lt_of_succ_lt_succ hlt) ⟨hnext, heven⟩

/-- A `GROUP` or `ORDER` without `BY`, and with it the word after it. -/
theorem First.cons_cons (h : First Examined words us vs) (htext : isGrouping text = true)
    (hstart : startsClause text (next :: words) = false) :
    First Examined (text :: next :: words) (text :: next :: us) vs where
  split := by rw [h.split, List.cons_append, List.cons_append]
  here word rest hvs := by
    obtain ⟨hword, heven⟩ := h.here word rest hvs
    exact ⟨hword, (even_groupings htext next us).mpr heven⟩
  earlier us' word rest hwords hlt := by
    rintro ⟨hword, heven⟩
    cases us' with
    | nil =>
      obtain ⟨rfl, rfl⟩ := List.cons.inj hwords
      rw [hstart] at hword
      cases hword
    | cons first us' =>
      obtain ⟨rfl, hrest⟩ := List.cons.inj hwords
      cases us' with
      | nil =>
        -- The word after it is the one that is not looked at.
        rw [groupings_cons htext] at heven
        exact absurd heven (by decide)
      | cons second us' =>
        obtain ⟨rfl, htail⟩ := List.cons.inj hrest
        rw [even_groupings htext] at heven
        exact h.earlier us' word rest htail (by simpa using hlt) ⟨hword, heven⟩

/-- A `GROUP` or `ORDER` that is the last word. -/
theorem First.last (h : startsClause text [] = false) : First Examined [text] [text] [] := by
  refine ⟨rfl, nofun, fun us' next rest hwords hlt hrule => ?_⟩
  obtain rfl := List.length_eq_zero_iff.mp (Nat.lt_one_iff.mp hlt)
  obtain ⟨rfl, rfl⟩ := List.cons.inj hwords
  exact Bool.false_ne_true (h.symm.trans hrule.1)

/-- The scan finds the first place of its rule. -/
theorem exists_first (ws : List Word) : ∃ us vs, ws = us ++ vs ∧
    clauseEnd? ws = vs.head?.map Word.offset ∧
      First Examined (ws.map Word.text) (us.map Word.text) (vs.map Word.text) := by
  fun_induction clauseEnd? ws with
  | case1 => exact ⟨[], [], rfl, rfl, .nil _⟩
  | case2 w rest hw =>
    exact ⟨[], w :: rest, rfl, rfl, .of_head ⟨Bool.or_eq_true_iff.mpr (Or.inl hw), Even.zero⟩⟩
  | case3 w hw hgroup =>
    refine ⟨[w], [], rfl, rfl, .last ?_⟩
    exact Bool.or_eq_false_iff.mpr ⟨Bool.eq_false_iff.mpr hw, Bool.and_false _⟩
  | case4 w hw hgroup v rest hv =>
    refine ⟨[], w :: v :: rest, rfl, rfl, .of_head ⟨?_, Even.zero⟩⟩
    exact Bool.or_eq_true_iff.mpr (Or.inr (Bool.and_eq_true_iff.mpr ⟨hgroup, hv⟩))
  | case5 w hw hgroup v rest hv ih =>
    obtain ⟨us, vs, rfl, hend, hfirst⟩ := ih
    refine ⟨w :: v :: us, vs, rfl, hend, hfirst.cons_cons hgroup ?_⟩
    exact Bool.or_eq_false_iff.mpr ⟨Bool.eq_false_iff.mpr hw,
      Bool.and_eq_false_imp.mpr fun _ => Bool.eq_false_iff.mpr hv⟩
  | case6 w rest hw hgroup ih =>
    obtain ⟨us, vs, rfl, hend, hfirst⟩ := ih
    refine ⟨w :: us, vs, rfl, hend, hfirst.cons ?_ (Bool.eq_false_iff.mpr hgroup)⟩
    exact Bool.or_eq_false_iff.mpr ⟨Bool.eq_false_iff.mpr hw,
      Bool.and_eq_false_imp.mpr fun h => absurd h hgroup⟩

end

/-! ## The query around the place -/

section
variable {query interval out op u v : Bytes} {words us vs seen after : List Bytes}

/-- The words of a query up to its first `FROM`, that one included, and those after it. -/
def AtFrom (query : Bytes) (seen after : List Bytes) : Prop :=
  ∃ before text, First IsFrom (texts query) before (text :: after) ∧ seen = before ++ [text]

theorem AtFrom.unique {seen' after' : List Bytes} (h : AtFrom query seen after)
    (h' : AtFrom query seen' after') : seen = seen' ∧ after = after' := by
  obtain ⟨before, text, hfirst, rfl⟩ := h
  obtain ⟨before', text', hfirst', rfl⟩ := h'
  obtain ⟨rfl, hrest⟩ := hfirst.unique hfirst'
  obtain ⟨rfl, rfl⟩ := List.cons.inj hrest
  exact ⟨rfl, rfl⟩

/-- The third text is the query with the clause right before the first word of `vs`, or, if there is
none, at the end before the semicolon. -/
inductive Stands (query op : Bytes) : List Bytes → List Bytes → Bytes → Prop
  | before {u v word : Bytes} {us vs : List Bytes} (split : (body query).1 = u ++ (word ++ v))
      (front : texts u = us) (back : texts (word ++ v) = word :: vs) :
      Stands query op us (word :: vs)
        (Bytes.trimRight u ++ clauseText op ++ 32 :: word ++ v ++ ending query)
  | atEnd : Stands query op (texts query) [] ((body query).1 ++ clauseText op ++ ending query)

theorem Stands.exists_of_word {word : Bytes} (h : Stands query op us (word :: vs) out) :
    ∃ u v, (body query).1 = u ++ (word ++ v) ∧ texts u = us ∧ texts (word ++ v) = word :: vs ∧
      out = Bytes.trimRight u ++ clauseText op ++ 32 :: word ++ v ++ ending query := by
  cases h with
  | before split front back => exact ⟨_, _, split, front, back, rfl⟩

theorem texts_body (query : Bytes) : texts (body query).1 = texts query := by
  obtain ⟨tail, hquery, htail⟩ := exists_body query
  have hwords := (reading_append_inert (s := (body query).1) htail).1
  rw [← hquery] at hwords
  rw [texts_eq, texts_eq, hwords]

/-- A text that starts with a word. -/
theorem exists_of_isWordByte {b : UInt8} (h : isWordByte b = true) (s : Bytes) :
    ∃ word rest, b :: s = word ++ rest ∧ texts (b :: s) = word :: texts rest := by
  refine ⟨b :: s.takeWhile isWordByte, s.dropWhile isWordByte, ?_, ?_⟩
  · rw [List.cons_append, List.takeWhile_append_dropWhile]
  · have hwords := words_of_alike (Reading.alike_word h s 0 [])
    rw [List.cons_append, List.takeWhile_append_dropWhile] at hwords
    rw [texts_eq, hwords, topLevel_append, texts_eq]
    rfl

/-- Before a word that the scanner finds. -/
theorem exists_split_of_texts {sql : Bytes} {us vs : List Word} {w : Word}
    (h : wordsOf sql = us ++ w :: vs) : ∃ u v, sql = u ++ (w.text ++ v) ∧ w.offset = u.length ∧
      texts u = us.map Word.text ∧ texts (w.text ++ v) = w.text :: vs.map Word.text := by
  obtain ⟨u, v, found, rfl, hoffset, hfound, ⟨b, s, rfl, hb⟩, halike⟩ := exists_split_of_wordsOf h
  have hu : texts u = us.map Word.text := by
    have hwords := halike.words
    rw [Reading.words_between] at hwords
    rw [texts_eq, hwords, hfound]
  have hv : texts (b :: s) = w.text :: vs.map Word.text := by
    have hwhole : texts (u ++ b :: s) = _ := congrArg (List.map Word.text) h
    rw [texts_eq, words_of_alike halike, topLevel_append, hfound, List.map_append] at hwhole
    rw [texts_eq]
    exact List.append_cancel_left hwhole
  obtain ⟨word, rest, hsplit, hword⟩ := exists_of_isWordByte hb s
  obtain ⟨rfl, -⟩ := List.cons.inj (hword.symm.trans hv)
  exact ⟨u, rest, by rw [hsplit], hoffset, hu, by rw [← hsplit, hv]⟩

theorem afterFrom?_eq_none {ws : List Word} :
    afterFrom? ws = none ↔ ∀ w ∈ ws, isKeyword w.text "FROM" = false := by
  induction ws with
  | nil => exact ⟨fun _ => nofun, fun _ => rfl⟩
  | cons w ws ih =>
    rw [List.forall_mem_cons, ← ih]
    rw [afterFrom?]
    by_cases hw : w.is "FROM" = true
    · rw [if_pos hw]
      exact ⟨nofun, fun h => absurd hw (Bool.eq_false_iff.mp h.1)⟩
    · rw [if_neg hw]
      exact ⟨fun h => ⟨Bool.eq_false_iff.mpr hw, h⟩, fun h => h.2⟩

theorem exists_from {ws rest : List Word} (h : afterFrom? ws = some rest) :
    ∃ before w, ws = before ++ w :: rest ∧ isKeyword w.text "FROM" = true ∧
      ∀ v ∈ before, isKeyword v.text "FROM" = false := by
  induction ws with
  | nil => cases h
  | cons w ws ih =>
    rw [afterFrom?] at h
    split at h
    · next hw =>
      cases h
      exact ⟨[], w, rfl, hw, nofun⟩
    · next hw =>
      obtain ⟨before, v, rfl, hv, hbefore⟩ := ih h
      exact ⟨w :: before, v, rfl, hv,
        List.forall_mem_cons.mpr ⟨Bool.eq_false_iff.mpr hw, hbefore⟩⟩

theorem operand_eq_error_iff {e : ClauseFault} : operand interval = .error e ↔
    e = .blankInterval ∧ interval.trim = [] := by
  unfold operand
  cases hbare : interval.trim with
  | nil => exact ⟨fun h => by cases h; exact ⟨rfl, rfl⟩, fun h => by rw [h.1]; rfl⟩
  | cons b s =>
    simp only [List.isEmpty_cons, Bool.false_eq_true, if_false]
    constructor
    · intro h
      split at h <;> cases h
    · exact fun h => by cases h.2

/-- A query is refused for a blank interval, or else if it cannot be cut. -/
theorem addClause_eq (query interval : Bytes) : addClause query interval =
    match operand interval, seam? query with
    | .error e, _ => .error e
    | .ok _, none => .error .noFrom
    | .ok op, some (front, rest) => .ok (front ++ (clauseText op ++ (rest ++ ending query))) := by
  cases hout : addClause query interval with
  | ok out =>
    obtain ⟨front, rest, op, hseam, hop, rfl⟩ := exists_of_addClause hout
    rw [hop, hseam]
  | error e =>
    unfold addClause at hout
    unfold seam?
    cases hop : operand interval with
    | error e' =>
      rw [hop] at hout
      cases hout
      rfl
    | ok op =>
      rw [hop] at hout
      cases hfrom : afterFrom? (wordsOf (body query).1) with
      | none =>
        simp only [bind, Except.bind, hfrom] at hout
        cases hout
        rfl
      | some rest => simp [bind, Except.bind, hfrom, pure, Except.pure] at hout

theorem seam?_eq_none_iff : seam? query = none ↔
    ∀ text ∈ texts query, isKeyword text "FROM" = false := by
  rw [seam?, Option.map_eq_none_iff, afterFrom?_eq_none, ← texts_body, texts, List.forall_mem_map]

/-- A query is cut where the scan ends. -/
theorem exists_of_seam? {front rest : Bytes} (h : seam? query = some (front, rest)) :
    ∃ seen after us vs, AtFrom query seen after ∧ First Examined after us vs ∧
      ∀ op, Stands query op (seen ++ us) vs
        (front ++ (clauseText op ++ (rest ++ ending query))) := by
  obtain ⟨found, hfrom, hcut⟩ := Option.map_eq_some_iff.mp h
  obtain ⟨before, w, hwords, hw, hbefore⟩ := exists_from hfrom
  obtain ⟨us, vs, rfl, hend, hfirst⟩ := exists_first found
  have htexts : texts query =
      before.map Word.text ++ w.text :: (us ++ vs).map Word.text := by
    rw [← texts_body, texts, hwords, List.map_append, List.map_cons]
  have hstart : AtFrom query ((before ++ [w]).map Word.text) ((us ++ vs).map Word.text) := by
    refine ⟨_, _, .of_forall htexts hw ?_, List.map_append⟩
    exact List.forall_mem_map.mpr fun v hv _ _ => Bool.eq_false_iff.mp (hbefore v hv)
  refine ⟨_, _, _, _, hstart, hfirst, fun op => ?_⟩
  rw [← List.map_append]
  cases vs with
  | nil =>
    simp only [hend, List.head?_nil, Option.map_none, Prod.mk.injEq] at hcut
    obtain ⟨rfl, rfl⟩ := hcut
    have hall : ((before ++ [w]) ++ us).map Word.text = texts query := by
      rw [htexts]
      simp
    rw [hall, List.nil_append, ← List.append_assoc]
    exact .atEnd
  | cons next vs =>
    have hsplit : wordsOf (body query).1 = ((before ++ [w]) ++ us) ++ next :: vs := by
      rw [hwords]
      simp
    obtain ⟨u, v, hbody, hoffset, hu, hv⟩ := exists_split_of_texts hsplit
    simp only [hend, List.head?_cons, Option.map_some, hoffset, Prod.mk.injEq] at hcut
    obtain ⟨rfl, rfl⟩ := hcut
    have hstands : Stands query op _ _ _ := .before hbody hu hv
    simp only [hbody, List.take_left, List.drop_left]
    simpa using hstands

/-- Where the clause stands in the result: in the first place that the scan finds after the first
`FROM`, which is the documented one unless the word there is passed over. -/
structure Placed (query op out : Bytes) (seen after us vs : List Bytes) : Prop where
  start : AtFrom query seen after
  place : First Examined after us vs
  stands : Stands query op (seen ++ us) vs out
  documented : ∃ us' vs', First Documented after us' vs' ∧
    (us = us' ↔ vs' = [] ∨ Even (groupings us'))

end

/-- A table that is called `order`, and after it an `ORDER BY`. -/
def ordered : Bytes := ascii "select a from order t ORDER /* ; */ by a LIMIT 1 ;"

/-- A table that is called `order`, right before a `WHERE`. -/
def swallowed : Bytes := ascii "SELECT a FROM order WHERE b = 1"

end Coordinator.Retry.AsOf

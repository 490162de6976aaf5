import Coordinator.Client.Mysql
import Coordinator.Proofs.Decimal
import Coordinator.Proofs.Sql.Literal
import Coordinator.Proofs.Sql.Placeholders
import Mathlib.Data.List.TakeWhile

/-! # Parameters stay in their places

A statement with its parameters written into it is lexed again, by the rules of templates and by the
server's reader of literals.  Both go through a rendered parameter from outside quoted text to
outside quoted text (`after_render`), so everywhere else the statement is lexed as its template is,
and each text parameter is read back whole (`sealed_of_bind`).

That needs one thing of the template: no placeholder is followed by a single quote or by another
placeholder (`Apart`), because a literal goes on when a quote follows it.  What stands before a
placeholder does not matter. -/
namespace Coordinator.Sql

/-! ## Bytes that open no quoted text -/

/-- A text without quotes and backticks. -/
def Unmarked (s : Bytes) : Prop := ∀ b ∈ s, Quoting.isMark b = false

namespace Unmarked
variable {s t : Bytes} {b : UInt8}

theorem nil : Unmarked [] := nofun

theorem cons (hb : Quoting.isMark b = false) (h : Unmarked s) : Unmarked (b :: s) := by
  intro c hc
  rcases List.mem_cons.mp hc with rfl | hc
  · exact hb
  · exact h c hc

theorem append (h : Unmarked s) (h' : Unmarked t) : Unmarked (s ++ t) := by
  intro b hb
  rcases List.mem_append.mp hb with hb | hb
  · exact h b hb
  · exact h' b hb

theorem subset (h : Unmarked s) (hsub : t ⊆ s) : Unmarked t := fun b hb => h b (hsub hb)

theorem replicate (n : Nat) (hb : Quoting.isMark b = false) : Unmarked (List.replicate n b) := by
  intro c hc
  rw [List.eq_of_mem_replicate hc]
  exact hb

theorem dropTailWhile (p : UInt8 → Bool) (h : Unmarked s) : Unmarked (s.dropTailWhile p) := by
  intro b hb
  have hmem := (List.dropWhile_sublist p).subset (List.mem_reverse.mp hb)
  exact h b (List.mem_reverse.mp hmem)

theorem ofNat (n : Nat) : Unmarked (Decimal.ofNat n) := by
  intro b hb
  have hdigit := Decimal.isDigit_of_mem_ofNat n b hb
  have hne (c : UInt8) (hc : Byte.isDigit c = false) : b ≠ c := by
    rintro rfl
    rw [hdigit] at hc
    cases hc
  simp [Quoting.isMark, hne 39 rfl, hne 34 rfl, hne 96 rfl]

theorem ofInt (n : Int) : Unmarked (Decimal.ofInt n) := by
  cases n with
  | ofNat n => exact ofNat n
  | negSucc n => exact cons rfl (ofNat (n + 1))

theorem pointed (digits : Bytes) (whole : Nat) (h : Unmarked digits) :
    Unmarked (Binary64.pointed digits whole) := by
  unfold Binary64.pointed
  refine ((h.subset (List.take_subset _ _)).append (replicate _ rfl)).append ?_
  split
  · exact nil
  · exact cons rfl (h.subset (List.drop_subset _ _))

theorem exponentPart (width : Nat) (exponent : Int) :
    Unmarked (Binary64.exponentPart width exponent) := by
  unfold Binary64.exponentPart
  refine cons rfl (cons ?_ ((replicate _ rfl).append (ofNat _)))
  split <;> rfl

theorem magnitudeText (l : Binary64.Layout) (units : Nat) :
    Unmarked (Binary64.magnitudeText l units) := by
  have hshown (n : Nat) : Unmarked ((Decimal.ofNat n).dropTailWhile (· == 48)) :=
    dropTailWhile _ (ofNat n)
  unfold Binary64.magnitudeText
  dsimp only
  split
  · exact (pointed _ _ (hshown _)).append (exponentPart _ _)
  split
  · exact cons rfl (cons rfl ((replicate _ rfl).append (hshown _)))
  · exact pointed _ _ (hshown _)

theorem text (x : Binary64) : Unmarked x.text := by
  have hsigned (negative : Bool) (s : Bytes) (h : Unmarked s) :
      Unmarked (if negative then 45 :: s else s) := by
    split
    · exact cons rfl h
    · exact h
  unfold Binary64.text
  split
  · refine hsigned _ _ ?_
    split
    · exact cons rfl nil
    · exact magnitudeText _ _
  · exact hsigned _ _ (cons rfl (cons rfl (cons rfl nil)))
  · exact hsigned _ _ (cons rfl (cons rfl (cons rfl nil)))

end Unmarked

/-! ## Rendered parameters -/

namespace Quoting

@[simp] theorem after_nil (q : Quoting) : q.after [] = q := rfl

@[simp] theorem after_cons (q : Quoting) (b : UInt8) (s : Bytes) :
    q.after (b :: s) = (q.step b).after s := rfl

@[simp] theorem after_append (q : Quoting) (s t : Bytes) :
    q.after (s ++ t) = (q.after s).after t := List.foldl_append

theorem after_unmarked {s : Bytes} (h : Unmarked s) : outside.after s = outside := by
  induction s with
  | nil => rfl
  | cons b s ih =>
    have hb : outside.step b = outside :=
      if_neg (by rw [h b List.mem_cons_self]; exact Bool.false_ne_true)
    rw [after_cons, hb]
    exact ih fun c hc => h c (List.mem_cons_of_mem _ hc)

end Quoting

/-- A way to write literals that both lexers go through as one. -/
structure Seals (quote : Bytes → Bytes) : Prop where
  after : ∀ s, Quoting.outside.after (quote s) = .outside
  read : ∀ s rest, rest.head? ≠ some 39 → Literal.read (quote s ++ rest) = .ok (s, rest)

/-- It is enough to look at single bytes: each is read back, and leaves a template inside the
literal. -/
theorem seals_of_write {quote : Bytes → Bytes} {write : UInt8 → Bytes}
    (hquote : ∀ s, quote s = 39 :: s.flatMap write ++ [39]) (hundone : Literal.Undone write)
    (hinside : ∀ b, (Quoting.inside 39).after (write b) = .inside 39) : Seals quote where
  after s := by
    have hwritten : (Quoting.inside 39).after (s.flatMap write) = .inside 39 := by
      induction s with
      | nil => rfl
      | cons b s ih => rw [List.flatMap_cons, Quoting.after_append, hinside, ih]
    rw [hquote, List.cons_append, Quoting.after_cons, Quoting.after_append,
      show Quoting.outside.step 39 = .inside 39 from rfl, hwritten]
    rfl
  read s rest hrest := by
    rw [hquote]
    exact Literal.read_of_undone hundone s hrest

/-- A byte that is neither the closing quote nor a backslash stays inside. -/
theorem step_inside {b : UInt8} (hquote : b ≠ 39) (hbackslash : b ≠ 92) :
    (Quoting.inside 39).step b = .inside 39 :=
  (if_neg fun h => hbackslash h.1).trans (if_neg hquote)

theorem seals_quote : Seals Literal.quote := by
  refine seals_of_write Literal.quote_eq Literal.undone_twice fun b => ?_
  unfold Literal.twice
  split
  · next h => rcases h with rfl | rfl <;> rfl
  · next h => exact step_inside (fun hb => h (Or.inl hb)) fun hb => h (Or.inr hb)

/-- The escapes of the MySQL client. -/
theorem undone_escapeByte : Literal.Undone Client.Mysql.escapeByte := by
  intro b rest
  unfold Client.Mysql.escapeByte
  split
  case h_8 hbackslash hquote _ => exact Literal.readBody_plain hquote hbackslash rest
  all_goals rfl

theorem seals_mysql : Seals Client.Mysql.quote := by
  refine seals_of_write (fun _ => rfl) undone_escapeByte fun b => ?_
  unfold Client.Mysql.escapeByte
  split
  case h_8 hbackslash hquote _ => exact step_inside hquote hbackslash
  all_goals rfl

/-- A rendered parameter leads from outside quoted text to outside quoted text. -/
theorem after_render {quote : Bytes → Bytes} (h : Seals quote) (p : Param) :
    Quoting.outside.after (p.render quote) = .outside := by
  cases p with
  | null => rfl
  | int32 n => exact Quoting.after_unmarked (Unmarked.ofInt _)
  | int64 n => exact Quoting.after_unmarked (Unmarked.ofInt _)
  | uint64 n => exact Quoting.after_unmarked (Unmarked.ofNat _)
  | real x => exact Quoting.after_unmarked (Unmarked.text x)
  | text s => exact h.after s

/-! ## Templates, part by part -/

namespace Template

/-- A part of a template: a byte of its text, or a placeholder with the parameter for it. -/
inductive Part
  | byte (b : UInt8)
  | param (p : Param)
deriving DecidableEq, Repr

/-- The part in the template. -/
def Part.source : Part → Bytes
  | byte b => [b]
  | param _ => [63]

/-- The part in the statement. -/
def Part.written (quote : Bytes → Bytes) : Part → Bytes
  | byte b => [b]
  | param p => p.render quote

/-- The text of parts in the template. -/
def sources (parts : List Part) : Bytes := parts.flatMap Part.source

/-- The text of parts in the statement. -/
def writtens (quote : Bytes → Bytes) (parts : List Part) : Bytes :=
  parts.flatMap (Part.written quote)

/-- The parts of a template from a position on: a question mark outside quoted text is a
placeholder, and the placeholders take the parameters in order. -/
inductive Laid : Quoting → Bytes → List Param → List Part → Prop
  | nil {q} : Laid q [] [] []
  | byte {q b rest params parts} (h : ¬ (q = .outside ∧ b = 63))
      (tail : Laid (q.step b) rest params parts) : Laid q (b :: rest) params (.byte b :: parts)
  | param {rest p params parts} (tail : Laid .outside rest params parts) :
      Laid .outside (63 :: rest) (p :: params) (.param p :: parts)

/-- The number of placeholders from a position on. -/
def placeholders : Quoting → Bytes → Nat
  | _, [] => 0
  | q, b :: rest =>
    (if q = .outside ∧ b = 63 then 1 else 0) + placeholders (q.step b) rest

/-- After no placeholder comes a single quote or another placeholder. -/
def Apart : Quoting → Bytes → Prop
  | _, [] => True
  | q, b :: rest =>
    (q = .outside ∧ b = 63 → rest.head? ≠ some 39 ∧ rest.head? ≠ some 63) ∧ Apart (q.step b) rest

/-- Whether placeholders stand apart can be computed. -/
def decidableApart : (q : Quoting) → (template : Bytes) → Decidable (Apart q template)
  | _, [] => .isTrue trivial
  | q, b :: rest =>
    let _ := decidableApart (q.step b) rest
    inferInstanceAs (Decidable (_ ∧ _))

instance (q : Quoting) (template : Bytes) : Decidable (Apart q template) :=
  decidableApart q template

section
variable {q : Quoting} {template : Bytes} {params : List Param} {parts left right : List Part}
  {quote : Bytes → Bytes}

/-- With as many parameters as placeholders, a template has its parts. -/
theorem exists_laid (h : params.length = placeholders q template) :
    ∃ parts, Laid q template params parts := by
  induction template generalizing q params with
  | nil =>
    rw [List.length_eq_zero_iff.mp h]
    exact ⟨[], .nil⟩
  | cons b rest ih =>
    unfold placeholders at h
    by_cases hb : q = .outside ∧ b = 63
    · obtain ⟨rfl, rfl⟩ := hb
      cases params with
      | nil => simp at h; omega
      | cons p params =>
        have hrest : params.length = placeholders .outside rest := by
          simp only [List.length_cons, and_self, if_true] at h
          have hstep : Quoting.outside.step 63 = .outside := rfl
          rw [hstep] at h
          omega
        obtain ⟨parts, hparts⟩ := ih hrest
        exact ⟨.param p :: parts, .param hparts⟩
    · have hrest : params.length = placeholders (q.step b) rest := by
        rw [if_neg hb] at h
        omega
      obtain ⟨parts, hparts⟩ := ih hrest
      exact ⟨.byte b :: parts, .byte hb hparts⟩

theorem Laid.sources (h : Laid q template params parts) : sources parts = template := by
  induction h with
  | nil => rfl
  | byte _ _ ih => exact congrArg (_ :: ·) ih
  | param _ ih => exact congrArg (_ :: ·) ih

theorem fill_of_laid (h : Laid q template params parts) :
    fill quote q template params = some (writtens quote parts, []) := by
  induction h with
  | nil => rfl
  | byte hb _ ih =>
    rw [fill_kept (not_and.mp hb), ih]
    rfl
  | param _ ih =>
    rw [fill_placeholder, ih]
    rfl

theorem bind_of_laid (h : Laid .outside template params parts) :
    bind quote template params = .ok (writtens quote parts) := by
  unfold bind
  rw [fill_of_laid h]

/-- What is left of a template after some of its parts. -/
theorem Laid.drop (h : Laid q template params (left ++ right)) (hapart : Apart q template) :
    ∃ rest params', Laid (q.after (Template.sources left)) rest params' right ∧
      Apart (q.after (Template.sources left)) rest := by
  induction left generalizing q template params with
  | nil => exact ⟨template, params, h, hapart⟩
  | cons part left ih =>
    cases h with
    | byte _ tail => exact ih tail hapart.2
    | param tail => exact ih tail hapart.2

/-- A statement is lexed as its template is, around the rendered parameters. -/
theorem after_writtens (hquote : Seals quote) (h : Laid q template params (left ++ right)) :
    q.after (writtens quote left) = q.after (Template.sources left) := by
  induction left generalizing q template params with
  | nil => rfl
  | cons part left ih =>
    cases h with
    | byte _ tail => exact ih tail
    | @param _ p _ _ tail =>
      have hwritten : writtens quote (.param p :: left) =
          p.render quote ++ writtens quote left := rfl
      rw [hwritten, Quoting.after_append, after_render hquote]
      exact ih tail

/-- Before a parameter, the template is outside quoted text; behind it comes no quote. -/
theorem Laid.at_param {p : Param} (h : Laid q template params (left ++ .param p :: right))
    (hapart : Apart q template) : q.after (Template.sources left) = .outside ∧
      (writtens quote right).head? ≠ some 39 := by
  obtain ⟨rest, params', hlaid, hrest⟩ := h.drop hapart
  generalize q.after (Template.sources left) = q' at hlaid hrest
  cases hlaid with
  | @param rest _ _ _ tail =>
    refine ⟨rfl, ?_⟩
    obtain ⟨hquote, hplaceholder⟩ := hrest.1 ⟨rfl, rfl⟩
    cases tail with
    | nil => exact nofun
    | byte _ _ => exact hquote
    | param _ => exact absurd rfl hplaceholder

end

/-- No parameter gets out of its place in the statement: between any two parts the statement is
lexed as the template is, around a rendered parameter it is outside quoted text, and the reader of
literals takes just the rendered text for the text of a parameter. -/
structure Sealed (quote : Bytes → Bytes) (parts : List Part) : Prop where
  state : ∀ left right, parts = left ++ right →
    Quoting.outside.after (writtens quote left) = Quoting.outside.after (sources left)
  before : ∀ left p right, parts = left ++ .param p :: right →
    Quoting.outside.after (writtens quote left) = .outside
  after : ∀ left p right, parts = left ++ .param p :: right →
    Quoting.outside.after (writtens quote left ++ p.render quote) = .outside
  read : ∀ left s right, parts = left ++ .param (.text s) :: right →
    Literal.read ((Param.text s).render quote ++ writtens quote right) =
      .ok (s, writtens quote right)

/-- **Parameters stay in their places.**  With the literals of the library as with those of the
MySQL client, a template whose placeholders stand apart takes as many parameters as it has
placeholders, and the statement is its parts one after the other, each parameter sealed. -/
theorem sealed_of_bind {quote : Bytes → Bytes} {template : Bytes} {params : List Param}
    (hquote : quote = Literal.quote ∨ quote = Client.Mysql.quote)
    (hparams : params.length = placeholders .outside template)
    (hapart : Apart .outside template) : ∃ parts, Laid .outside template params parts ∧
      sources parts = template ∧ bind quote template params = .ok (writtens quote parts) ∧
      Sealed quote parts := by
  have hseals : Seals quote := by
    rcases hquote with rfl | rfl
    · exact seals_quote
    · exact seals_mysql
  obtain ⟨parts, hlaid⟩ := exists_laid hparams
  refine ⟨parts, hlaid, hlaid.sources, bind_of_laid hlaid, ?_⟩
  have hstate (left right) (hparts : parts = left ++ right) :
      Quoting.outside.after (writtens quote left) = Quoting.outside.after (sources left) :=
    after_writtens hseals (hparts ▸ hlaid)
  have hplace (left p right) (hparts : parts = left ++ .param p :: right) :
      Quoting.outside.after (sources left) = .outside ∧ (writtens quote right).head? ≠ some 39 :=
    (hparts ▸ hlaid).at_param hapart
  have hbefore (left p right) (hparts : parts = left ++ .param p :: right) :
      Quoting.outside.after (writtens quote left) = .outside :=
    (hstate left _ hparts).trans (hplace left p right hparts).1
  refine ⟨hstate, hbefore, fun left p right hparts => ?_, fun left s right hparts => ?_⟩
  · rw [Quoting.after_append, hbefore left p right hparts]
    exact after_render hseals p
  · exact hseals.read s _ (hplace left _ right hparts).2

/-- A template with question marks in quoted text, and two placeholders. -/
def update : Bytes := ascii "UPDATE `?` SET a = ?, b = 'it''s \\'?' WHERE c = ?;"

/-- Text that would end its literal, and a number. -/
def hostile : List Param := [.text (ascii "\\'; --"), .int32 (-5)]

theorem sealed_hostile : hostile.length = placeholders .outside update ∧ Apart .outside update ∧
    ∃ parts, Laid .outside update hostile parts ∧ sources parts = update ∧
      bind Client.Mysql.quote update hostile = .ok (writtens Client.Mysql.quote parts) ∧
      writtens Client.Mysql.quote parts =
        ascii "UPDATE `?` SET a = '\\\\\\'; --', b = 'it''s \\'?' WHERE c = -5;" ∧
      Sealed Client.Mysql.quote parts := by
  have hcount : hostile.length = placeholders .outside update := by decide +kernel
  have hapart : Apart .outside update := by decide +kernel
  have hbind : bind Client.Mysql.quote update hostile = .ok (ascii
      "UPDATE `?` SET a = '\\\\\\'; --', b = 'it''s \\'?' WHERE c = -5;") := by decide +kernel
  obtain ⟨parts, hlaid, hsource, hok, hsealed⟩ := sealed_of_bind (Or.inr rfl) hcount hapart
  exact ⟨hcount, hapart, parts, hlaid, hsource, hok, Except.ok.inj (hok.symm.trans hbind), hsealed⟩

end Template
end Coordinator.Sql

import Coordinator.Sql.Template

/-! # Placeholders of a template

The rule by which a template is scanned is written down as a relation (`Scans`): from the left, a
template is bytes, placeholders, and quoted texts as a whole (`Quoted`).  It is a rule that every
template can be scanned by, in one way only.

**Binding fills exactly the placeholders of the scan** (`fills_placeholders`): it succeeds if they
are as many as the parameters, and the statement has the parameters in their places and everything
else as it was.  The scan does not depend on the parameters, so nothing in them is taken for a quote
or a placeholder. -/
namespace Coordinator.Sql.Template

/-! ## The rule -/

/-- A byte that opens quoted text: a single quote, a double quote or a backtick. -/
def Opens (b : UInt8) : Prop := b = 39 ∨ b = 34 ∨ b = 96

instance : DecidablePred Opens := fun _ => inferInstanceAs (Decidable (_ ∨ _ ∨ _))

theorem isMark_iff {b : UInt8} : Quoting.isMark b ↔ Opens b := by
  simp only [Quoting.isMark, Opens, Bool.or_eq_true, beq_iff_eq, or_assoc]

theorem Opens.ne_placeholder {b : UInt8} (h : Opens b) : b ≠ 63 := by
  rintro rfl
  exact absurd h (by decide)

theorem Opens.ne_backslash {b : UInt8} (h : Opens b) : b ≠ 92 := by
  rintro rfl
  exact absurd h (by decide)

/-- Behind the `mark` that opened it, a text starts with the quoted text `s`, and goes on with
`rest`.  The mark closes the quoted text, and so does the end of the template.  Between single or
double quotes a backslash takes the byte after it along. -/
inductive Quoted (mark : UInt8) : (text s rest : Bytes) → Prop
  | closed {rest} : Quoted mark (mark :: rest) [mark] rest
  | ended : Quoted mark [] [] []
  | byte {b text s rest} (hmark : b ≠ mark) (hplain : b ≠ 92 ∨ mark = 96)
      (tail : Quoted mark text s rest) : Quoted mark (b :: text) (b :: s) rest
  | escaped {b text s rest} (hmark : mark ≠ 96) (tail : Quoted mark text s rest) :
      Quoted mark (92 :: b :: text) (92 :: b :: s) rest
  | endedEscape (hmark : mark ≠ 96) : Quoted mark [92] [92] []

/-- A piece of a template. -/
inductive Piece
  | byte (b : UInt8)
  | placeholder
  /-- Quoted text, with its quotes. -/
  | quoted (s : Bytes)
deriving DecidableEq, Repr

/-- The piece in the template. -/
def Piece.source : Piece → Bytes
  | byte b => [b]
  | placeholder => [63]
  | quoted s => s

/-- The pieces of a template, scanned from the left. -/
inductive Scans : (template : Bytes) → List Piece → Prop
  | nil : Scans [] []
  | byte {b rest pieces} (hopen : ¬ Opens b) (hplaceholder : b ≠ 63) (tail : Scans rest pieces) :
      Scans (b :: rest) (.byte b :: pieces)
  | placeholder {rest pieces} (tail : Scans rest pieces) :
      Scans (63 :: rest) (.placeholder :: pieces)
  | quoted {mark text s rest pieces} (hopen : Opens mark) (hquoted : Quoted mark text s rest)
      (tail : Scans rest pieces) : Scans (mark :: text) (.quoted (mark :: s) :: pieces)

/-- The number of placeholders among pieces. -/
def holes (pieces : List Piece) : Nat := pieces.count .placeholder

@[simp] theorem holes_byte (b : UInt8) (pieces : List Piece) :
    holes (.byte b :: pieces) = holes pieces := rfl

@[simp] theorem holes_quoted (s : Bytes) (pieces : List Piece) :
    holes (.quoted s :: pieces) = holes pieces := rfl

@[simp] theorem holes_placeholder (pieces : List Piece) :
    holes (.placeholder :: pieces) = holes pieces + 1 := List.count_cons_self

theorem holes_append (left right : List Piece) :
    holes (left ++ right) = holes left + holes right := List.count_append

/-- The text of pieces with the parameters in the place of the placeholders, in order. -/
def filled (quote : Bytes → Bytes) : List Piece → List Param → Bytes
  | .placeholder :: pieces, p :: params => p.render quote ++ filled quote pieces params
  | piece :: pieces, params => piece.source ++ filled quote pieces params
  | [], _ => []

/-! ## Every template is scanned in one way -/

variable {quote : Bytes → Bytes} {q : Quoting} {mark b : UInt8} {text s s' rest rest' : Bytes}
  {template : Bytes} {params : List Param} {pieces pieces' : List Piece}

theorem Quoted.append_eq (h : Quoted mark text s rest) : s ++ rest = text := by
  induction h with
  | closed | ended | endedEscape => rfl
  | byte _ _ _ ih => exact congrArg (_ :: ·) ih
  | escaped _ _ ih => exact congrArg (_ :: _ :: ·) ih

theorem exists_quoted (mark : UInt8) : ∀ text, ∃ s rest, Quoted mark text s rest
  | [] => ⟨[], [], .ended⟩
  | b :: text => by
    by_cases hmark : b = mark
    · exact ⟨[mark], text, hmark ▸ .closed⟩
    by_cases hescape : b = 92 ∧ mark ≠ 96
    · obtain ⟨rfl, hne⟩ := hescape
      match text with
      | [] => exact ⟨[92], [], .endedEscape hne⟩
      | b' :: text =>
        obtain ⟨s, rest, h⟩ := exists_quoted mark text
        exact ⟨92 :: b' :: s, rest, .escaped hne h⟩
    · obtain ⟨s, rest, h⟩ := exists_quoted mark text
      have hplain : b ≠ 92 ∨ mark = 96 :=
        (Decidable.not_and_iff_not_or_not.mp hescape).imp_right Decidable.not_not.mp
      exact ⟨b :: s, rest, .byte hmark hplain h⟩

theorem Quoted.unique (hopen : Opens mark) (h : Quoted mark text s rest)
    (h' : Quoted mark text s' rest') : s = s' ∧ rest = rest' := by
  have hmark := hopen.ne_backslash
  induction h generalizing s' rest' with
  | closed =>
    cases h' with
    | closed => exact ⟨rfl, rfl⟩
    | byte hne => exact absurd rfl hne
    | escaped | endedEscape => exact absurd rfl hmark
  | ended =>
    cases h'
    exact ⟨rfl, rfl⟩
  | byte hne hplain _ ih =>
    cases h' with
    | closed => exact absurd rfl hne
    | byte _ _ tail' =>
      obtain ⟨rfl, rfl⟩ := ih tail'
      exact ⟨rfl, rfl⟩
    | escaped hmark' | endedEscape hmark' => exact absurd hplain (by simp [hmark'])
  | escaped hne _ ih =>
    cases h' with
    | closed => exact absurd rfl hmark
    | byte _ hplain => exact absurd hplain (by simp [hne])
    | escaped _ tail' =>
      obtain ⟨rfl, rfl⟩ := ih tail'
      exact ⟨rfl, rfl⟩
  | endedEscape hne =>
    cases h' with
    | closed => exact absurd rfl hmark
    | byte _ hplain => exact absurd hplain (by simp [hne])
    | endedEscape => exact ⟨rfl, rfl⟩

theorem exists_scans : ∀ template, ∃ pieces, Scans template pieces
  | [] => ⟨[], .nil⟩
  | b :: rest => by
    by_cases hopen : Opens b
    · obtain ⟨s, rest', hquoted⟩ := exists_quoted b rest
      have hlength : rest'.length ≤ rest.length := by
        rw [← hquoted.append_eq, List.length_append]
        omega
      obtain ⟨pieces, hpieces⟩ := exists_scans rest'
      exact ⟨.quoted (b :: s) :: pieces, .quoted hopen hquoted hpieces⟩
    · obtain ⟨pieces, hpieces⟩ := exists_scans rest
      by_cases hplaceholder : b = 63
      · exact ⟨.placeholder :: pieces, hplaceholder ▸ .placeholder hpieces⟩
      · exact ⟨.byte b :: pieces, .byte hopen hplaceholder hpieces⟩
  termination_by template => template.length
  decreasing_by all_goals simp only [List.length_cons]; omega

theorem Scans.unique (h : Scans template pieces) (h' : Scans template pieces') :
    pieces = pieces' := by
  induction h generalizing pieces' with
  | nil =>
    cases h'
    rfl
  | byte hopen hplaceholder _ ih =>
    cases h' with
    | byte _ _ tail' => rw [ih tail']
    | placeholder => exact absurd rfl hplaceholder
    | quoted hopen' => exact absurd hopen' hopen
  | placeholder _ ih =>
    cases h' with
    | byte _ hplaceholder => exact absurd rfl hplaceholder
    | placeholder tail' => rw [ih tail']
    | quoted hopen' => exact absurd rfl hopen'.ne_placeholder
  | quoted hopen hquoted _ ih =>
    cases h' with
    | byte hopen' => exact absurd hopen hopen'
    | placeholder => exact absurd rfl hopen.ne_placeholder
    | quoted _ hquoted' tail' =>
      obtain ⟨rfl, rfl⟩ := hquoted.unique hopen hquoted'
      rw [ih tail']

/-- The pieces one after the other are the template. -/
theorem Scans.source_eq (h : Scans template pieces) : pieces.flatMap Piece.source = template := by
  induction h with
  | nil => rfl
  | byte _ _ _ ih | placeholder _ ih => exact congrArg (_ :: ·) ih
  | quoted _ hquoted _ ih =>
    rw [List.flatMap_cons, ih, Piece.source, List.cons_append, hquoted.append_eq]

/-! ## Filling -/

/-- The pieces up to some point take the first parameters, those behind it the others. -/
theorem filled_append (left right : List Piece) (params : List Param) :
    filled quote (left ++ right) params =
      filled quote left params ++ filled quote right (params.drop (holes left)) := by
  induction left generalizing params with
  | nil => rfl
  | cons piece left ih =>
    cases piece with
    | byte b => simp [filled, ih]
    | quoted s => simp [filled, ih]
    | placeholder =>
      cases params with
      | nil => simp [filled, ih]
      | cons p params => simp [filled, ih]

/-- What is kept in front of what is filled. -/
def before (s : Bytes) (result : Bytes × List Param) : Bytes × List Param :=
  (s ++ result.1, result.2)

theorem fill_kept (h : q = .outside → b ≠ 63) : fill quote q (b :: rest) params =
    (fill quote (q.step b) rest params).map (before [b]) := if_neg (not_and.mpr h)

theorem fill_placeholder (p : Param) : fill quote .outside (63 :: rest) (p :: params) =
    (fill quote .outside rest params).map (before (p.render quote)) := if_pos ⟨rfl, rfl⟩

theorem fill_inside : fill quote (.inside mark) (b :: rest) params =
    (fill quote ((Quoting.inside mark).step b) rest params).map (before [b]) := fill_kept nofun

/-- Quoted text is kept. -/
theorem fill_quoted (hopen : Opens mark) (h : Quoted mark text s rest) :
    fill quote (.inside mark) text params =
      (fill quote .outside rest params).map (before s) := by
  induction h with
  | closed =>
    have hstep : (Quoting.inside mark).step mark = .outside := by
      rcases hopen with rfl | rfl | rfl <;> rfl
    rw [fill_inside, hstep]
  | ended => rfl
  | byte hmark hplain _ ih =>
    have hstep : (Quoting.inside mark).step _ = .inside mark :=
      (if_neg fun h => hplain.elim (· h.1) h.2).trans (if_neg hmark)
    rw [fill_inside, hstep, ih, Option.map_map]
    rfl
  | escaped hmark _ ih =>
    have hstep : (Quoting.inside mark).step 92 = .escaped mark := if_pos ⟨rfl, hmark⟩
    rw [fill_inside, hstep, fill_kept (q := .escaped mark) nofun]
    simp only [Quoting.step, ih, Option.map_map]
    rfl
  | endedEscape hmark => rw [fill_inside]; rfl

/-- The placeholders take the first parameters, if there are enough. -/
theorem fill_of_scans (h : Scans template pieces) : fill quote .outside template params =
    if holes pieces ≤ params.length then
      some (filled quote pieces params, params.drop (holes pieces))
    else none := by
  induction h generalizing params with
  | nil => rfl
  | byte hopen hplaceholder _ ih =>
    have hstep : Quoting.outside.step _ = .outside := if_neg (mt isMark_iff.mp hopen)
    rw [fill_kept fun _ => hplaceholder, hstep, ih, holes_byte]
    split <;> rfl
  | placeholder _ ih =>
    cases params with
    | nil => rw [if_neg (by simp)]; rfl
    | cons p params =>
      rw [fill_placeholder, ih, holes_placeholder, List.length_cons]
      simp only [Nat.add_le_add_iff_right]
      split <;> rfl
  | quoted hopen hquoted _ ih =>
    have hstep : Quoting.outside.step _ = .inside _ := if_pos (isMark_iff.mpr hopen)
    rw [fill_kept fun _ => hopen.ne_placeholder, hstep, fill_quoted hopen hquoted, ih,
      holes_quoted]
    split <;> rfl

/-- What binding gives, by the number of placeholders and that of parameters. -/
theorem bind_of_scans (h : Scans template pieces) : bind quote template params =
    if holes pieces = params.length then .ok (filled quote pieces params)
    else if params.length < holes pieces then .error (.tooFewParams params.length)
    else .error (.tooManyParams (holes pieces) params.length) := by
  unfold bind
  rw [fill_of_scans h]
  rcases Nat.lt_trichotomy params.length (holes pieces) with hfew | heq | hmany
  · rw [if_neg (by omega), if_neg (by omega), if_pos hfew]
  · rw [if_pos (by omega), if_pos heq.symm, heq.symm, List.drop_length]
  · rw [if_pos (by omega), if_neg (by omega), if_neg (by omega)]
    have hdrop : params.length - (params.drop (holes pieces)).length = holes pieces := by
      rw [List.length_drop]
      omega
    cases hleft : params.drop (holes pieces) with
    | nil =>
      rw [hleft, List.length_nil] at hdrop
      omega
    | cons p left =>
      rw [hleft] at hdrop
      simp only [hdrop]

theorem BindFault.kind_fault (f : BindFault) : f.fault.kind = .fatal := by cases f <;> rfl

/-- Binding fills the placeholders among the pieces, and nothing else. -/
structure Fills (quote : Bytes → Bytes) (template : Bytes) (params : List Param)
    (pieces : List Piece) : Prop where
  ok_iff : (∃ sql, bind quote template params = .ok sql) ↔ holes pieces = params.length
  fatal : ∀ f, bind quote template params = .error f → f.fault.kind = .fatal
  text : ∀ sql, bind quote template params = .ok sql → sql = filled quote pieces params
  /-- The parameter in the place of a placeholder has the number of the placeholder. -/
  place : ∀ sql left right, bind quote template params = .ok sql →
    pieces = left ++ .placeholder :: right → ∃ p, params[holes left]? = some p ∧
      sql = filled quote left params ++ p.render quote ++
        filled quote right (params.drop (holes left + 1))

/-- A statement is bound only if the counts agree, and it is the filled text. -/
theorem bind_eq_ok_iff {sql : Bytes} (h : Scans template pieces) :
    bind quote template params = .ok sql ↔
      holes pieces = params.length ∧ sql = filled quote pieces params := by
  rw [bind_of_scans h]
  split
  · next hcount => simp [hcount, eq_comm]
  · next hcount => split <;> simp [hcount]

theorem Scans.fills (h : Scans template pieces) (quote : Bytes → Bytes) (params : List Param) :
    Fills quote template params pieces where
  ok_iff := by simp only [bind_eq_ok_iff h, exists_and_left, exists_eq, and_true]
  fatal f _ := f.kind_fault
  text _ hsql := ((bind_eq_ok_iff h).mp hsql).2
  place sql left right hsql hpieces := by
    obtain ⟨hcount, hfilled⟩ := (bind_eq_ok_iff h).mp hsql
    have hlt : holes left < params.length := by
      rw [← hcount, hpieces, holes_append, holes_placeholder]
      omega
    refine ⟨params[holes left], List.getElem?_eq_getElem hlt, ?_⟩
    rw [hfilled, hpieces, filled_append, List.drop_eq_getElem_cons hlt, filled, List.append_assoc]

/-- **Exactly the placeholders are filled.**  A template is scanned in one way.  Whatever the
parameters and the literals made of them, they are bound if the scan has as many placeholders, each
in the place of its own, and with a fatal fault if not. -/
theorem fills_placeholders (template : Bytes) : ∃ pieces, Scans template pieces ∧
    (∀ pieces', Scans template pieces' → pieces' = pieces) ∧
    pieces.flatMap Piece.source = template ∧
    ∀ quote params, Fills quote template params pieces := by
  obtain ⟨pieces, hscans⟩ := exists_scans template
  exact ⟨pieces, hscans, fun pieces' h => h.unique hscans, hscans.source_eq, hscans.fills⟩

/-- Quoted text that nothing closes is kept up to its end, a backslash there included; a quote in a
parameter opens nothing. -/
example : bind id (ascii "`\\` = ? AND b = ? AND c = '?\\'?\\") [.text (ascii "'?"), .null] =
    .ok (ascii "`\\` = '? AND b = NULL AND c = '?\\'?\\") := rfl

end Coordinator.Sql.Template

import Coordinator.Engine.Statement
import Coordinator.Proofs.Sql.Literal
import Coordinator.Proofs.Xa.Literal
import Mathlib.Data.List.DropRight

/-! # Protocol statements as the engine reads them

The statements that the MySQL dialect, and the strict one, writes for an xid are read by the engine
as the step they are meant to be, with exactly the bytes of the xid (`parse_start` to
`parse_rollback`): whatever bytes an xid has, its literal is read back whole (`read_quoteMysql`).
A text that does not start with the word `XA` (`Statement.IsPlain`) moves no branch; the statements
that the PostgreSQL dialect writes are such texts. -/
namespace Coordinator.Engine

open Xa

/-! ## The literal of an xid -/

/-- One byte of an xid, as written, is read as that byte. -/
theorem undone_mysqlByte : Sql.Literal.Undone Xid.mysqlByte := by
  intro b rest
  unfold Xid.mysqlByte
  split
  · rfl
  · rfl
  · rfl
  · next h39 h92 _ => exact Sql.Literal.readBody_plain h39 h92 rest

theorem quoteMysql_eq_ok {x q : Bytes} (h : Xid.quoteMysql x = .ok q) :
    q = 39 :: (x.flatMap Xid.mysqlByte ++ [39]) := by
  unfold Xid.quoteMysql at h
  split at h
  · cases h
  · split at h
    · cases h
    · cases h; rfl

/-- The literal of an xid is read back as its bytes, whatever follows it but a quote. -/
theorem read_quoteMysql {x q : Bytes} (h : Xid.quoteMysql x = .ok q) (rest : Bytes)
    (hr : rest.head? ≠ some 39) : Sql.Literal.read (q ++ rest) = .ok (x, rest) := by
  rw [quoteMysql_eq_ok h]
  exact Sql.Literal.read_of_undone undone_mysqlByte x hr

/-! ## Statements around a literal -/

namespace Statement

/-- A text without blanks around it and semicolons after it is read as it is. -/
theorem bare_of_ends {s : Bytes} (first : UInt8) (body : Bytes) (last : UInt8)
    (hs : s = first :: body ++ [last]) (hfirst : Byte.isBlank first = false)
    (hlast : (Byte.isBlank last || last == 59) = false) : bare s = s := by
  have htrim : s.trimLeft = s := by
    rw [hs, List.cons_append]
    exact List.dropWhile_cons_of_neg (by rw [hfirst]; exact Bool.false_ne_true)
  rw [bare, htrim, hs]
  exact List.rdropWhile_concat_neg _ _ _ (by rw [hlast]; exact Bool.false_ne_true)

/-- How a statement with a literal is read, part by part. -/
theorem parse_literal {sql text body rest tail x : Bytes} {first verb : Verb}
    (hbare : bare sql = sql) (hxa : keyword? "XA" sql = some text)
    (hrecover : keyword? "RECOVER" text = none)
    (hverb : verb? text = some (first, 32 :: 39 :: body))
    (hread : Sql.Literal.read (39 :: body) = .ok (x, rest))
    (hphase : phase sql first rest = .ok (verb, tail)) (htail : tail.trimLeft = []) :
    parse sql = .ok (.branch verb x) := by
  have htrim : Bytes.trimLeft (32 :: 39 :: body) = 39 :: body := rfl
  simp only [parse, hbare, hxa, hrecover, Option.isSome_none, Bool.false_eq_true, if_false,
    parseStep, hverb, htrim, hread, mapError_ok, bind, Except.bind, hphase, htail,
    List.isEmpty_nil, if_true]
  rfl

end Statement

/-! ## The statements of the MySQL dialect -/

section Mysql
variable {d : Dialect} {x q : Bytes}

theorem start_eq (hd : d ≠ .postgres) :
    d.start x = (Xid.quoteMysql x).map (ascii "XA START " ++ ·) := by
  cases d with
  | postgres => exact absurd rfl hd
  | mysql | strict => simp only [Dialect.start, Dialect.quote]; cases Xid.quoteMysql x <;> rfl

theorem finish_eq (hd : d ≠ .postgres) :
    d.finish x = (Xid.quoteMysql x).map (ascii "XA END " ++ ·) := by
  cases d with
  | postgres => exact absurd rfl hd
  | mysql | strict => simp only [Dialect.finish, Dialect.quote]; cases Xid.quoteMysql x <;> rfl

theorem prepare_eq (hd : d ≠ .postgres) :
    d.prepare x = (Xid.quoteMysql x).map (ascii "XA PREPARE " ++ ·) := by
  cases d with
  | postgres => exact absurd rfl hd
  | mysql | strict => simp only [Dialect.prepare, Dialect.quote]; cases Xid.quoteMysql x <;> rfl

theorem commit_eq (hd : d ≠ .postgres) :
    d.commit x = (Xid.quoteMysql x).map (ascii "XA COMMIT " ++ ·) := by
  cases d with
  | postgres => exact absurd rfl hd
  | mysql | strict => simp only [Dialect.commit, Dialect.quote]; cases Xid.quoteMysql x <;> rfl

theorem commitOnePhase_eq (hd : d ≠ .postgres) : d.commitOnePhase x =
    (Xid.quoteMysql x).map fun q => ascii "XA COMMIT " ++ q ++ ascii " ONE PHASE" := by
  cases d with
  | postgres => exact absurd rfl hd
  | mysql | strict =>
    simp only [Dialect.commitOnePhase, Dialect.quote]; cases Xid.quoteMysql x <;> rfl

/-- A branch that is still active is ended before it is rolled back. -/
theorem rollback_eq (hd : d ≠ .postgres) (state : State) : d.rollback x state =
    (Xid.quoteMysql x).map fun q => (if state = .started then [ascii "XA END " ++ q] else []) ++
      [ascii "XA ROLLBACK " ++ q] := by
  cases d with
  | postgres => exact absurd rfl hd
  | mysql | strict =>
    simp only [Dialect.rollback, Dialect.finish, Dialect.quote]
    cases Xid.quoteMysql x <;> by_cases hs : state = .started <;>
      simp only [hs, if_true, if_false] <;> rfl

/-- A statement that ends with the literal of an xid is read as its step. -/
theorem parse_front {front : Bytes} {verb : Verb} (text : Bytes) (hq : Xid.quoteMysql x = .ok q)
    (hfirst : ∃ first body, front = first :: body ∧ Byte.isBlank first = false)
    (hxa : ∀ s, keyword? "XA" (front ++ 39 :: s) = some (text ++ 39 :: s))
    (hrecover : ∀ s, keyword? "RECOVER" (text ++ 39 :: s) = none)
    (hverb : ∀ s, Statement.verb? (text ++ 39 :: s) = some (verb, 32 :: 39 :: s))
    (hphase : Statement.phase (front ++ q) verb [] = .ok (verb, [])) :
    Statement.parse (front ++ q) = .ok (.branch verb x) := by
  obtain ⟨first, body, rfl, hblank⟩ := hfirst
  have hread : Sql.Literal.read q = .ok (x, []) := by
    have := read_quoteMysql hq [] (by simp)
    rwa [List.append_nil] at this
  obtain rfl := quoteMysql_eq_ok hq
  refine Statement.parse_literal ?_ (hxa _) (hrecover _) (hverb _) hread hphase rfl
  exact Statement.bare_of_ends first (body ++ 39 :: x.flatMap Xid.mysqlByte) 39 (by simp) hblank
    rfl

theorem parse_start (hq : Xid.quoteMysql x = .ok q) :
    Statement.parse (ascii "XA START " ++ q) = .ok (.branch .start x) :=
  parse_front (ascii " START ") hq ⟨88, _, rfl, rfl⟩ (fun _ => rfl) (fun _ => rfl)
    (fun _ => rfl) rfl

theorem parse_finish (hq : Xid.quoteMysql x = .ok q) :
    Statement.parse (ascii "XA END " ++ q) = .ok (.branch .finish x) :=
  parse_front (ascii " END ") hq ⟨88, _, rfl, rfl⟩ (fun _ => rfl) (fun _ => rfl)
    (fun _ => rfl) rfl

theorem parse_prepare (hq : Xid.quoteMysql x = .ok q) :
    Statement.parse (ascii "XA PREPARE " ++ q) = .ok (.branch .prepare x) :=
  parse_front (ascii " PREPARE ") hq ⟨88, _, rfl, rfl⟩ (fun _ => rfl) (fun _ => rfl)
    (fun _ => rfl) rfl

theorem parse_commit (hq : Xid.quoteMysql x = .ok q) :
    Statement.parse (ascii "XA COMMIT " ++ q) = .ok (.branch (.commit false) x) :=
  parse_front (ascii " COMMIT ") hq ⟨88, _, rfl, rfl⟩ (fun _ => rfl) (fun _ => rfl)
    (fun _ => rfl) rfl

theorem parse_rollback (hq : Xid.quoteMysql x = .ok q) :
    Statement.parse (ascii "XA ROLLBACK " ++ q) = .ok (.branch .rollback x) :=
  parse_front (ascii " ROLLBACK ") hq ⟨88, _, rfl, rfl⟩ (fun _ => rfl) (fun _ => rfl)
    (fun _ => rfl) rfl

/-- The words after the xid make a commit one in a single phase. -/
theorem parse_commitOnePhase (hq : Xid.quoteMysql x = .ok q) :
    Statement.parse (ascii "XA COMMIT " ++ q ++ ascii " ONE PHASE") =
      .ok (.branch (.commit true) x) := by
  have hread := read_quoteMysql hq (ascii " ONE PHASE") (by decide)
  obtain rfl := quoteMysql_eq_ok hq
  refine Statement.parse_literal ?_ (show _ = some (ascii " COMMIT " ++ 39 :: _) from rfl) rfl rfl
    hread rfl rfl
  exact Statement.bare_of_ends 88
    (ascii "A COMMIT " ++ 39 :: x.flatMap Xid.mysqlByte ++ [39] ++ ascii " ONE PHAS") 69
    (by simp [ascii]) rfl rfl

end Mysql

/-! ## What a text was read as -/

namespace Statement

/-- How a text after `XA` reads, part by part. -/
theorem parseStep_ok {sql text : Bytes} {s : Statement} (h : parseStep sql text = .ok s) :
    ∃ first literal x rest verb rest', verb? text = some (first, literal) ∧
      Sql.Literal.read literal.trimLeft = .ok (x, rest) ∧
      phase sql first rest = .ok (verb, rest') ∧ rest'.trimLeft = [] ∧ s = .branch verb x := by
  unfold parseStep at h
  split at h
  · cases h
  next first literal hfirst =>
  cases hread : Sql.Literal.read literal.trimLeft with
  | error cause => rw [hread] at h; cases h
  | ok found =>
    obtain ⟨x, rest⟩ := found
    rw [hread] at h
    simp only [mapError_ok, bind, Except.bind] at h
    cases hphase : phase sql first rest with
    | error cause => rw [hphase] at h; cases h
    | ok result =>
      obtain ⟨verb, rest'⟩ := result
      rw [hphase] at h
      simp only at h
      split at h
      · next hempty =>
        cases h
        exact ⟨first, literal, x, rest, verb, rest', hfirst, hread, hphase,
          List.isEmpty_iff.mp hempty, rfl⟩
      · cases h

/-- What a text reads as, by the words it starts with. -/
theorem parse_ok {sql : Bytes} {s : Statement} (h : parse sql = .ok s) :
    (∃ text, keyword? "XA" (bare sql) = some text ∧
        ((keyword? "RECOVER" text).isSome = true ∧ s = .recover ∨ parseStep sql text = .ok s)) ∨
      keyword? "XA" (bare sql) = none ∧
        ((keyword? "COMMIT" (bare sql)).isSome = true ∧ s = .commit ∨
          (keyword? "COMMIT" (bare sql)).isSome = false ∧ (s = .version ∨ s = .other)) := by
  simp only [parse] at h
  split at h
  · next text htext =>
    refine Or.inl ⟨text, htext, ?_⟩
    split at h
    · next hrecover => exact Or.inl ⟨hrecover, (Except.ok.inj h).symm⟩
    · exact Or.inr h
  · next hplain =>
    refine Or.inr ⟨hplain, ?_⟩
    split at h
    · next hcommit => exact Or.inl ⟨hcommit, (Except.ok.inj h).symm⟩
    · next hcommit =>
      refine Or.inr ⟨Bool.not_eq_true _ ▸ hcommit, ?_⟩
      split at h
      · split at h
        · exact Or.inl (Except.ok.inj h).symm
        · exact Or.inr (Except.ok.inj h).symm
      · exact Or.inr (Except.ok.inj h).symm

/-- How a text reads as a step, part by part. -/
theorem parse_branch {sql x : Bytes} {verb : Verb}
    (h : parse sql = .ok (.branch verb x)) :
    ∃ text first literal rest rest', keyword? "XA" (bare sql) = some text ∧
      verb? text = some (first, literal) ∧ Sql.Literal.read literal.trimLeft = .ok (x, rest) ∧
      phase sql first rest = .ok (verb, rest') ∧ rest'.trimLeft = [] := by
  rcases parse_ok h with ⟨text, htext, ⟨-, hs⟩ | hstep⟩ | ⟨-, ⟨-, hs⟩ | ⟨-, hs | hs⟩⟩
  · cases hs
  · obtain ⟨first, literal, x', rest, verb', rest', hfirst, hread, hphase, hempty, hs⟩ :=
      parseStep_ok hstep
    cases hs
    exact ⟨text, first, literal, rest, rest', htext, hfirst, hread, hphase, hempty⟩
  · cases hs
  · cases hs
  · cases hs

end Statement

/-! ## Statements that move no branch -/

/-- The engine does not read the statement as a step of the protocol. -/
def Statement.IsPassive (sql : Bytes) : Prop := ∀ verb xid, parse sql ≠ .ok (.branch verb xid)

/-- The statement does not start with the word `XA`. -/
def Statement.IsPlain (sql : Bytes) : Prop := keyword? "XA" (bare sql) = none

namespace Statement

theorem IsPlain.isPassive {sql : Bytes} (h : IsPlain sql) : IsPassive sql := by
  intro verb xid hp
  obtain ⟨text, -, -, -, -, htext, -⟩ := parse_branch hp
  exact absurd (h.symm.trans htext) nofun

theorem isPassive_recover : IsPassive (ascii "XA RECOVER") := by
  intro verb xid hp
  have : parse (ascii "XA RECOVER") = .ok .recover := rfl
  rw [this] at hp
  cases hp

theorem rdropWhile_cons_of_neg {α : Type} {p : α → Bool} {a : α} (l : List α) (h : p a = false) :
    (a :: l).rdropWhile p = a :: l.rdropWhile p := by
  induction l using List.reverseRecOn with
  | nil => simp [List.rdropWhile_singleton, h]
  | append_singleton l b ih =>
    rw [← List.cons_append]
    by_cases hb : p b = true
    · rw [List.rdropWhile_concat_pos _ _ _ hb, List.rdropWhile_concat_pos _ _ _ hb, ih]
    · rw [List.rdropWhile_concat_neg _ _ _ hb, List.rdropWhile_concat_neg _ _ _ hb]
      rfl

/-- A text whose first byte is no blank, no semicolon and no `X` is plain. -/
theorem isPlain_cons {b : UInt8} (s : Bytes) (hblank : Byte.isBlank b = false)
    (hsemi : b ≠ 59) (hx : Byte.toUpper b ≠ 88) : IsPlain (b :: s) := by
  have htrim (t : Bytes) : Bytes.trimLeft (b :: t) = b :: t :=
    List.dropWhile_cons_of_neg (by rw [hblank]; exact Bool.false_ne_true)
  have hbare : ∃ t, bare (b :: s) = b :: t := by
    rw [bare, htrim]
    have hkeep : (Byte.isBlank b || b == 59) = false := by
      rw [hblank, Bool.false_or]
      exact beq_eq_false_iff_ne.mpr hsemi
    exact ⟨_, rdropWhile_cons_of_neg s hkeep⟩
  obtain ⟨t, ht⟩ := hbare
  rw [IsPlain, ht, keyword?, htrim]
  refine if_neg fun h => hx ?_
  exact (List.cons.inj h.1).1

end Statement

/-! ## The statements of the PostgreSQL dialect -/

section Postgres
variable {x sql : Bytes}

theorem isPlain_start (h : Dialect.start .postgres x = .ok sql) : Statement.IsPlain sql := by
  rw [Dialect.start_postgres] at h
  obtain ⟨q, -, rfl⟩ := ok_of_map h
  exact Statement.isPlain_cons _ rfl (by decide) (by decide)

theorem isPlain_prepare (h : Dialect.prepare .postgres x = .ok sql) : Statement.IsPlain sql := by
  rw [Dialect.prepare_postgres] at h
  obtain ⟨q, -, rfl⟩ := ok_of_map h
  exact Statement.isPlain_cons _ rfl (by decide) (by decide)

theorem isPlain_commit (h : Dialect.commit .postgres x = .ok sql) : Statement.IsPlain sql := by
  rw [Dialect.commit_postgres] at h
  obtain ⟨q, -, rfl⟩ := ok_of_map h
  exact Statement.isPlain_cons _ rfl (by decide) (by decide)

theorem isPlain_commitOnePhase (h : Dialect.commitOnePhase .postgres x = .ok sql) :
    Statement.IsPlain sql := by
  cases h
  exact Statement.isPlain_cons _ rfl (by decide) (by decide)

/-- There is one statement, which one depends on how far the branch is. -/
theorem isPlain_rollback {state : State} {statements : List Bytes}
    (h : Dialect.rollback .postgres x state = .ok statements) :
    ∃ sql, statements = [sql] ∧ Statement.IsPlain sql := by
  by_cases hs : state = .prepared
  · rw [hs, Dialect.rollback_postgres] at h
    obtain ⟨q, -, rfl⟩ := ok_of_map h
    exact ⟨_, rfl, Statement.isPlain_cons _ rfl (by decide) (by decide)⟩
  · simp only [Dialect.rollback, if_neg hs] at h
    cases h
    exact ⟨_, rfl, Statement.isPlain_cons _ rfl (by decide) (by decide)⟩

end Postgres

/-- The query for prepared branches moves none, whatever the dialect. -/
theorem isPassive_recover (d : Dialect) : Statement.IsPassive d.recover := by
  cases d with
  | mysql | strict => exact Statement.isPassive_recover
  | postgres => exact (Statement.isPlain_cons _ rfl (by decide) (by decide)).isPassive

end Coordinator.Engine

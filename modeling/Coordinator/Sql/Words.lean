import Coordinator.Bytes

/-! # Top-level words of a statement

`Scanner.next?` finds the next word of a statement that stands outside quoted text, comments and
parentheses.  A word is a maximal run of letters, digits, underscores and dollar signs.  Quoted
text is closed by its own mark, and a doubled mark stays inside; a line comment ends before its
newline; what is never closed reaches to the end; a closing parenthesis without an opening one
changes nothing. -/
namespace Coordinator.Sql

/-- Whether a byte can be part of a word. -/
def isWordByte (b : UInt8) : Bool := Byte.isAlphanumeric b || b == 95 || b == 36

/-- What follows quoted text, from the byte after its opening mark. -/
def afterQuoted (mark : UInt8) : Bytes → Bytes
  | [] => []
  | [_] => []
  | b :: c :: rest =>
    if b = mark then
      if c = mark then afterQuoted mark rest else c :: rest
    else afterQuoted mark (c :: rest)

/-- What follows a block comment, from the byte after its opening. -/
def afterBlock : Bytes → Bytes
  | 42 :: 47 :: rest => rest
  | _ :: rest => afterBlock rest
  | [] => []

theorem length_afterQuoted_le (mark : UInt8) (s : Bytes) :
    (afterQuoted mark s).length ≤ s.length := by
  fun_induction afterQuoted mark s <;> simp_all <;> omega

theorem length_afterBlock_le (s : Bytes) : (afterBlock s).length ≤ s.length := by
  fun_induction afterBlock s <;> simp_all <;> omega

/-- What a scanner meets next. -/
inductive Lexeme
  /-- Quoted text, a comment, or a byte that means nothing to the scanner. -/
  | skipped
  | opening
  | closing
  | word (text : Bytes)
deriving DecidableEq, Repr

/-- The lexeme that starts with byte `b`, given the bytes after `b`, and what follows it. -/
def readLexeme (b : UInt8) (rest : Bytes) : Lexeme × Bytes :=
  if b = 39 ∨ b = 34 ∨ b = 96 then (.skipped, afterQuoted b rest)
  else if b = 45 ∧ rest.head? = some 45 then (.skipped, rest.dropWhile (· ≠ 10))
  else if b = 47 ∧ rest.head? = some 42 then (.skipped, afterBlock rest.tail)
  else if b = 40 then (.opening, rest)
  else if b = 41 then (.closing, rest)
  else if isWordByte b then (.word (b :: rest.takeWhile isWordByte), rest.dropWhile isWordByte)
  else (.skipped, rest)

theorem length_readLexeme_le (b : UInt8) (rest : Bytes) :
    (readLexeme b rest).2.length ≤ rest.length := by
  have shorter (p : UInt8 → Bool) (l : Bytes) : (l.dropWhile p).length ≤ l.length :=
    (List.dropWhile_sublist p).length_le
  have block := length_afterBlock_le rest.tail
  rw [List.length_tail] at block
  unfold readLexeme
  repeat' split
  all_goals first
    | exact length_afterQuoted_le b rest
    | exact shorter _ rest
    | simp only []; omega

/-- A word and its place in the statement. -/
structure Word where
  offset : Nat
  text : Bytes
deriving DecidableEq, Repr

/-- `w.is keyword` compares without regard to case; the keyword is given in upper case. -/
def Word.is (w : Word) (keyword : String) : Bool := w.text.toUpper == ascii keyword

/-- A scanner between two words: how far it is, what is left, and how many parentheses are open. -/
structure Scanner where
  position : Nat
  rest : Bytes
  depth : Nat
deriving DecidableEq, Repr

namespace Scanner

/-- A scanner before a statement. -/
def ofStatement (sql : Bytes) : Scanner := ⟨0, sql, 0⟩

/-- The next top-level word and the scanner after it. -/
def next? : Scanner → Option (Word × Scanner)
  | ⟨_, [], _⟩ => none
  | ⟨position, b :: rest, depth⟩ =>
    let after := (readLexeme b rest).2
    let next := position + (rest.length + 1 - after.length)
    match (readLexeme b rest).1 with
    | .skipped => next? ⟨next, after, depth⟩
    | .opening => next? ⟨next, after, depth + 1⟩
    | .closing => next? ⟨next, after, depth - 1⟩
    | .word text =>
      if depth = 0 then some (⟨position, text⟩, ⟨next, after, depth⟩)
      else next? ⟨next, after, depth⟩
termination_by s => s.rest.length
decreasing_by all_goals exact Nat.lt_succ_of_le (length_readLexeme_le b rest)

/-- The bytes left after a word are fewer than before it. -/
theorem rest_length_lt_of_next? {s t : Scanner} {w : Word} (h : s.next? = some (w, t)) :
    t.rest.length < s.rest.length := by
  fun_induction next? s
  case case1 => simp at h
  case case5 b rest _ _ _ _ =>
    simp only [Option.some.injEq, Prod.mk.injEq] at h
    obtain ⟨-, rfl⟩ := h
    exact Nat.lt_succ_of_le (length_readLexeme_le b rest)
  all_goals
    rename_i ih
    exact Nat.lt_trans (ih h) (Nat.lt_succ_of_le (length_readLexeme_le _ _))

/-- All top-level words from here on. -/
def words (s : Scanner) : List Word :=
  match _h : s.next? with
  | none => []
  | some (w, t) => w :: words t
termination_by s.rest.length
decreasing_by exact rest_length_lt_of_next? _h

end Scanner

/-- The top-level words of a statement, in order. -/
def wordsOf (sql : Bytes) : List Word := (Scanner.ofStatement sql).words

end Coordinator.Sql

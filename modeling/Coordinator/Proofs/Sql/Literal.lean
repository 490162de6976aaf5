import Coordinator.Sql.Literal

/-! # Literals that are read back

A text becomes a literal byte by byte, between single quotes.  When the reader undoes the writing of
every single byte (`Undone`), it reads the whole literal as the text it was written for, whatever
follows the literal but another quote (`read_of_undone`).

The literals of standard SQL have a reader of their own, in which only a doubled quote is special.
A text has just one such literal: the text between quotes, with every quote doubled
(`Standard.read?_eq_some_iff`). -/
namespace Coordinator.Sql.Literal

/-- The reader takes a byte, as written, for that byte. -/
def Undone (write : UInt8 → Bytes) : Prop :=
  ∀ b rest, readBody (write b ++ rest) = (readBody rest).map fun (s, tail) => (b :: s, tail)

/-- A byte that is neither a quote nor a backslash stands for itself. -/
theorem readBody_plain {b : UInt8} (hquote : b ≠ 39) (hbackslash : b ≠ 92) (rest : Bytes) :
    readBody (b :: rest) = (readBody rest).map fun (s, tail) => (b :: s, tail) := by
  rw [readBody]
  · exact fun h => absurd h hbackslash
  · exact fun _ _ h => absurd h hbackslash
  · exact fun _ h => absurd h hquote
  · exact hquote

/-- A quote ends the literal, unless another one follows. -/
theorem readBody_quote {rest : Bytes} (h : rest.head? ≠ some 39) :
    readBody (39 :: rest) = some ([], rest) := by
  cases rest with
  | nil => rfl
  | cons b rest =>
    have hb : b ≠ 39 := fun hb => h (hb ▸ rfl)
    rw [readBody]
    exact fun _ hr => hb (List.cons.inj hr).1

section
variable {write : UInt8 → Bytes}

theorem readBody_of_undone (h : Undone write) (s : Bytes) {rest : Bytes}
    (hrest : rest.head? ≠ some 39) :
    readBody (s.flatMap write ++ 39 :: rest) = some (s, rest) := by
  induction s with
  | nil => exact readBody_quote hrest
  | cons b s ih =>
    rw [List.flatMap_cons, List.append_assoc, h, ih]
    rfl

/-- A literal is read as its text, up to its own closing quote. -/
theorem read_of_undone (h : Undone write) (s : Bytes) {rest : Bytes}
    (hrest : rest.head? ≠ some 39) :
    read (39 :: s.flatMap write ++ [39] ++ rest) = .ok (s, rest) := by
  have hbody := readBody_of_undone h s hrest
  rw [List.cons_append, List.cons_append, List.append_assoc, List.singleton_append, read, hbody]

end

/-! ## Doubled bytes -/

/-- A byte as `quote` writes it. -/
def twice (b : UInt8) : Bytes := if b = 39 ∨ b = 92 then [b, b] else [b]

theorem quote_eq (s : Bytes) : quote s = 39 :: s.flatMap twice ++ [39] := rfl

theorem undone_twice : Undone twice := by
  intro b rest
  unfold twice
  split
  · next h => rcases h with rfl | rfl <;> rfl
  · next h => exact readBody_plain (fun hb => h (Or.inl hb)) (fun hb => h (Or.inr hb)) rest

/-! ## Standard literals -/

namespace Standard

/-- The text up to the closing quote and what follows that quote, after the opening one. -/
def readBody : Bytes → Option (Bytes × Bytes)
  | [] => none
  | 39 :: 39 :: rest => (readBody rest).map fun (s, tail) => (39 :: s, tail)
  | 39 :: rest => some ([], rest)
  | b :: rest => (readBody rest).map fun (s, tail) => (b :: s, tail)

/-- The text that a standard literal at the start of a text denotes, and what follows the literal;
nothing if there is no literal. -/
def read? : Bytes → Option (Bytes × Bytes)
  | 39 :: rest => readBody rest
  | _ => none

/-- A byte inside a standard literal: only the quote is doubled. -/
def double (b : UInt8) : Bytes := if b = 39 then [39, 39] else [b]

variable {s t rest : Bytes}

theorem readBody_quote (h : rest.head? ≠ some 39) : readBody (39 :: rest) = some ([], rest) := by
  cases rest with
  | nil => rfl
  | cons b rest =>
    have hb : b ≠ 39 := fun hb => h (hb ▸ rfl)
    rw [readBody]
    exact fun _ hr => hb (List.cons.inj hr).1

theorem readBody_double (b : UInt8) (rest : Bytes) :
    readBody (double b ++ rest) = (readBody rest).map fun (s, tail) => (b :: s, tail) := by
  unfold double
  split
  · next h =>
    subst h
    rfl
  · next h =>
    rw [List.singleton_append, readBody]
    · exact fun _ hb => absurd hb h
    · exact h

theorem readBody_of_double (s : Bytes) (h : rest.head? ≠ some 39) :
    readBody (s.flatMap double ++ 39 :: rest) = some (s, rest) := by
  induction s with
  | nil => exact readBody_quote h
  | cons b s ih =>
    rw [List.flatMap_cons, List.append_assoc, readBody_double, ih]
    rfl

/-- What is read was written with every quote doubled. -/
theorem eq_of_readBody (h : readBody t = some (s, rest)) :
    t = s.flatMap double ++ 39 :: rest ∧ rest.head? ≠ some 39 := by
  fun_induction readBody t generalizing s with
  | case1 => cases h
  | case2 t ih =>
    obtain ⟨⟨s', tail⟩, hs', heq⟩ := Option.map_eq_some_iff.mp h
    cases heq
    obtain ⟨rfl, hrest⟩ := ih hs'
    exact ⟨rfl, hrest⟩
  | case3 t hquote =>
    cases h
    refine ⟨rfl, fun hhead => ?_⟩
    obtain ⟨tail, rfl⟩ := List.head?_eq_some_iff.mp hhead
    exact hquote tail rfl
  | case4 b t _ hb ih =>
    obtain ⟨⟨s', tail⟩, hs', heq⟩ := Option.map_eq_some_iff.mp h
    cases heq
    obtain ⟨rfl, hrest⟩ := ih hs'
    refine ⟨?_, hrest⟩
    rw [List.flatMap_cons, double, if_neg hb]
    rfl

/-- A standard literal is the text it denotes between quotes, with every quote doubled, and no quote
follows it. -/
theorem read?_eq_some_iff : read? t = some (s, rest) ↔
    t = 39 :: s.flatMap double ++ 39 :: rest ∧ rest.head? ≠ some 39 := by
  constructor
  · intro h
    unfold read? at h
    split at h
    · next body =>
      obtain ⟨rfl, hrest⟩ := eq_of_readBody h
      exact ⟨rfl, hrest⟩
    · cases h
  · rintro ⟨rfl, hrest⟩
    exact readBody_of_double s hrest

end Standard

end Coordinator.Sql.Literal

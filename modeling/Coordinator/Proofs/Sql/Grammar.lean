import Coordinator.Proofs.Sql.Literal

/-! # The grammar of literals

What the reader of literals accepts is written down as a grammar, without the reader: a single
quote, then items (`Item`), then a single quote that no other one follows (`StartsWith`).  An item is a
plain byte, a doubled quote, or a backslash with the byte it escapes, and stands for one byte.

The items of a text are found in one way only (`StartsWith.unique`): a quote is the end of the literal
or half of an item, which the byte after it decides, and a backslash always takes the next byte
along.  **The reader accepts exactly the texts of the grammar** (`decodes`).  It reads the bytes
that the items stand for, and leaves what follows the closing quote. -/
namespace Coordinator.Sql.Literal

/-! ## Items -/

/-- What stands for one byte between the quotes of a literal. -/
inductive Item
  | plain (b : UInt8) (not_quote : b ≠ 39) (not_backslash : b ≠ 92)
  /-- Two quotes. -/
  | doubled
  /-- A backslash and the byte after it. -/
  | escaped (b : UInt8)

namespace Item

/-- The item in the literal. -/
def source : Item → Bytes
  | plain b _ _ => [b]
  | doubled => [39, 39]
  | escaped b => [92, b]

/-- The letters of NUL, newline, carriage return, tab, backspace and substitute. -/
def letters : List (UInt8 × UInt8) := (ascii "0nrtbZ").zip [0, 10, 13, 9, 8, 26]

/-- The byte that the item stands for.  An escaped byte that is no letter is that byte. -/
def meaning : Item → UInt8
  | plain b _ _ => b
  | doubled => 39
  | escaped b => (letters.lookup b).getD b

theorem meaning_escaped (b : UInt8) : (escaped b).meaning = unescape b := by
  show (letters.lookup b).getD b = unescape b
  unfold unescape
  split
  · rfl
  · rfl
  · rfl
  · rfl
  · rfl
  · rfl
  · next h0 hn hr ht hb hZ =>
    have hnone : letters.lookup b = none := by
      refine List.lookup_eq_none_iff.mpr fun p hp => bne_iff_ne.mpr fun h => ?_
      have hletter : b ∈ ascii "0nrtbZ" := h ▸ (List.of_mem_zip hp).1
      have hascii : ascii "0nrtbZ" = [48, 110, 114, 116, 98, 90] := by decide
      simp only [hascii, List.mem_cons, List.not_mem_nil, or_false] at hletter
      rcases hletter with h | h | h | h | h | h
      · exact h0 h
      · exact hn h
      · exact hr h
      · exact ht h
      · exact hb h
      · exact hZ h
    rw [hnone]
    rfl

/-- An item is told from another by its own bytes. -/
theorem source_append_inj {i i' : Item} {t t' : Bytes} (h : i.source ++ t = i'.source ++ t') :
    i = i' ∧ t = t' := by
  cases i with
  | plain b hquote hbackslash =>
    cases i' with
    | plain b' =>
      obtain ⟨rfl, htail⟩ := List.cons.inj h
      exact ⟨rfl, htail⟩
    | doubled => exact absurd (List.cons.inj h).1 hquote
    | escaped b' => exact absurd (List.cons.inj h).1 hbackslash
  | doubled =>
    cases i' with
    | plain b' hquote => exact absurd (List.cons.inj h).1.symm hquote
    | doubled => exact ⟨rfl, (List.cons.inj (List.cons.inj h).2).2⟩
    | escaped b' => exact absurd (List.cons.inj h).1 (by decide)
  | escaped b =>
    cases i' with
    | plain b' _ hbackslash => exact absurd (List.cons.inj h).1.symm hbackslash
    | doubled => exact absurd (List.cons.inj h).1 (by decide)
    | escaped b' =>
      obtain ⟨rfl, htail⟩ := List.cons.inj (List.cons.inj h).2
      exact ⟨rfl, htail⟩

/-- An item is told from a closing quote by the byte after it. -/
theorem source_append_ne (i : Item) {rest : Bytes} (hrest : rest.head? ≠ some 39) (t : Bytes) :
    i.source ++ t ≠ 39 :: rest := by
  intro h
  cases i with
  | plain b hquote => exact hquote (List.cons.inj h).1
  | doubled => exact hrest (congrArg List.head? (List.cons.inj h).2).symm
  | escaped b => exact absurd (List.cons.inj h).1 (by decide)

end Item

/-- The literal of items. -/
def spelling (items : List Item) : Bytes := 39 :: items.flatMap Item.source ++ [39]

/-- The text `t` starts with the literal of the items, and goes on with `rest`. -/
structure StartsWith (t : Bytes) (items : List Item) (rest : Bytes) : Prop where
  split : t = spelling items ++ rest
  closed : rest.head? ≠ some 39

/-! ## Texts of the grammar -/

section
variable {t s rest rest' : Bytes} {items items' : List Item}

theorem spelling_append (items : List Item) (rest : Bytes) :
    spelling items ++ rest = 39 :: (items.flatMap Item.source ++ 39 :: rest) := by
  rw [spelling, List.cons_append, List.cons_append, List.append_assoc, List.singleton_append]

theorem items_unique (hrest : rest.head? ≠ some 39) (hrest' : rest'.head? ≠ some 39)
    (h : items.flatMap Item.source ++ 39 :: rest = items'.flatMap Item.source ++ 39 :: rest') :
    items = items' ∧ rest = rest' := by
  induction items generalizing items' with
  | nil =>
    cases items' with
    | nil => exact ⟨rfl, (List.cons.inj h).2⟩
    | cons i' items' =>
      rw [List.flatMap_cons, List.append_assoc] at h
      exact absurd h.symm (i'.source_append_ne hrest _)
  | cons i items ih =>
    rw [List.flatMap_cons, List.append_assoc] at h
    cases items' with
    | nil => exact absurd h (i.source_append_ne hrest' _)
    | cons i' items' =>
      rw [List.flatMap_cons, List.append_assoc] at h
      obtain ⟨rfl, htail⟩ := Item.source_append_inj h
      obtain ⟨rfl, hrests⟩ := ih htail
      exact ⟨rfl, hrests⟩

/-- A text starts with one literal at most. -/
theorem StartsWith.unique (h : StartsWith t items rest) (h' : StartsWith t items' rest') :
    items = items' ∧ rest = rest' := by
  have hsplit := h.split.symm.trans h'.split
  rw [spelling_append, spelling_append] at hsplit
  exact items_unique h.closed h'.closed (List.cons.inj hsplit).2

/-! ## The reader -/

theorem readBody_items (items : List Item) (hrest : rest.head? ≠ some 39) :
    readBody (items.flatMap Item.source ++ 39 :: rest) =
      some (items.map Item.meaning, rest) := by
  induction items with
  | nil => exact readBody_quote hrest
  | cons i items ih =>
    rw [List.flatMap_cons, List.append_assoc, List.map_cons]
    cases i with
    | plain b hquote hbackslash =>
      rw [Item.source, List.singleton_append, readBody_plain hquote hbackslash, ih]
      rfl
    | doubled =>
      rw [Item.source, List.cons_append, List.singleton_append, readBody, ih]
      rfl
    | escaped b =>
      rw [Item.source, List.cons_append, List.singleton_append, readBody, ih,
        Item.meaning_escaped]
      rfl

/-- What is read is spelled by items. -/
theorem exists_items_of_readBody (h : readBody t = some (s, rest)) :
    ∃ items : List Item, t = items.flatMap Item.source ++ 39 :: rest ∧ rest.head? ≠ some 39 ∧
      s = items.map Item.meaning := by
  fun_induction readBody t generalizing s with
  | case1 => cases h
  | case2 => cases h
  | case3 b t ih =>
    obtain ⟨⟨s', tail⟩, hs', heq⟩ := Option.map_eq_some_iff.mp h
    cases heq
    obtain ⟨items, rfl, hrest, rfl⟩ := ih hs'
    exact ⟨.escaped b :: items, rfl, hrest, by rw [List.map_cons, Item.meaning_escaped]⟩
  | case4 t ih =>
    obtain ⟨⟨s', tail⟩, hs', heq⟩ := Option.map_eq_some_iff.mp h
    cases heq
    obtain ⟨items, rfl, hrest, rfl⟩ := ih hs'
    exact ⟨.doubled :: items, rfl, hrest, rfl⟩
  | case5 t hquote =>
    cases h
    refine ⟨[], rfl, fun hhead => ?_, rfl⟩
    obtain ⟨tail, rfl⟩ := List.head?_eq_some_iff.mp hhead
    exact hquote tail rfl
  | case6 b t hend hescape _ hquote ih =>
    have hbackslash : b ≠ 92 := by
      intro hb
      cases t with
      | nil => exact hend hb rfl
      | cons c t => exact hescape c t hb rfl
    obtain ⟨⟨s', tail⟩, hs', heq⟩ := Option.map_eq_some_iff.mp h
    cases heq
    obtain ⟨items, rfl, hrest, rfl⟩ := ih hs'
    exact ⟨.plain b hquote hbackslash :: items, rfl, hrest, rfl⟩

theorem read_eq_ok_iff : read t = .ok (s, rest) ↔
    ∃ items, StartsWith t items rest ∧ s = items.map Item.meaning := by
  constructor
  · intro h
    unfold read at h
    split at h
    · next body =>
      cases hbody : readBody body with
      | none => rw [hbody] at h; cases h
      | some found =>
        rw [hbody] at h
        cases h
        obtain ⟨items, rfl, hrest, hs⟩ := exists_items_of_readBody hbody
        exact ⟨items, ⟨(spelling_append items rest).symm, hrest⟩, hs⟩
    · cases h
  · rintro ⟨items, ⟨rfl, hrest⟩, rfl⟩
    rw [spelling_append, read, readBody_items items hrest]

theorem ReadFault.kind_fault (f : ReadFault) : f.fault.kind = .protocol := by cases f <;> rfl

end

/-- How a text is read, by the grammar of literals. -/
structure Decodes (t : Bytes) : Prop where
  read_iff : ∀ s rest, read t = .ok (s, rest) ↔
    ∃ items, StartsWith t items rest ∧ s = items.map Item.meaning
  /-- There is one way at most in which the text starts with a literal. -/
  unique : ∀ items rest items' rest', StartsWith t items rest → StartsWith t items' rest' →
    items = items' ∧ rest = rest'
  /-- What the reader takes of the text is the literal. -/
  consumed : ∀ s rest items, read t = .ok (s, rest) → StartsWith t items rest →
    t.length - rest.length = (spelling items).length
  refused : (¬ ∃ items rest, StartsWith t items rest) ↔
    ∃ f, read t = .error f ∧ f.fault.kind = .protocol

/-- **The reader accepts exactly the texts of the grammar.** -/
theorem decodes (t : Bytes) : Decodes t where
  read_iff _ _ := read_eq_ok_iff
  unique _ _ _ _ := StartsWith.unique
  consumed s rest items _ h := by
    rw [h.split, List.length_append, Nat.add_sub_cancel]
  refused := by
    cases hread : read t with
    | ok found =>
      obtain ⟨s, rest⟩ := found
      obtain ⟨items, hitems, -⟩ := read_eq_ok_iff.mp hread
      exact iff_of_false (fun hnone => hnone ⟨items, rest, hitems⟩) nofun
    | error f =>
      refine iff_of_true (fun ⟨items, rest, hitems⟩ => ?_) ⟨f, rfl, f.kind_fault⟩
      cases hread.symm.trans (read_eq_ok_iff.mpr ⟨items, hitems, rfl⟩)

/-- Of three quotes in a row, the first two are an item. -/
example : read (ascii "'a\\'b\\n''' c'") = .ok (ascii "a'b\n'", ascii " c'") := rfl

end Coordinator.Sql.Literal

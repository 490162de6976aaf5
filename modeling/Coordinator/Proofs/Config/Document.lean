import Coordinator.Config.Document
import Coordinator.Proofs.Config.Numeral
import Mathlib.Data.List.Forall2

/-! # What becomes of a YAML tree

A tree that holds a node which does not exist has no typed form (`Dangling`); every other tree has
one (`Types`), with the same items in order, and with a field for each text that a key has.  What a
field holds is what the values under its key **come to together** (`Node.under`): of values that
follow each other, sequences make one sequence and mappings make one mapping, and otherwise the
later one alone is left.  So a tree whose mappings have no key twice keeps its shape (`Mirrors`), and
in any other tree values may be lost.  A scalar that was not quoted is a flag, a number or the text
it was.

What is a number is decided by reading, and the reader takes a text to end at its first NUL.  So a
scalar is a number if it is a numeral, and also if what stands **before a NUL** in it is a numeral
or nothing (`Truncated`): then the rest of the text is lost.  Every other scalar keeps its text. -/
namespace Coordinator.Config

/-! ## NUL in texts -/

section Nul
variable {s t : Bytes}

/-- A text up to a NUL that has none itself. -/
theorem untilNul_append (hs : (0 : UInt8) ∉ s) : Bytes.untilNul (s ++ 0 :: t) = s := by
  have hall : ∀ b ∈ s, (decide (b ≠ 0)) = true := by
    intro b hb
    exact decide_eq_true fun h => hs (h ▸ hb)
  rw [Bytes.untilNul, List.takeWhile_append_of_pos hall]
  simp

theorem untilNul_eq_self (hs : (0 : UInt8) ∉ s) : s.untilNul = s := by
  rw [Bytes.untilNul, List.takeWhile_eq_self_iff]
  intro b hb
  exact decide_eq_true fun h => hs (h ▸ hb)

namespace Numeral

theorem zero_not_mem_digits {digit : UInt8 → Bool} (hdigit : digit 0 = false)
    (hs : ∀ b ∈ s, digit b = true) : (0 : UInt8) ∉ s := by
  intro hmem
  rw [hs 0 hmem] at hdigit
  cases hdigit

theorem zero_not_mem_mantissa {digit : UInt8 → Bool} (hdigit : digit 0 = false)
    (hs : IsMantissa digit s) : (0 : UInt8) ∉ s := by
  cases hs with
  | whole hs hne => exact zero_not_mem_digits hdigit hs
  | pointed hs ht hne =>
    simp [zero_not_mem_digits hdigit hs, zero_not_mem_digits hdigit ht]

theorem zero_not_mem_sign (hs : IsSign s) : (0 : UInt8) ∉ s := by
  cases hs with
  | none | plus | minus => decide

/-- A letter is no NUL, in either case. -/
theorem ne_zero_of_toUpper {b c : UInt8} (hb : Byte.toUpper b = c) (hc : c ≠ 0) : b ≠ 0 := by
  rintro rfl
  exact hc (hb.symm.trans (by decide))

theorem zero_not_mem_exponent {letter : UInt8} (hletter : letter ≠ 0)
    (hs : IsExponent letter s) : (0 : UInt8) ∉ s := by
  obtain _ | ⟨hb, hsign, hdigits, -⟩ := hs
  · exact List.not_mem_nil
  · simp [(ne_zero_of_toUpper hb hletter).symm, zero_not_mem_sign hsign,
      zero_not_mem_digits (by decide) hdigits]

theorem zero_not_mem_name {name : Bytes} (hs : s.toUpper = name) (hname : (0 : UInt8) ∉ name) :
    (0 : UInt8) ∉ s := by
  intro hmem
  have hupper : Byte.toUpper 0 ∈ s.toUpper := List.mem_map_of_mem hmem
  rw [hs] at hupper
  exact hname hupper

theorem zero_not_mem_unsigned (hs : IsUnsigned s) : (0 : UInt8) ∉ s := by
  cases hs with
  | decimal hm he =>
    simp [zero_not_mem_mantissa (by decide) hm, zero_not_mem_exponent (by decide) he]
  | hexadecimal hx hm he =>
    simp [(ne_zero_of_toUpper hx (by decide)).symm, zero_not_mem_mantissa (by decide) hm,
      zero_not_mem_exponent (by decide) he]
  | infinity hs =>
    rcases hs with hs | hs
    · exact zero_not_mem_name hs (by decide)
    · exact zero_not_mem_name hs (by decide)
  | nan hs => exact zero_not_mem_name hs (by decide)
  | @nanOf s t hs ht =>
    have htext : (0 : UInt8) ∉ t := by
      intro hmem
      rcases ht 0 hmem with h | h
      · cases h
      · exact absurd h (by decide)
    simp [zero_not_mem_name hs (by decide), htext]

/-- A numeral has no NUL in it. -/
theorem zero_not_mem_of_isNumeral (hs : IsNumeral s) : (0 : UInt8) ∉ s := by
  obtain ⟨hblanks, hsign, hs⟩ := hs
  simp [zero_not_mem_digits (by decide) hblanks, zero_not_mem_sign hsign, zero_not_mem_unsigned hs]

end Numeral
end Nul

/-! ## Nodes written to one place -/

namespace Node

/-- What two nodes come to that are written to one place: what both of them have, if they are
sequences or mappings both, and otherwise the second one. -/
def join : Node → Node → Node
  | .sequence items, .sequence items' => .sequence (items ++ items')
  | .mapping entries, .mapping entries' => .mapping (entries ++ entries')
  | _, n => n

theorem join_null (m : Node) : m.join .null = .null := by cases m <;> rfl

theorem join_scalar (m : Node) (tag s : Bytes) : m.join (.scalar tag s) = .scalar tag s := by
  cases m <;> rfl

theorem null_join (n : Node) : join .null n = n := rfl

/-- What the values come to that stand under the keys with a text. -/
def under (key : Bytes) (entries : List (Node × Node)) : Node :=
  ((entries.filter fun e => e.1.text = key).map Prod.snd).foldl join .null

variable {key : Bytes} {entries : List (Node × Node)} {k n : Node} {e : Node × Node}

theorem under_of_absent (h : ∀ e ∈ entries, e.1.text ≠ key) : under key entries = .null := by
  have hnone : (entries.filter fun e => e.1.text = key) = [] := by
    rw [List.filter_eq_nil_iff]
    intro e he
    exact fun hkey => h e he (of_decide_eq_true hkey)
  rw [under, hnone]
  rfl

/-- One more value under a key joins those before it. -/
theorem under_concat_self (k : Node) (n : Node) (entries : List (Node × Node)) :
    under k.text (entries ++ [(k, n)]) = (under k.text entries).join n := by
  simp [under]

theorem under_concat_of_ne (h : k.text ≠ key) :
    under key (entries ++ [(k, n)]) = under key entries := by
  simp [under, h]

/-- A value that stands under its key alone is what the values under it come to. -/
theorem under_of_nodup (h : (entries.map fun e => e.1.text).Nodup) (he : e ∈ entries) :
    under e.1.text entries = e.2 := by
  have hone : (entries.filter fun e' => e'.1.text = e.1.text) = [e] := by
    induction entries with
    | nil => cases he
    | cons e' rest ih =>
      obtain ⟨hnew, hrest⟩ := List.nodup_cons.mp h
      rcases List.mem_cons.mp he with rfl | he
      · rw [List.filter_cons_of_pos (by simp), List.filter_eq_nil_iff.mpr fun x hx hkey => hnew ?_]
        exact List.mem_map.mpr ⟨x, hx, of_decide_eq_true hkey⟩
      · have hne : e'.1.text ≠ e.1.text :=
          fun hkey => hnew (List.mem_map.mpr ⟨e, he, hkey.symm⟩)
        rw [List.filter_cons_of_neg (by simpa using hne), ih hrest he]
  rw [under, hone]
  rfl

end Node

namespace Document

open Numeral

/-! ## Scalars -/

variable {tag s : Bytes}

/-- A text that is a numeral, or nothing, up to a NUL. -/
def Truncated (s : Bytes) : Prop :=
  ∃ front rest, s = front ++ 0 :: rest ∧ (front = [] ∨ IsNumeral front)

theorem Truncated.mem (hs : Truncated s) : (0 : UInt8) ∈ s := by
  obtain ⟨front, rest, rfl, -⟩ := hs
  simp

/-- The text that a scalar has for a flag. -/
def flagText : Bool → Bytes
  | true => ascii "true"
  | false => ascii "false"

/-- What a scalar becomes. -/
structure Reads (tag s : Bytes) (v : Document) : Prop where
  quoted : tag = quotedTag → v = .text s
  flag : ∀ b, v = .flag b ↔ tag ≠ quotedTag ∧ s = flagText b
  number : (∃ x, v = .number x) ↔ tag ≠ quotedTag ∧ (IsNumeral s ∨ Truncated s)
  value : ∀ x, v = .number x → number? s = some x
  text : (∀ b, v ≠ .flag b) → (∀ x, v ≠ .number x) → v = .text s

/-- Reading up to a NUL. -/
theorem number?_isSome_iff (s : Bytes) : (number? s).isSome ↔ IsNumeral s ∨ Truncated s := by
  cases s with
  | nil =>
    refine ⟨nofun, ?_⟩
    rintro (h | h)
    · exact absurd h not_isNumeral_nil
    · exact absurd h.mem List.not_mem_nil
  | cons b rest =>
    by_cases hb : b = 0
    · subst hb
      exact ⟨fun _ => .inr ⟨[], rest, rfl, .inl rfl⟩, fun _ => rfl⟩
    · have hread : number? (b :: rest) = read? (Bytes.untilNul (b :: rest)) := by
        unfold number?
        split
        · next h => cases h
        · next h => exact absurd (List.cons.inj h).1 hb
        · rfl
      rw [hread, read?_isSome_iff]
      by_cases hmem : (0 : UInt8) ∈ b :: rest
      · -- What counts is the text before the first NUL, which is not empty.
        obtain ⟨front, back, hsplit, hfront⟩ := List.eq_append_cons_of_mem hmem
        have hne : front ≠ [] := by
          rintro rfl
          exact hb (List.cons.inj hsplit).1
        rw [hsplit, untilNul_append hfront]
        constructor
        · exact fun h => .inr ⟨front, back, rfl, .inr h⟩
        · rintro (h | ⟨front', back', hsplit', h⟩)
          · exact absurd (List.mem_append_right _ List.mem_cons_self) (zero_not_mem_of_isNumeral h)
          · have hfront' : (0 : UInt8) ∉ front' := by
              rcases h with rfl | h
              · exact List.not_mem_nil
              · exact zero_not_mem_of_isNumeral h
            have hsame : front' = front := by
              rw [← untilNul_append (t := back') hfront', ← hsplit', untilNul_append hfront]
            subst hsame
            exact h.resolve_left hne
      · rw [untilNul_eq_self hmem]
        exact ⟨.inl, fun h => h.resolve_right fun h => hmem h.mem⟩

/-- Neither flag is a number. -/
theorem not_number_flagText (b : Bool) : ¬ (IsNumeral (flagText b) ∨ Truncated (flagText b)) := by
  rw [← number?_isSome_iff]
  cases b with
  | true => decide
  | false => decide

theorem flagText_injective : Function.Injective flagText := by
  intro b c h
  cases b with
  | true =>
    cases c with
    | true => rfl
    | false => exact absurd h (by decide)
  | false =>
    cases c with
    | true => exact absurd h (by decide)
    | false => rfl

/-- A flag is read from its text. -/
theorem ofScalar_flagText (hquoted : tag ≠ quotedTag) (b : Bool) :
    ofScalar tag (flagText b) = .flag b := by
  unfold ofScalar
  rw [if_neg hquoted]
  cases b with
  | true => exact if_pos rfl
  | false =>
    rw [if_neg (by decide)]
    exact if_pos rfl

theorem reads_ofScalar (tag s : Bytes) : Reads tag s (ofScalar tag s) := by
  by_cases hquoted : tag = quotedTag
  · rw [ofScalar, if_pos hquoted]
    exact ⟨fun _ => rfl, fun b => ⟨nofun, fun h => absurd hquoted h.1⟩,
      ⟨nofun, fun h => absurd hquoted h.1⟩, nofun, fun _ _ => rfl⟩
  · by_cases hflag : ∃ b, s = flagText b
    · obtain ⟨b, rfl⟩ := hflag
      rw [ofScalar_flagText hquoted]
      refine ⟨fun h => absurd h hquoted, fun c => ⟨fun h => ?_, fun h => ?_⟩, ⟨nofun, fun h => ?_⟩,
        nofun, fun h => absurd rfl (h b)⟩
      · cases h
        exact ⟨hquoted, rfl⟩
      · rw [flagText_injective h.2]
      · exact absurd h.2 (not_number_flagText b)
    · have htrue : s ≠ ascii "true" := fun h => hflag ⟨true, h⟩
      have hfalse : s ≠ ascii "false" := fun h => hflag ⟨false, h⟩
      rw [ofScalar, if_neg hquoted, if_neg htrue, if_neg hfalse]
      have hnumber := number?_isSome_iff s
      cases hread : number? s with
      | some x =>
        rw [hread] at hnumber
        refine ⟨fun h => absurd h hquoted, fun b => ⟨nofun, fun h => absurd ⟨b, h.2⟩ hflag⟩,
          ⟨fun _ => ⟨hquoted, hnumber.mp rfl⟩, fun _ => ⟨x, rfl⟩⟩, fun y hy => ?_,
          fun _ h => absurd rfl (h x)⟩
        cases hy
        exact hread
      | none =>
        rw [hread] at hnumber
        refine ⟨fun h => absurd h hquoted, fun b => ⟨nofun, fun h => absurd ⟨b, h.2⟩ hflag⟩,
          ⟨nofun, fun h => ?_⟩, nofun, fun _ _ => rfl⟩
        cases hnumber.mpr h.2

/-! ## Places -/

/-- A key has a field. -/
theorem mem_keys_setField {key k : Bytes} {v : Document} {fields : List (Bytes × Document)} :
    k ∈ (setField key v fields).map Prod.fst ↔ k = key ∨ k ∈ fields.map Prod.fst := by
  induction fields with
  | nil => simp [setField]
  | cons f rest ih =>
    obtain ⟨l, w⟩ := f
    rw [setField]
    split
    · next h =>
      subst h
      simp
    · rw [List.map_cons, List.mem_cons, ih, List.map_cons, List.mem_cons]
      exact or_left_comm

theorem nodup_setField {key : Bytes} {v : Document} {fields : List (Bytes × Document)}
    (h : (fields.map Prod.fst).Nodup) : ((setField key v fields).map Prod.fst).Nodup := by
  induction fields with
  | nil => simp [setField]
  | cons f rest ih =>
    obtain ⟨l, w⟩ := f
    obtain ⟨hl, hrest⟩ := List.nodup_cons.mp h
    rw [setField]
    split
    · exact List.nodup_cons.mpr ⟨hl, hrest⟩
    · next hne =>
      refine List.nodup_cons.mpr ⟨fun hmem => ?_, ih hrest⟩
      exact (mem_keys_setField.mp hmem).elim hne hl

/-- Setting a field changes no other. -/
theorem mem_setField {key : Bytes} {v : Document} {f : Bytes × Document}
    {fields : List (Bytes × Document)} (h : (fields.map Prod.fst).Nodup)
    (hf : f ∈ setField key v fields) : f = (key, v) ∨ f ∈ fields ∧ f.1 ≠ key := by
  induction fields with
  | nil => exact .inl (List.mem_singleton.mp hf)
  | cons g rest ih =>
    obtain ⟨l, w⟩ := g
    obtain ⟨hl, hrest⟩ := List.nodup_cons.mp h
    rw [setField] at hf
    split at hf
    · next heq =>
      subst heq
      rcases List.mem_cons.mp hf with rfl | hf
      · exact .inl rfl
      · refine .inr ⟨List.mem_cons_of_mem _ hf, fun hkey => hl ?_⟩
        exact List.mem_map.mpr ⟨f, hf, hkey⟩
    · next hne =>
      rcases List.mem_cons.mp hf with rfl | hf
      · exact .inr ⟨List.mem_cons_self, hne⟩
      · exact (ih hrest hf).imp_right fun hf => ⟨List.mem_cons_of_mem _ hf.1, hf.2⟩

/-- What is found under a key is a field of that key, or null if there is none. -/
theorem fieldAt_cases (key : Bytes) (fields : List (Bytes × Document)) :
    (key, fieldAt key fields) ∈ fields ∨
      key ∉ fields.map Prod.fst ∧ fieldAt key fields = .null := by
  induction fields with
  | nil => exact .inr ⟨List.not_mem_nil, rfl⟩
  | cons f rest ih =>
    obtain ⟨l, w⟩ := f
    by_cases h : key = l
    · subst h
      exact .inl (by simp [fieldAt])
    · have hat : fieldAt key ((l, w) :: rest) = fieldAt key rest := by
        rw [fieldAt, List.lookup_cons, beq_false_of_ne h, fieldAt]
      rw [hat]
      refine ih.imp (List.mem_cons_of_mem _) fun hnone => ⟨fun hmem => ?_, hnone.2⟩
      exact (List.mem_cons.mp hmem).elim h hnone.1

/-! ## Trees -/

/-- A tree holds a node that does not exist: it is one, or an item or a value in it is such a
tree. -/
inductive Dangling : Node → Prop
  | undefined : Dangling .undefined
  | item {items : List Node} {n : Node} (hn : n ∈ items) (h : Dangling n) :
    Dangling (.sequence items)
  | value {entries : List (Node × Node)} {e : Node × Node} (he : e ∈ entries)
    (h : Dangling e.2) : Dangling (.mapping entries)

/-- A tree and its typed form: with the items of each sequence in order, with one field for each
text of a key, which holds what the values under that key come to, and with each scalar as it
reads. -/
inductive Types : Node → Document → Prop
  | null : Types .null .null
  | scalar {tag s : Bytes} {v : Document} (h : Reads tag s v) : Types (.scalar tag s) v
  | sequence {items : List Node} {vs : List Document} (h : List.Forall₂ Types items vs) :
    Types (.sequence items) (.list vs)
  | mapping {entries : List (Node × Node)} {fields : List (Bytes × Document)}
    (once : (fields.map Prod.fst).Nodup)
    (keys : ∀ key, key ∈ fields.map Prod.fst ↔ ∃ e ∈ entries, e.1.text = key)
    (value : ∀ f ∈ fields, Types (Node.under f.1 entries) f.2) :
    Types (.mapping entries) (.record fields)

/-- A tree in which no mapping has a key twice. -/
inductive Apart : Node → Prop
  | null : Apart .null
  | undefined : Apart .undefined
  | scalar (tag s : Bytes) : Apart (.scalar tag s)
  | sequence {items : List Node} (h : ∀ n ∈ items, Apart n) : Apart (.sequence items)
  | mapping {entries : List (Node × Node)} (once : (entries.map fun e => e.1.text).Nodup)
    (h : ∀ e ∈ entries, Apart e.2) : Apart (.mapping entries)

/-- A tree and a typed form of its own shape: with the same items in order and the same keys, and
with each scalar as it reads. -/
inductive Mirrors : Node → Document → Prop
  | null : Mirrors .null .null
  | scalar {tag s : Bytes} {v : Document} (h : Reads tag s v) : Mirrors (.scalar tag s) v
  | sequence {items : List Node} {vs : List Document} (h : List.Forall₂ Mirrors items vs) :
    Mirrors (.sequence items) (.list vs)
  | mapping {entries : List (Node × Node)} {fields : List (Bytes × Document)}
    (once : (fields.map Prod.fst).Nodup)
    (keys : ∀ key, key ∈ fields.map Prod.fst ↔ ∃ e ∈ entries, e.1.text = key)
    (value : ∀ e ∈ entries, ∀ v, (e.1.text, v) ∈ fields → Mirrors e.2 v) :
    Mirrors (.mapping entries) (.record fields)

section Places
variable {m n : Node} {old v : Document} {entries : List (Node × Node)}
  {fields : List (Bytes × Document)}

/-- What stands under a key is the typed form of what the values under it come to. -/
theorem Types.fieldAt (h : Types (.mapping entries) (.record fields)) (key : Bytes) :
    Types (Node.under key entries) (fieldAt key fields) := by
  obtain _ | _ | _ | ⟨-, keys, value⟩ := h
  rcases fieldAt_cases key fields with hmem | ⟨hnone, hnull⟩
  · exact value _ hmem
  · rw [hnull, Node.under_of_absent fun e he hkey => hnone ((keys key).mpr ⟨e, he, hkey⟩)]
    exact .null

/-- One more entry is written to the field of its key. -/
theorem Types.setField (h : Types (.mapping entries) (.record fields)) {key : Node}
    (hv : Types ((Node.under key.text entries).join n) v) :
    Types (.mapping (entries ++ [(key, n)])) (.record (setField key.text v fields)) := by
  obtain _ | _ | _ | ⟨once, keys, value⟩ := h
  refine .mapping (nodup_setField once) (fun k => ?_) fun f hf => ?_
  · rw [mem_keys_setField, keys, or_comm, eq_comm]
    simp [or_and_right, exists_or]
  · rcases mem_setField once hf with rfl | ⟨hf, hne⟩
    · rwa [Node.under_concat_self]
    · rw [Node.under_concat_of_ne (Ne.symm hne)]
      exact value f hf

/-- What a scalar becomes has neither items nor fields. -/
theorem Reads.empty (h : Reads tag s v) : v.items = [] ∧ v.fields = [] := by
  cases v with
  | null | flag | number | text => exact ⟨rfl, rfl⟩
  | list | record => cases h.text nofun nofun

/-- The items that a sequence joins are those of the sequence that stood there, if one did. -/
theorem Types.exists_items (h : Types m old) : ∃ before, List.Forall₂ Types before old.items ∧
    ∀ items, m.join (.sequence items) = .sequence (before ++ items) := by
  cases h with
  | null => exact ⟨[], .nil, fun _ => rfl⟩
  | scalar h =>
    rw [h.empty.1]
    exact ⟨[], .nil, fun _ => rfl⟩
  | sequence h => exact ⟨_, h, fun _ => rfl⟩
  | mapping => exact ⟨[], .nil, fun _ => rfl⟩

/-- The fields that a mapping joins are those of the mapping that stood there, if one did. -/
theorem Types.exists_fields (h : Types m old) :
    ∃ before, Types (.mapping before) (.record old.fields) ∧
      ∀ entries, m.join (.mapping entries) = .mapping (before ++ entries) := by
  have hempty : Types (.mapping []) (.record []) := .mapping .nil (by simp) nofun
  cases h with
  | null => exact ⟨[], hempty, fun _ => rfl⟩
  | scalar h =>
    rw [h.empty.2]
    exact ⟨[], hempty, fun _ => rfl⟩
  | sequence => exact ⟨[], hempty, fun _ => rfl⟩
  | mapping once keys value => exact ⟨_, .mapping once keys value, fun _ => rfl⟩

/-- A tree whose mappings have no key twice keeps its shape. -/
theorem Types.mirrors (hn : Apart n) (h : Types n v) : Mirrors n v := by
  induction hn generalizing v with
  | null =>
    cases h
    exact .null
  | undefined => cases h
  | scalar tag s =>
    obtain _ | ⟨h⟩ := h
    exact .scalar h
  | sequence _ ih =>
    obtain _ | _ | ⟨h⟩ := h
    have hboth : List.Forall₂ (fun n v => (∀ v, Types n v → Mirrors n v) ∧ Types n v) _ _ :=
      (List.forall₂_and_left _ _).mpr ⟨fun n hn _ => ih n hn, h⟩
    exact .sequence (hboth.imp fun n v hv => hv.1 v hv.2)
  | mapping hentries _ ih =>
    obtain _ | _ | _ | ⟨once, keys, value⟩ := h
    refine .mapping once keys fun e he v hv => ih e he ?_
    rw [← Node.under_of_nodup hentries he]
    exact value _ hv

end Places

/-! ## Writing -/

/-- What becomes of a place where `m` was written when `n` is written there: the typed form of what
they come to, unless `n` is dangling. -/
def Written (m n : Node) : Except Undefined Document → Prop
  | .ok v => ¬ Dangling n ∧ Types (m.join n) v
  | .error _ => Dangling n

/-- The answer to the items of a sequence. -/
def AnswersItems (items : List Node) : Except Undefined (List Document) → Prop
  | .ok vs => (∀ n ∈ items, ¬ Dangling n) ∧ List.Forall₂ Types items vs
  | .error _ => ∃ n ∈ items, Dangling n

/-- What becomes of the fields of a mapping when more entries are written to them. -/
def WrittenEntries (before entries : List (Node × Node)) :
    Except Undefined (List (Bytes × Document)) → Prop
  | .ok fields => (∀ e ∈ entries, ¬ Dangling e.2) ∧
      Types (.mapping (before ++ entries)) (.record fields)
  | .error _ => ∃ e ∈ entries, Dangling e.2

mutual

theorem written_write : (n : Node) → ∀ {m : Node} {old : Document}, Types m old →
    Written m n (write old n)
  | .null, m, _, _ => ⟨nofun, by rw [m.join_null]; exact .null⟩
  | .undefined, _, _, _ => .undefined
  | .scalar tag s, m, _, _ =>
    ⟨nofun, by rw [m.join_scalar]; exact .scalar (reads_ofScalar tag s)⟩
  | .sequence items, m, old, hm => by
    obtain ⟨before, hbefore, hjoin⟩ := hm.exists_items
    have hitems := answers_ofItems items
    rw [write]
    cases hresult : ofItems items with
    | error u =>
      rw [hresult] at hitems
      obtain ⟨n, hn, h⟩ := hitems
      exact .item hn h
    | ok vs =>
      rw [hresult] at hitems
      refine ⟨?_, ?_⟩
      · rintro (_ | ⟨hn, h⟩)
        exact hitems.1 _ hn h
      · rw [hjoin]
        exact .sequence (List.rel_append hbefore hitems.2)
  | .mapping entries, m, old, hm => by
    obtain ⟨before, hbefore, hjoin⟩ := hm.exists_fields
    have hentries := written_writeEntries entries hbefore
    rw [write]
    cases hresult : writeEntries old.fields entries with
    | error u =>
      rw [hresult] at hentries
      obtain ⟨e, he, h⟩ := hentries
      exact .value he h
    | ok fields =>
      rw [hresult] at hentries
      refine ⟨?_, ?_⟩
      · rintro (_ | _ | ⟨he, h⟩)
        exact hentries.1 _ he h
      · rw [hjoin]
        exact hentries.2

theorem answers_ofItems : (items : List Node) → AnswersItems items (ofItems items)
  | [] => ⟨nofun, .nil⟩
  | n :: rest => by
    have hn := written_write n .null
    have hrest := answers_ofItems rest
    rw [ofItems]
    cases hv : write .null n with
    | error u =>
      rw [hv] at hn
      exact ⟨n, List.mem_cons_self, hn⟩
    | ok v =>
      rw [hv] at hn
      cases hvs : ofItems rest with
      | error u =>
        rw [hvs] at hrest
        obtain ⟨m, hm, h⟩ := hrest
        exact ⟨m, List.mem_cons_of_mem n hm, h⟩
      | ok vs =>
        rw [hvs] at hrest
        have hnew : Types n v := Node.null_join n ▸ hn.2
        exact ⟨List.forall_mem_cons.mpr ⟨hn.1, hrest.1⟩, .cons hnew hrest.2⟩

theorem written_writeEntries : (entries : List (Node × Node)) →
    ∀ {before : List (Node × Node)} {fields : List (Bytes × Document)},
      Types (.mapping before) (.record fields) →
        WrittenEntries before entries (writeEntries fields entries)
  | [], before, _, h => ⟨nofun, before.append_nil.symm ▸ h⟩
  | (key, n) :: rest, before, fields, h => by
    have hn := written_write n (h.fieldAt key.text)
    rw [writeEntries]
    cases hv : write (fieldAt key.text fields) n with
    | error u =>
      rw [hv] at hn
      exact ⟨(key, n), List.mem_cons_self, hn⟩
    | ok v =>
      rw [hv] at hn
      have hrest := written_writeEntries rest (h.setField hn.2)
      show WrittenEntries before ((key, n) :: rest)
        (writeEntries (setField key.text v fields) rest)
      cases hresult : writeEntries (setField key.text v fields) rest with
      | error u =>
        rw [hresult] at hrest
        obtain ⟨e, he, h⟩ := hrest
        exact ⟨e, List.mem_cons_of_mem _ he, h⟩
      | ok fields' =>
        rw [hresult] at hrest
        refine ⟨List.forall_mem_cons.mpr ⟨hn.1, hrest.1⟩, ?_⟩
        rw [List.append_cons]
        exact hrest.2

end

/-- **What becomes of a tree.**  It has no typed form just if it is dangling.  Otherwise it has one,
which is of its own shape unless some mapping in it has a key twice. -/
theorem typed_unless_dangling (n : Node) : (Dangling n ∧ ofNode n = .error ⟨⟩) ∨
    (¬ Dangling n ∧ ∃ v, ofNode n = .ok v ∧ Types n v ∧ (Apart n → Mirrors n v)) := by
  have hwritten := written_write n .null
  rw [← ofNode] at hwritten
  cases hresult : ofNode n with
  | error u =>
    rw [hresult] at hwritten
    exact .inl ⟨hwritten, rfl⟩
  | ok v =>
    rw [hresult] at hwritten
    have htypes : Types n v := Node.null_join n ▸ hwritten.2
    exact .inr ⟨hwritten.1, v, rfl, htypes, htypes.mirrors⟩

/-- Of two texts under one key the second is left, and of two sequences the items of both. -/
example : ofNode (.mapping [(.scalar [] [107], .scalar quotedTag [97]),
    (.scalar [] [107], .scalar quotedTag [98]), (.null, .sequence [.null]),
    (.null, .sequence [.null])]) =
      .ok (.record [([107], .text [98]), ([], .list [.null, .null])]) := rfl

/-- A text with a NUL after its first digit is read as that digit, although it is no numeral. -/
theorem text_lost_after_nul : ¬ IsNumeral [49, 0, 97, 98, 99] ∧
    ∃ x, ofNode (.scalar (ascii "?") [49, 0, 97, 98, 99]) = .ok (.number x) := by
  refine ⟨?_, _, rfl⟩
  rw [← read?_isSome_iff]
  decide

end Document
end Coordinator.Config

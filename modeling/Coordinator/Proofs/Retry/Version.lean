import Coordinator.Proofs.Bytes
import Coordinator.Retry.Version

/-! # The version in a server's text

The **tokens** of a text are its pieces between blanks (`Bytes.tokens`).  A token that is `v` and a
digit is a version as it stands (`Tagged`), wherever it is in the text.  A text without one names
its version by the first token that starts with a digit (`Numeric`), and a text without that gets
its `v` in front of all of it (`Names`).

The search goes through the text once, and keeps the first numeric token in mind.  What it finds
depends on that token and on the tokens that are left, and not on how many blanks are around them
(`pick?_eq`).

So **a text is normalised to the version that it names** (`normalized`).  A version taken from a
token is a tagged token itself, and normalising it again changes nothing; a text with no token to
tell by gets one more `v` each time. -/
namespace Coordinator

open Byte (isBlank isDigit)

/-! ## Tokens -/

namespace Bytes

variable {s w rest t : Bytes} {b : UInt8}

/-- The tokens of a text: its pieces between blanks, empty ones left out. -/
def tokens (s : Bytes) : List Bytes := (s.splitOnP isBlank).filter (· ≠ [])

theorem tokens_cons_of_isBlank (hb : isBlank b = true) : tokens (b :: s) = tokens s := by
  rw [tokens, List.splitOnP_cons_eq_if_modifyHead, if_pos hb]
  rfl

theorem tokens_trimLeft (s : Bytes) : tokens s.trimLeft = tokens s := by
  induction s with
  | nil => rfl
  | cons b s ih =>
    by_cases hb : isBlank b = true
    · rw [tokens_cons_of_isBlank hb, ← ih, trimLeft, List.dropWhile_cons_of_pos hb]
      rfl
    · rw [trimLeft, List.dropWhile_cons_of_neg hb]

/-- A word alone is its only token. -/
theorem tokens_eq_singleton (hne : w ≠ []) (hw : ∀ b ∈ w, isBlank b = false) :
    tokens w = [w] := by
  rw [tokens, List.splitOnP_eq_singleton hw, List.filter_cons_of_pos (by simpa using hne)]
  rfl

/-- A word that reaches to a blank, or to the end, is a token. -/
theorem tokens_append (hne : w ≠ []) (hw : ∀ b ∈ w, isBlank b = false)
    (hrest : ∀ b, rest.head? = some b → isBlank b = true) :
    tokens (w ++ rest) = w :: tokens rest := by
  cases rest with
  | nil =>
    rw [List.append_nil, tokens_eq_singleton hne hw]
    rfl
  | cons b rest =>
    rw [tokens, List.splitOnP_append_cons_of_forall_mem hw b (hrest b rfl),
      List.filter_cons_of_pos (by simpa using hne), tokens_cons_of_isBlank (hrest b rfl)]
    rfl

/-- The first token of a text that starts with one, and the tokens after it. -/
theorem tokens_of_takeWhile (h : s.takeWhile (!isBlank ·) ≠ []) :
    tokens s = s.takeWhile (!isBlank ·) :: tokens (s.dropWhile (!isBlank ·)) := by
  have hsplit : s.takeWhile (!isBlank ·) ++ s.dropWhile (!isBlank ·) = s :=
    List.takeWhile_append_dropWhile
  have hword : ∀ b ∈ s.takeWhile (!isBlank ·), isBlank b = false :=
    fun b hb => by simpa using List.mem_takeWhile_imp hb
  have hblank : ∀ b, (s.dropWhile (!isBlank ·)).head? = some b → isBlank b = true :=
    fun b hb => by simpa using not_of_head?_dropWhile hb
  calc tokens s
    _ = tokens (s.takeWhile (!isBlank ·) ++ s.dropWhile (!isBlank ·)) := by rw [hsplit]
    _ = s.takeWhile (!isBlank ·) :: tokens (s.dropWhile (!isBlank ·)) :=
      tokens_append h hword hblank

theorem tokens_cons (hb : isBlank b = false) :
    tokens (b :: s) = (b :: s.takeWhile (!isBlank ·)) :: tokens (s.dropWhile (!isBlank ·)) := by
  have htake : (b :: s).takeWhile (!isBlank ·) = b :: s.takeWhile (!isBlank ·) :=
    List.takeWhile_cons_of_pos (by rw [hb]; rfl)
  have hdrop : (b :: s).dropWhile (!isBlank ·) = s.dropWhile (!isBlank ·) :=
    List.dropWhile_cons_of_pos (by rw [hb]; rfl)
  rw [tokens_of_takeWhile (by rw [htake]; exact List.cons_ne_nil _ _), htake, hdrop]

theorem tokens_of_trimLeft (h : s.trimLeft = b :: rest) :
    tokens s = (b :: rest.takeWhile (!isBlank ·)) :: tokens (rest.dropWhile (!isBlank ·)) := by
  have hfirst : (s.dropWhile isBlank).head? = some b := by
    rw [← trimLeft, h]
    rfl
  have hb : isBlank b = false := not_of_head?_dropWhile hfirst
  rw [← tokens_trimLeft, h, tokens_cons hb]

/-- A piece between blanks holds none itself. -/
theorem isBlank_of_mem_splitOnP (ht : t ∈ s.splitOnP isBlank) (hb : b ∈ t) :
    isBlank b = false := by
  induction s generalizing t with
  | nil => simp_all
  | cons c s ih =>
    obtain ⟨w, ws, hws⟩ := List.exists_cons_of_ne_nil (List.splitOnP_ne_nil isBlank s)
    rw [hws] at ih
    rw [List.splitOnP_cons_eq_if_modifyHead, hws] at ht
    by_cases hc : isBlank c = true
    · rw [if_pos hc] at ht
      rcases List.mem_cons.mp ht with rfl | ht
      · cases hb
      · exact ih ht hb
    · -- The first piece of the rest is longer by a byte that is no blank.
      rw [if_neg hc] at ht
      rcases List.mem_cons.mp ht with rfl | ht
      · rcases List.mem_cons.mp hb with rfl | hb
        · simpa using hc
        · exact ih List.mem_cons_self hb
      · exact ih (List.mem_cons_of_mem _ ht) hb

theorem isBlank_of_mem_tokens (ht : t ∈ tokens s) (hb : b ∈ t) : isBlank b = false :=
  isBlank_of_mem_splitOnP (List.mem_filter.mp ht).1 hb

end Bytes

/-! ## The token that names the version -/

namespace Retry.Version

variable {text t version : Bytes} {p : Bytes → Bool} {P : Bytes → Prop}

/-- A token that is `v` followed by a digit. -/
def Tagged (t : Bytes) : Prop := ∃ d rest, t = 118 :: d :: rest ∧ isDigit d = true

/-- A token that starts with a digit. -/
def Numeric (t : Bytes) : Prop := ∃ d rest, t = d :: rest ∧ isDigit d = true

theorem isTagged_iff (t : Bytes) : isTagged t = true ↔ Tagged t := by
  unfold isTagged Tagged
  split
  · simp
  · rename_i hother
    constructor
    · nofun
    · rintro ⟨d, rest, rfl, -⟩
      exact absurd rfl (hother d rest)

theorem isNumeric_iff (t : Bytes) : isNumeric t = true ↔ Numeric t := by
  cases t <;> simp [isNumeric, Numeric]

/-- A numeric token with a `v` in front is a tagged one. -/
theorem tagged_cons_iff : Tagged (118 :: t) ↔ Numeric t := by
  simp [Tagged, Numeric]

theorem not_numeric_cons : ¬ Numeric (118 :: t) := by
  rintro ⟨d, rest, hcons, hd⟩
  cases hcons
  exact absurd hd (by decide)

/-- The first token of a text with a property. -/
structure IsFirst (P : Bytes → Prop) (text t : Bytes) : Prop where
  holds : P t
  split : ∃ before after, text.tokens = before ++ t :: after ∧ ∀ u ∈ before, ¬ P u

theorem IsFirst.mem (h : IsFirst P text t) : t ∈ text.tokens := by
  obtain ⟨before, after, htokens, -⟩ := h.split
  rw [htokens]
  exact List.mem_append_right before List.mem_cons_self

theorem find?_eq_some_iff (hp : ∀ t, p t = true ↔ P t) :
    text.tokens.find? p = some t ↔ IsFirst P text t := by
  have hnot (u : Bytes) : (!p u) = true ↔ ¬ P u := by
    rw [← hp, Bool.not_eq_true', Bool.not_eq_true]
  simp only [List.find?_eq_some_iff_append, hp, hnot]
  exact ⟨fun ⟨holds, split⟩ => ⟨holds, split⟩, fun ⟨holds, split⟩ => ⟨holds, split⟩⟩

theorem find?_eq_none_iff (hp : ∀ t, p t = true ↔ P t) :
    text.tokens.find? p = none ↔ ∀ t ∈ text.tokens, ¬ P t := by
  simp only [List.find?_eq_none, hp]

/-- A text with a token to tell the version by. -/
def Telling (text : Bytes) : Prop := ∃ t ∈ text.tokens, Tagged t ∨ Numeric t

/-- The version that a text names. -/
inductive Names (text : Bytes) : Bytes → Prop
  | tagged {t : Bytes} (h : IsFirst Tagged text t) : Names text t
  | numeric {t : Bytes} (hnone : ∀ u ∈ text.tokens, ¬ Tagged u) (h : IsFirst Numeric text t) :
    Names text (118 :: t)
  | whole (hmute : ¬ Telling text) : Names text (118 :: text)

/-! ## The search -/

/-- What the search finds is said by the token that it has in mind and by those to come. -/
theorem pick?_eq (numeric : Option Bytes) (s : Bytes) :
    pick? numeric s = (s.tokens.find? isTagged).or
      ((numeric.or (s.tokens.find? isNumeric)).map (118 :: ·)) := by
  fun_induction pick? numeric s with
  | case1 numeric s hs =>
    have hnone : s.tokens = [] := by
      rw [← Bytes.tokens_trimLeft, hs]
      rfl
    simp [hnone]
  | case2 numeric s b rest hs token htagged =>
    rw [Bytes.tokens_of_trimLeft hs, List.find?_cons_of_pos htagged, Option.some_or]
  | case3 numeric s b rest hs token htagged ih =>
    have hnumeric (later : List Bytes) : (token :: later).find? isNumeric =
        (if isNumeric token then some token else none).or (later.find? isNumeric) := by
      rw [List.find?_cons]
      cases isNumeric token <;> rfl
    simp only [dite_eq_ite] at ih
    rw [ih, Bytes.tokens_of_trimLeft hs, List.find?_cons_of_neg htagged, hnumeric,
      Option.or_assoc]

theorem normalize_eq (text : Bytes) : normalize text =
    ((text.tokens.find? isTagged).or ((text.tokens.find? isNumeric).map (118 :: ·))).getD
      (118 :: text) := by
  rw [normalize, pick?_eq, Option.none_or]

theorem names_normalize (text : Bytes) : Names text (normalize text) := by
  rw [normalize_eq]
  cases htagged : text.tokens.find? isTagged with
  | some t => exact .tagged ((find?_eq_some_iff isTagged_iff).mp htagged)
  | none =>
    have hnone := (find?_eq_none_iff isTagged_iff).mp htagged
    cases hnumeric : text.tokens.find? isNumeric with
    | some t => exact .numeric hnone ((find?_eq_some_iff isNumeric_iff).mp hnumeric)
    | none =>
      have hnone' := (find?_eq_none_iff isNumeric_iff).mp hnumeric
      exact .whole fun ⟨u, hu, htells⟩ => htells.elim (hnone u hu) (hnone' u hu)

theorem Names.normalize_eq (h : Names text version) : normalize text = version := by
  rw [Version.normalize_eq]
  cases h with
  | tagged h =>
    rw [(find?_eq_some_iff isTagged_iff).mpr h]
    rfl
  | numeric hnone h =>
    rw [(find?_eq_none_iff isTagged_iff).mpr hnone, (find?_eq_some_iff isNumeric_iff).mpr h]
    rfl
  | whole hmute =>
    rw [(find?_eq_none_iff isTagged_iff).mpr fun u hu htagged => hmute ⟨u, hu, .inl htagged⟩,
      (find?_eq_none_iff isNumeric_iff).mpr fun u hu hnumeric => hmute ⟨u, hu, .inr hnumeric⟩]
    rfl

/-! ## Normal versions -/

theorem Names.head?_eq (h : Names text version) : version.head? = some 118 := by
  cases h with
  | tagged h =>
    obtain ⟨d, rest, rfl, -⟩ := h.holds
    rfl
  | numeric => rfl
  | whole => rfl

/-- A version taken from a token is a tagged word. -/
theorem Names.word_of_telling (h : Names text version) (htelling : Telling text) :
    Tagged version ∧ ∀ b ∈ version, isBlank b = false := by
  cases h with
  | tagged h => exact ⟨h.holds, fun b => Bytes.isBlank_of_mem_tokens h.mem⟩
  | numeric _ h =>
    exact ⟨tagged_cons_iff.mpr h.holds,
      List.forall_mem_cons.mpr ⟨rfl, fun b => Bytes.isBlank_of_mem_tokens h.mem⟩⟩
  | whole hmute => exact absurd htelling hmute

/-- A tagged word names itself. -/
theorem Names.self (htagged : Tagged t) (hword : ∀ b ∈ t, isBlank b = false) : Names t t := by
  have hne : t ≠ [] := by
    obtain ⟨d, rest, rfl, -⟩ := htagged
    exact List.cons_ne_nil _ _
  exact .tagged ⟨htagged, [], [], Bytes.tokens_eq_singleton hne hword, nofun⟩

/-- A `v` in front gives no token to tell by where there was none. -/
theorem not_telling_cons (h : ¬ Telling text) : ¬ Telling (118 :: text) := by
  rintro ⟨t, ht, htells⟩
  rw [Bytes.tokens_cons rfl] at ht
  -- The `v` is a token of its own, or lengthens the first one.
  by_cases hword : text.takeWhile (!isBlank ·) = []
  · have hrest : text.dropWhile (!isBlank ·) = text := by
      rw [← List.nil_append (text.dropWhile _), ← hword, List.takeWhile_append_dropWhile]
    rw [hword, hrest] at ht
    rcases List.mem_cons.mp ht with rfl | ht
    · rcases htells with htagged | hnumeric
      · obtain ⟨d, rest, hcons, -⟩ := tagged_cons_iff.mp htagged
        cases hcons
      · exact not_numeric_cons hnumeric
    · exact h ⟨t, ht, htells⟩
  · have htokens := Bytes.tokens_of_takeWhile hword
    rcases List.mem_cons.mp ht with rfl | ht
    · refine h ⟨_, htokens ▸ List.mem_cons_self, .inr ?_⟩
      exact tagged_cons_iff.mp (htells.resolve_right not_numeric_cons)
    · exact h ⟨t, htokens ▸ List.mem_cons_of_mem _ ht, htells⟩

/-- How a text is normalised. -/
structure Normalizes (text : Bytes) : Prop where
  exact : ∀ version, normalize text = version ↔ Names text version
  head : (normalize text).head? = some 118
  word : Telling text → ∀ b ∈ normalize text, isBlank b = false
  /-- A version told by a token is normal, and no other is. -/
  again : normalize (normalize text) = normalize text ↔ Telling text

/-- **A text is normalised to the version that it names.** -/
theorem normalized (text : Bytes) : Normalizes text where
  exact version := by
    constructor
    · rintro rfl
      exact names_normalize text
    · exact Names.normalize_eq
  head := (names_normalize text).head?_eq
  word htelling := ((names_normalize text).word_of_telling htelling).2
  again := by
    constructor
    · intro hagain
      by_contra hmute
      have honce : normalize text = 118 :: text := (Names.whole hmute).normalize_eq
      have htwice : normalize (118 :: text) = 118 :: 118 :: text :=
        (Names.whole (not_telling_cons hmute)).normalize_eq
      rw [honce, htwice] at hagain
      exact List.cons_ne_self _ _ hagain
    · intro htelling
      obtain ⟨htagged, hword⟩ := (names_normalize text).word_of_telling htelling
      exact (Names.self htagged hword).normalize_eq

/-- A tag further on wins over a number before it. -/
example : normalize (ascii " 8.0.36\t(x) v v23.1\n v9 ") = ascii "v23.1" := by decide +kernel

end Retry.Version
end Coordinator

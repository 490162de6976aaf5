import Coordinator.Config.Document

/-! # Block style

A configuration file is written in block style: mappings and sequences by indentation, one entry a
line, comments after a number sign.  `Block.read` gives the tree of such a text.  Scalars are plain,
or in single quotes that are doubled inside, or in double quotes with backslash escapes; keys are
plain words.  The rest of YAML (flow style, anchors, tags, multi-line scalars) is refused with the
number of the line. -/
namespace Coordinator.Config.Block

/-- A line that says something. -/
structure Line where
  number : Nat
  /-- The number of spaces before the text. -/
  indent : Nat
  /-- The text, without comment and blanks at the end. -/
  text : Bytes
deriving DecidableEq, Repr

/-- The text of a line before its comment.  A quote opens, and a comment starts, only at the start
of a word; `quote` is the quote that is open. -/
def uncomment (quote : Option UInt8) (atStart : Bool) : Bytes → Bytes
  | [] => []
  | b :: rest =>
    match quote with
    | some q => b :: uncomment (if b = q then none else some q) false rest
    | none =>
      if atStart && b == 35 then []
      else
        let opens := atStart && (b == 34 || b == 39)
        b :: uncomment (if opens then some b else none) (Byte.isBlank b) rest

/-- A line of a text; nothing for one that says nothing. -/
def line? (number : Nat) (s : Bytes) : Option Line :=
  let text := (uncomment none true (s.dropWhile (· == 32))).trimRight
  if text.isEmpty then none else some ⟨number, (s.takeWhile (· == 32)).length, text⟩

/-- The lines of a text that say something. -/
def lines (text : Bytes) : List Line :=
  (text.splitOn 10).zipIdx.filterMap fun (s, i) => line? (i + 1) s

/-- A line that is not in block style. -/
structure Problem where
  line : Nat
deriving DecidableEq, Repr

def Problem.text (p : Problem) : Bytes := ascii "cannot read line " ++ Decimal.ofNat p.line

/-! ## Scalars -/

/-- The text up to a double quote that ends it. -/
def unquoteDouble : Bytes → Option Bytes
  | [34] => some []
  | 92 :: 34 :: rest => (unquoteDouble rest).map (34 :: ·)
  | 92 :: 92 :: rest => (unquoteDouble rest).map (92 :: ·)
  | 92 :: 110 :: rest => (unquoteDouble rest).map (10 :: ·)
  | 92 :: 116 :: rest => (unquoteDouble rest).map (9 :: ·)
  | b :: rest => if b = 34 ∨ b = 92 then none else (unquoteDouble rest).map (b :: ·)
  | [] => none

/-- The text up to a single quote that ends it. -/
def unquoteSingle : Bytes → Option Bytes
  | [39] => some []
  | 39 :: 39 :: rest => (unquoteSingle rest).map (39 :: ·)
  | b :: rest => if b = 39 then none else (unquoteSingle rest).map (b :: ·)
  | [] => none

/-- The bytes that start something other than a plain scalar. -/
def indicators : Bytes := ascii "[]{}&*!|>%@,?"

/-- The node of a scalar. -/
def scalar? : Bytes → Option Node
  | 34 :: rest => (unquoteDouble rest).map (.scalar Document.quotedTag)
  | 39 :: rest => (unquoteSingle rest).map (.scalar Document.quotedTag)
  | s =>
    if s = ascii "null" ∨ s = ascii "~" then some .null
    else if s.head?.any (indicators.contains ·) then none
    else some (.scalar (ascii "?") s)

/-! ## Entries -/

/-- A byte of a key. -/
def isKeyByte (b : UInt8) : Bool := Byte.isAlphanumeric b || b == 95 || b == 45

/-- The key a line starts with and the value beside it, which may be empty. -/
def keyed? (s : Bytes) : Option (Node × Bytes) := do
  let word := s.takeWhile isKeyByte
  if word.isEmpty then none
  let key ← scalar? word
  match s.dropWhile isKeyByte with
  | [58] => return (key, [])
  | 58 :: 32 :: rest => return (key, Bytes.trimLeft rest)
  | _ => none

/-- What follows the dash of an item of a sequence, and how far it is moved in. -/
def item? : Bytes → Option (Nat × Bytes)
  | [45] => some (1, [])
  | 45 :: 32 :: rest => some (2 + (rest.takeWhile (· == 32)).length, rest.dropWhile (· == 32))
  | _ => none

/-- The node of an item, given how to read what is further in. -/
def readItem (inner : List Line → Except Problem Node) : List Line → Except Problem Node
  | [] => .ok .null
  | head :: rest => match item? head.text with
    | none => .error ⟨head.number⟩
    | some (_, []) => inner rest
    | some (offset, text) => inner (⟨head.number, head.indent + offset, text⟩ :: rest)

/-- The key and the node of an entry, given how to read what is further in. -/
def readEntry (inner : List Line → Except Problem Node) :
    List Line → Except Problem (Node × Node)
  | [] => .ok (.null, .null)
  | head :: rest => match keyed? head.text with
    | none => .error ⟨head.number⟩
    | some (key, []) => return (key, ← inner rest)
    | some (key, value) => match rest, scalar? value with
      | [], some node => .ok (key, node)
      | next :: _, some _ => .error ⟨next.number⟩
      | _, none => .error ⟨head.number⟩

/-- The node of some lines, the first of which is nowhere further in than the others.  Every level
further in has shorter text, so `bound` only has to be above the length of the text. -/
def readLines : (bound : Nat) → List Line → Except Problem Node
  | _, [] => .ok .null
  | 0, head :: _ => .error ⟨head.number⟩
  | bound + 1, head :: rest => do
    if let some l := rest.find? fun l => l.indent < head.indent then throw ⟨l.number⟩
    let groups := (head :: rest).splitBy fun _ l => head.indent < l.indent
    if (item? head.text).isSome then
      return .sequence (← groups.mapM (readItem (readLines bound)))
    else if (keyed? head.text).isSome then
      return .mapping (← groups.mapM (readEntry (readLines bound)))
    else match rest, scalar? head.text with
      | [], some node => return node
      | _, _ => throw ⟨head.number⟩

/-- The tree of a text. -/
def read (text : Bytes) : Except Problem Node := readLines (text.length + 1) (lines text)

end Coordinator.Config.Block

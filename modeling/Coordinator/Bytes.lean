/-! # Byte strings

Every text the coordinator handles — statements, xids, cells, messages — is a string of bytes,
here a list.  Character classes are those of ASCII: a byte above 127 is in none of them. -/
namespace Coordinator

/-- A string of bytes. -/
abbrev Bytes := List UInt8

/-- The bytes of a text constant, one per character. -/
def ascii (text : String) : Bytes := text.toList.map fun c => c.toNat.toUInt8

namespace Byte

/-- Space, tab, newline, vertical tab, form feed, carriage return. -/
def isBlank (b : UInt8) : Bool := b == 32 || (9 ≤ b && b ≤ 13)

/-- A decimal digit. -/
def isDigit (b : UInt8) : Bool := 48 ≤ b && b ≤ 57

/-- An ASCII letter. -/
def isLetter (b : UInt8) : Bool := (65 ≤ b && b ≤ 90) || (97 ≤ b && b ≤ 122)

/-- An ASCII letter or a digit. -/
def isAlphanumeric (b : UInt8) : Bool := isLetter b || isDigit b

/-- Printable ASCII, space included. -/
def isPrintable (b : UInt8) : Bool := 32 ≤ b && b < 127

/-- The upper-case form of a letter; any other byte is left alone. -/
def toUpper (b : UInt8) : UInt8 := if 97 ≤ b && b ≤ 122 then b - 32 else b

end Byte

namespace Bytes

/-- The upper-case form of a text. -/
def toUpper (s : Bytes) : Bytes := s.map Byte.toUpper

/-- The text without the blanks it starts with. -/
def trimLeft (s : Bytes) : Bytes := s.dropWhile Byte.isBlank

/-- The text without its longest tail of bytes in a class. -/
def dropTailWhile (p : UInt8 → Bool) (s : Bytes) : Bytes := (s.reverse.dropWhile p).reverse

/-- The text without the blanks it ends with. -/
def trimRight (s : Bytes) : Bytes := s.dropTailWhile Byte.isBlank

/-- The text without the blanks around it. -/
def trim (s : Bytes) : Bytes := trimRight (trimLeft s)

/-- `s.startsWith stem` holds when `stem` is an initial part of `s`. -/
def startsWith (s stem : Bytes) : Bool := stem.isPrefixOf s

/-- `s.hasPart part` holds when `part` occurs somewhere in `s`. -/
def hasPart : Bytes → Bytes → Bool
  | [], part => part.isEmpty
  | b :: s, part => startsWith (b :: s) part || hasPart s part

/-- The text before its first NUL, which is all of it that a reader of NUL-terminated text gets. -/
def untilNul (s : Bytes) : Bytes := s.takeWhile (· ≠ 0)

/-- Bytewise order: the first difference decides, and a text precedes its extensions. -/
def le : Bytes → Bytes → Bool
  | [], _ => true
  | _ :: _, [] => false
  | a :: s, b :: t => if a = b then le s t else a < b

/-- Texts with a separator between neighbours. -/
def join (separator : Bytes) : List Bytes → Bytes
  | [] => []
  | [s] => s
  | s :: rest => s ++ separator ++ join separator rest

end Bytes
end Coordinator

import Coordinator.Bytes

/-! # Server versions

A server describes its version in free text.  `Version.normalize` picks the token that names the
version: the first that is `v` and a digit, or else the first that starts with a digit. -/
namespace Coordinator.Retry.Version

/-- Whether a token is `v` followed by a digit. -/
def isTagged : Bytes → Bool
  | 118 :: b :: _ => Byte.isDigit b
  | _ => false

/-- Whether a token starts with a digit. -/
def isNumeric : Bytes → Bool
  | b :: _ => Byte.isDigit b
  | [] => false

/-- The token of the version in the rest of a text; `numeric` is the first token with a digit in
front met so far. -/
def pick? (numeric : Option Bytes) (s : Bytes) : Option Bytes :=
  match _h : s.trimLeft with
  | [] => numeric.map (118 :: ·)
  | b :: rest =>
    let token := b :: rest.takeWhile (!Byte.isBlank ·)
    if isTagged token then some token
    else pick? (numeric.or (if isNumeric token then some token else none))
      (rest.dropWhile (!Byte.isBlank ·))
termination_by s.length
decreasing_by
  have hs : s.trimLeft.length ≤ s.length := (List.dropWhile_sublist _).length_le
  have hr := (List.dropWhile_sublist (l := rest) (!Byte.isBlank ·)).length_le
  rw [_h, List.length_cons] at hs
  omega

/-- The version in a server's text, with a leading `v`; the whole text when no token names one. -/
def normalize (text : Bytes) : Bytes := (pick? none text).getD (118 :: text)

end Coordinator.Retry.Version

/-
Decoding and encoding of whole texts.

`Escape.decode` replaces every escape by what it denotes. `Escape.encode` writes a text so that decoding gives it back:
a backslash doubled, the seven control characters that have a letter by their letter, other controls by two digits, and
a number sign escaped where it would open an interpolation.
-/
import PercentLiteral.Escape.Forms

namespace PercentLiteral.Escape

/-- the text with its escapes decoded, from an offset on -/
def decodeFrom (names : CharNames) (start : Int) : Text → Except ReadError Text
  | [] => .ok []
  | c :: rest =>
    if c = .backslash then
      match read names rest with
      | .error r => .error (r.toError c start)
      | .ok s => (decodeFrom names (start + 1 + s.body.length) (rest.drop s.body.length)).map (s.value ++ ·)
    else (decodeFrom names (start + 1) rest).map (c :: ·)
termination_by t => t.length
decreasing_by all_goals (simp only [List.length_drop, List.length_cons]; omega)

/-- the text with its escapes decoded -/
def decode (names : CharNames) (t : Text) : Except ReadError Text := decodeFrom names 0 t

/-- the code points with a letter of their own, and the letter -/
def encodedLetters : List (Nat × Char) := [
  (0x5C, '\\'), (0x07, 'a'), (0x08, 'b'), (0x0C, 'f'), (0x0A, 'n'), (0x0D, 'r'), (0x09, 't'), (0x0B, 'v')]

/-- the spelling of one code point before the rest of its text -/
def encodedChar (c : CodePoint) (rest : Text) : Text :=
  match encodedLetters.find? fun e => e.1 = c.val with
  | some e => [.backslash, .ofChar e.2]
  | none =>
    if c = .hash ∧ rest.head? = some .braceOpen then [.backslash, c]
    else if c.val < 0x20 ∨ c.val = 0x7F then .backslash :: .ofChar 'x' :: Text.hex 2 c.val
    else [c]

/-- the spelling of a text that decodes to it -/
def encode : Text → Text
  | [] => []
  | c :: rest => encodedChar c rest ++ encode rest

end PercentLiteral.Escape

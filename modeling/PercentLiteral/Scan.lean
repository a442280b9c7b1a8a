/-
Scanning: from a template to its tokens.

What is recognized depends on the mode. A raw text is one literal. In raw words a backslash before a backslash or a blank
is an escape, and every other backslash is text. In the expanding modes every backslash begins an escape and every
opening mark an interpolation; the first that is refused is the error of the whole text.

Both scanners read their text from the left and put each code point that begins nothing before the tokens of the rest,
where it joins a literal.
-/
import PercentLiteral.Escape.Forms
import PercentLiteral.Interpolation
import PercentLiteral.Mode

namespace PercentLiteral.Scan

/-- the tokens of a text that begins at an offset, with escapes and interpolations -/
def expanding (names : CharNames) (start : Int) : Text → Except ReadError (List Token)
  | [] => .ok []
  | c :: rest =>
    if c = .backslash then
      match Escape.read names rest with
      | .error r => .error (r.toError c start)
      | .ok s =>
        (expanding names (start + 1 + s.body.length) (rest.drop s.body.length)).map (s.toToken c start :: ·)
    else if Interpolation.opens (c :: rest) then
      match Interpolation.body? 0 (rest.drop 1) with
      | none => .error (.template (Interpolation.unterminated (c :: rest) start))
      | some e =>
        (expanding names (start + e.length + 3) (rest.drop (e.length + 2))).map (.interpolation e start :: ·)
    else (expanding names (start + 1) rest).map (Token.cons c start)
termination_by t => t.length
decreasing_by all_goals (simp only [List.length_drop, List.length_cons]; omega)

/-- whether a backslash before this code point is an escape of raw words -/
def isWordEscape (c : CodePoint) : Bool := c = .backslash || c.isSpace

/-- the tokens of a text that begins at an offset, with the two escapes of raw words -/
def words (start : Int) : Text → List Token
  | [] => []
  | [c] => [.literal [c] start]
  | c :: d :: rest =>
    if c = .backslash ∧ isWordEscape d then .escape [c, d] [d] start :: words (start + 2) rest
    else Token.cons c start (words (start + 1) (d :: rest))

end Scan

/-- the tokens of a template in a mode -/
def scan (names : CharNames) (mode : Mode) (t : Text) : Except ReadError (List Token) :=
  match mode with
  | .raw => .ok (if t = [] then [] else [.literal t 0])
  | .rawWords => .ok (Scan.words 0 t)
  | .interpolated => Scan.expanding names 0 t
  | .interpolatedWords => Scan.expanding names 0 t

end PercentLiteral

/-
Tokens: the pieces of a template, in order and without gaps.

Each token knows where it starts. `Token.raw` is the text it was read from, so a token ends where its raw text does.
-/
import PercentLiteral.Text.Basic

namespace PercentLiteral

/-- a piece of a template -/
inductive Token where
  /-- text that stands for itself -/
  | literal (text : Text) (start : Int)
  /-- a backslash sequence and the text it denotes -/
  | escape (raw value : Text) (start : Int)
  /-- an expression between the interpolation marks -/
  | interpolation (expression : Text) (start : Int)
  deriving DecidableEq, Repr

/-- tokens that belong together in the result -/
abbrev Word := List Token

namespace Token

/-- the text that a token was read from -/
def raw : Token → Text
  | literal t _ => t
  | escape r _ _ => r
  | interpolation e _ => .hash :: .braceOpen :: e ++ [.braceClose]

/-- the offset of a token's first code point -/
def start : Token → Int
  | literal _ s => s
  | escape _ _ s => s
  | interpolation _ s => s

/-- the offset behind a token's last code point -/
def stop (t : Token) : Int := t.start + t.raw.length

/-- whether a token is an interpolation -/
def isInterpolation : Token → Bool
  | interpolation _ _ => true
  | _ => false

/-- tokens with one literal code point before them; it joins a literal that follows -/
def cons (c : CodePoint) (start : Int) : List Token → List Token
  | .literal t _ :: ts => .literal (c :: t) start :: ts
  | ts => .literal [c] start :: ts

end Token

end PercentLiteral

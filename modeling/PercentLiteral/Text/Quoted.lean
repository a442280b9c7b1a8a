/-
Quoted text, as messages and lists show it: between quotes, with the quote, the backslash, line breaks, tabs and
everything that is not printable written as escapes.

The single quote is used unless the text has one and has no double quote. Codes below 0x100 are written \xhh, below
0x10000 \uhhhh, all others \Uhhhhhhhh.
-/
import PercentLiteral.Text.Printable

namespace PercentLiteral.Text

/-- the quote that a text is shown between -/
def quoteFor (t : Text) : CodePoint :=
  if .quote ∈ t ∧ .doubleQuote ∉ t then .doubleQuote else .quote

/-- a code point by its number -/
def codeEscape (c : CodePoint) : Text :=
  if c.val < 0x100 then text "\\x" ++ hex 2 c.val
  else if c.val < 0x10000 then text "\\u" ++ hex 4 c.val
  else text "\\U" ++ hex 8 c.val

/-- a code point inside quotes -/
def quotedChar (q c : CodePoint) : Text :=
  if c = q ∨ c = .backslash then [.backslash, c]
  else if c = .newline then text "\\n"
  else if c = .carriageReturn then text "\\r"
  else if c.val = 0x09 then text "\\t"
  else if c.isPrintable then [c] else codeEscape c

/-- the text between quotes -/
def quoted (t : Text) : Text :=
  let q := quoteFor t
  q :: t.flatMap (quotedChar q) ++ [q]

/-- a byte inside quotes: printable ASCII as it is -/
def quotedByte (q : CodePoint) (b : UInt8) : Text :=
  let c := CodePoint.ofChar (Char.ofNat b.toNat)
  if c = q ∨ c = .backslash then [.backslash, c]
  else if c = .newline then text "\\n"
  else if c = .carriageReturn then text "\\r"
  else if c.val = 0x09 then text "\\t"
  else if 0x20 ≤ c.val ∧ c.val ≤ 0x7E then [c] else text "\\x" ++ hex 2 c.val

/-- a byte string between quotes, after the letter b -/
def quotedBytes (bs : List UInt8) : Text :=
  let q := quoteFor (bs.map fun b => CodePoint.ofChar (Char.ofNat b.toNat))
  text "b" ++ q :: bs.flatMap (quotedByte q) ++ [q]

end PercentLiteral.Text

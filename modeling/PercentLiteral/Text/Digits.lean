/-
Decimal digits of all scripts.

Each script has ten digits in a row, so the list of zeros tells which code points are digits and what they count.
`Text.numeral` spells a text in ASCII digits, without the blanks around a number. The information separators are no
such blanks, although they separate words.
-/
import PercentLiteral.Text.Basic

namespace PercentLiteral

namespace CodePoint

/-- the zeros, in ascending order -/
def zeros : List Nat := [
  0x30, 0x660, 0x6F0, 0x7C0, 0x966, 0x9E6, 0xA66, 0xAE6, 0xB66, 0xBE6, 0xC66, 0xCE6, 0xD66, 0xDE6, 0xE50, 0xED0, 0xF20,
  0x1040, 0x1090, 0x17E0, 0x1810, 0x1946, 0x19D0, 0x1A80, 0x1A90, 0x1B50, 0x1BB0, 0x1C40, 0x1C50, 0xA620, 0xA8D0, 0xA900,
  0xA9D0, 0xA9F0, 0xAA50, 0xABF0, 0xFF10, 0x104A0, 0x10D30, 0x11066, 0x110F0, 0x11136, 0x111D0, 0x112F0, 0x11450,
  0x114D0, 0x11650, 0x116C0, 0x11730, 0x118E0, 0x11950, 0x11C50, 0x11D50, 0x11DA0, 0x16A60, 0x16AC0, 0x16B50, 0x1D7CE,
  0x1D7D8, 0x1D7E2, 0x1D7EC, 0x1D7F6, 0x1E140, 0x1E2F0, 0x1E950, 0x1FBF0]

/-- what a decimal digit counts -/
def digitValue? (c : CodePoint) : Option Nat :=
  (zeros.find? fun z => z ≤ c.val ∧ c.val < z + 10).map fun z => c.val - z

/-- a decimal digit of any script -/
def isAnyDigit (c : CodePoint) : Bool := c.digitValue?.isSome

/-- the ASCII digit for a digit of any script; nothing else changes -/
def asciiDigit (c : CodePoint) : CodePoint := (c.digitValue?.bind fun d => ofNat? (0x30 + d)).getD c

/-- a blank that may stand around a number -/
def isBlankOfNumber (c : CodePoint) : Bool := c.isSpace && !(0x1C ≤ c.val && c.val ≤ 0x1F)

end CodePoint

/-- a number as it is written in ASCII digits, without the blanks around it -/
def Text.numeral (t : Text) : Text :=
  (((t.dropWhile CodePoint.isBlankOfNumber).reverse.dropWhile CodePoint.isBlankOfNumber).reverse).map
    CodePoint.asciiDigit

end PercentLiteral

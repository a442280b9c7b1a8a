/-
Binary floating-point numbers of 64 bits, as exact values.

A finite number is a sign, a mantissa and an exponent of two. `ofRatio` gives the number nearest to a quotient, ties to
the even mantissa; every finite number of the program comes from it, so equal values have equal mantissas and exponents
up to the sign of zero.
-/
import PercentLiteral.Text.Digits

namespace PercentLiteral

/-- a 64-bit floating-point number -/
inductive Binary64 where
  | nan
  | infinity (negative : Bool)
  /-- mantissa times two to the exponent -/
  | finite (negative : Bool) (mantissa : Nat) (exponent : Int)
  deriving DecidableEq, Repr

/-- the quotient rounded to the nearest whole number, a half to the even one; a zero divisor gives zero -/
def roundHalfEven (num den : Nat) : Nat :=
  let q := num / den
  let r := num % den
  if 2 * r < den ∨ (2 * r = den ∧ q % 2 = 0) ∨ den = 0 then q else q + 1

namespace Binary64

/-- zero with a sign -/
def zero (negative : Bool) : Binary64 := .finite negative 0 (-1074)

/-- the power of a base; one where the exponent is negative -/
def power (base : Nat) (exponent : Int) : Nat := base.pow exponent.toNat

/-- num / (den * 2 ^ e) rounded to a whole number -/
def mantissaAt (num den : Nat) (e : Int) : Nat :=
  roundHalfEven (num * power 2 (-e)) (den * power 2 e)

/-- the number nearest to a quotient -/
def ofRatio (negative : Bool) (num den : Nat) : Binary64 :=
  if num = 0 ∨ den = 0 then zero negative
  else
    let guess : Int := (num.log2 : Int) - (den.log2 : Int) - 53
    let fits := num * power 2 (-guess) / (den * power 2 guess) < 0x20000000000000
    let e : Int := max (if fits then guess else guess + 1) (-1074)
    let m := mantissaAt num den e
    let (m, e) := if m = 0x20000000000000 then (0x10000000000000, e + 1) else (m, e)
    if 971 < e then .infinity negative else .finite negative m e

/-- the exact quotient that a finite number is, without its sign -/
def ratio (mantissa : Nat) (exponent : Int) : Nat × Nat :=
  (mantissa * power 2 exponent, power 2 (-exponent))

/-- digits times ten to the exponent, rounded; exponents far beyond the range are settled without the power -/
def ofDecimal (negative : Bool) (digits : Nat) (exponent : Int) : Binary64 :=
  if digits = 0 then zero negative
  else if 400 < exponent then .infinity negative
  else if exponent + (digits.log2 : Int) < -400 then zero negative
  else ofRatio negative (digits * power 10 exponent) (power 10 (-exponent))

/-- whether the number is this integer -/
def equalsInt (x : Binary64) (i : Int) : Bool :=
  match x with
  | .finite negative m e =>
    let (num, den) := ratio m e
    num % den == 0 && (if negative then -((num / den : Nat) : Int) else ((num / den : Nat) : Int)) == i
  | _ => false

/-- equality of numbers: zeros are equal, and nothing equals a value that is no number -/
def same : Binary64 → Binary64 → Bool
  | .finite s m e, .finite s' m' e' => m == m' && e == e' && (s == s' || m == 0)
  | .infinity s, .infinity s' => s == s'
  | _, _ => false

/-- a text without its leading sign, and whether that was a minus -/
def unsigned : Text → Bool × Text
  | [] => (false, [])
  | c :: r => if c = .dash then (true, r) else if c.val = 0x2B then (false, r) else (false, c :: r)

/-- one or more decimal digits -/
def natural? (t : Text) : Option Nat :=
  if t.isEmpty || !t.all CodePoint.isDigit then none else some (Text.toNat t)

/-- a decimal number: sign, whole digits, optional fraction and exponent, between blanks -/
def read? (t : Text) : Option Binary64 :=
  let (negative, t) := unsigned (Text.lower (Text.numeral t))
  if t = text "nan" then some .nan
  else if t = text "inf" ∨ t = text "infinity" then some (.infinity negative)
  else do
    let (mantissa, exponent) := (Text.cut ⟨0x65, by decide⟩ t).getD (t, text "0")
    let (whole, fraction) := (Text.cut .dot mantissa).getD (mantissa, [])
    let (minus, power) := unsigned exponent
    let digits ← natural? (whole ++ fraction)
    let scale ← natural? power
    return ofDecimal negative digits ((if minus then -(scale : Int) else scale) - fraction.length)

end Binary64

end PercentLiteral

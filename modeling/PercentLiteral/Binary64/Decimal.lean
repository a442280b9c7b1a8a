/-
The decimal text of a floating-point number: the fewest digits that read back to it.

`shortest?` tries one digit, then two, and so on. On the grid of that many digits only the two neighbours of the value
can read back; the first grid with a neighbour that does wins, of two the nearer one, and of two equally near ones the
even one. `decimal` lays the digits out.
-/
import PercentLiteral.Binary64.Basic

namespace PercentLiteral.Binary64

/-- digits times ten to a power -/
structure Decimal where
  digits : Nat
  exponent : Int
  deriving DecidableEq, Repr

/-- the power of ten below which a positive quotient lies, and at whose tenth or above -/
def magnitude (num den : Nat) : Int :=
  if den ≤ num then ((Nat.toDigits 10 (num / den)).length : Int)
  else
    let d := (Nat.toDigits 10 (den / num)).length
    if den ≤ num * power 10 ((d : Int) - 1) then 2 - (d : Int) else 1 - (d : Int)

/-- the neighbours of a quotient on the grid of a power of ten, the nearer one first -/
def neighbours (num den : Nat) (grid : Int) : List Decimal :=
  let n := num * power 10 (-grid)
  let d := den * power 10 grid
  let below := n / d
  if n % d = 0 then [⟨below, grid⟩]
  else if roundHalfEven n d = below then [⟨below, grid⟩, ⟨below + 1, grid⟩]
  else [⟨below + 1, grid⟩, ⟨below, grid⟩]

/-- the decimal with the fewest digits that reads back to a positive number; seventeen digits always do -/
def shortest? (mantissa : Nat) (exponent : Int) : Option Decimal :=
  let (num, den) := ratio mantissa exponent
  let top := magnitude num den
  (List.range 17).findSome? fun (n : Nat) =>
    (neighbours num den (top - ((n : Int) + 1))).find? fun d =>
      ofDecimal false d.digits d.exponent = .finite false mantissa exponent

/-- positional when the leading digit stands for a power of ten from -4 to 15, otherwise with an exponent of at least
two digits; a positional number always shows a point -/
def layout (d : Decimal) : Text :=
  let ds := (Text.decimal d.digits).reverse.dropWhile (· = .zero) |>.reverse
  let point : Int := ((Text.decimal d.digits).length : Int) + d.exponent
  let zeros (n : Nat) : Text := List.replicate n .zero
  if -4 < point ∧ point ≤ 0 then text "0." ++ zeros (-point).toNat ++ ds
  else if 0 < point ∧ point ≤ 16 then
    let n := point.toNat
    if ds.length ≤ n then ds ++ zeros (n - ds.length) ++ text ".0"
    else ds.take n ++ [.dot] ++ ds.drop n
  else
    let e := point - 1
    ds.take 1 ++ (if ds.length ≤ 1 then [] else .dot :: ds.drop 1) ++
      text (if e < 0 then "e-" else "e+") ++ Text.padded 2 e.natAbs

/-- the text that a number is shown as -/
def decimal : Binary64 → Text
  | .nan => text "nan"
  | .infinity negative => text (if negative then "-inf" else "inf")
  | .finite negative m e =>
    (if negative then [.dash] else []) ++
      if m = 0 then text "0.0" else layout ((shortest? m e).getD ⟨m, 0⟩)

end PercentLiteral.Binary64

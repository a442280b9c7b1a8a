/-
Whole numbers from floating-point ones.
-/
import PercentLiteral.Failure

namespace PercentLiteral

/-- the whole part of a floating-point number, toward zero -/
def wholePart : Binary64 → Except Failure Int
  | .nan => .error (.saying "ValueError" (text "cannot convert float NaN to integer"))
  | .infinity _ => .error (.saying "OverflowError" (text "cannot convert float infinity to integer"))
  | .finite negative m e =>
    let (num, den) := Binary64.ratio m e
    let n : Int := (num / den : Nat)
    .ok (if negative then -n else n)

end PercentLiteral

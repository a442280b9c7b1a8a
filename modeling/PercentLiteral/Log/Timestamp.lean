/-
Timestamps: the moment of a log record, in universal time with three digits of the second's fraction.

A moment is a number of seconds since the start of 1970. Its fraction is taken times a million, rounded to a
floating-point number and then to a whole one, half to even; from the microseconds the milliseconds are cut off. Years
before the first and after 9999 cannot be written.
-/
import PercentLiteral.Failure

namespace PercentLiteral.Log

/-- whole seconds, and microseconds below a million -/
structure Moment where
  seconds : Int
  micros : Nat
  deriving DecidableEq, Repr

/-- a day of the calendar -/
structure Date where
  year : Int
  month : Nat
  day : Nat
  deriving DecidableEq, Repr

/-- the date of a day counted from the start of 1970; eras of 400 years begin in March -/
def dateOf (days : Int) : Date :=
  let z := days + 719468
  let era := z.fdiv 146097
  let ofEra := (z.fmod 146097).toNat
  let yearOfEra := (ofEra - ofEra / 1460 + ofEra / 36524 - ofEra / 146096) / 365
  let ofYear := ofEra - (365 * yearOfEra + yearOfEra / 4 - yearOfEra / 100)
  let m := (5 * ofYear + 2) / 153
  let month := if m < 10 then m + 3 else m - 9
  ⟨yearOfEra + era * 400 + (if month ≤ 2 then 1 else 0), month, ofYear - (153 * m + 2) / 5 + 1⟩

/-- a number of seconds too large for the system's clock -/
def outOfRange : Failure := .saying "OverflowError" (text "timestamp out of range for platform time_t")

/-- seconds that the system's clock can count -/
def inRange (seconds : Int) : Bool := -9223372036854775808 ≤ seconds && seconds < 9223372036854775808

/-- the moment of a number of seconds -/
def momentOf : Value → Except Failure Moment
  | .float .nan => .error (.saying "ValueError" (text "Invalid value NaN (not a number)"))
  | .float (.infinity _) => .error outOfRange
  | .float (.finite negative m e) =>
    let (num, den) := Binary64.ratio m e
    let micros := match Binary64.ofRatio false (num % den * 1000000) den with
      | .finite _ m e => let (n, d) := Binary64.ratio m e; roundHalfEven n d
      | _ => 0
    let whole : Int := (num / den : Nat)
    let total : Int := whole * 1000000 + micros
    let total := if negative then -total else total
    let seconds := total.fdiv 1000000
    if inRange seconds then .ok ⟨seconds, (total.fmod 1000000).toNat⟩ else .error outOfRange
  | v => match v.asInt? with
    | some s => if inRange s then .ok ⟨s, 0⟩ else .error outOfRange
    | none => .error (.saying "TypeError" (text "an integer is required (got type " ++ v.typeName ++ text ")"))

/-- the text of a moment -/
def Moment.written (m : Moment) : Except Failure Text :=
  let date := dateOf (m.seconds.fdiv 86400)
  let second := (m.seconds.fmod 86400).toNat
  if 2147483648 ≤ (date.year - 1900).natAbs then
    .error ⟨text "OSError", [.int 75, .str (text "Value too large for defined data type")]⟩
  else if date.year < 1 ∨ 9999 < date.year then
    .error (.saying "ValueError" (text "year " ++ Text.decimalInt date.year ++ text " is out of range"))
  else
    .ok (Text.padded 4 date.year.toNat ++ text "-" ++ Text.padded 2 date.month ++ text "-" ++ Text.padded 2 date.day ++
      text "T" ++ Text.padded 2 (second / 3600) ++ text ":" ++ Text.padded 2 (second / 60 % 60) ++ text ":" ++
      Text.padded 2 (second % 60) ++ text "." ++ Text.padded 3 (m.micros / 1000) ++ text "Z")

/-- the text of the moment of a number of seconds -/
def timestamp (created : Value) : Except Failure Text := do (← momentOf created).written

end PercentLiteral.Log

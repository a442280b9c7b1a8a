/-
The JSON form of a value, on one line.

Inside a string the double quote, the backslash and the codes below 0x20 are escaped, so the form holds no line break
whatever the value. Members keep their order; keys that are no strings are written as strings. Byte strings and
operations have no JSON form, and a tuple is no key.

An integer is written whatever its length. The interpreter that the program runs on refuses to write one of more than
4300 digits unless its limit is lifted; that limit is not modelled.
-/
import PercentLiteral.Value.Basic
import PercentLiteral.Binary64.Decimal

namespace PercentLiteral.Json

/-- why a value has no JSON form -/
inductive Fault where
  | value (typeName : Text)
  | key (typeName : Text)
  deriving DecidableEq, Repr

/-- the sentence about a value without JSON form -/
def Fault.message : Fault → Text
  | .value t => text "Object of type " ++ t ++ text " is not JSON serializable"
  | .key t => text "keys must be str, int, float, bool or None, not " ++ t

/-- a code point inside a string -/
def escaped (c : CodePoint) : Text :=
  if c = .doubleQuote then text "\\\""
  else if c = .backslash then text "\\\\"
  else if c = .newline then text "\\n"
  else if c = .carriageReturn then text "\\r"
  else if c.val = 0x09 then text "\\t"
  else if c.val = 0x08 then text "\\b"
  else if c.val = 0x0C then text "\\f"
  else if c.val < 0x20 then text "\\u" ++ Text.hex 4 c.val
  else [c]

/-- a string -/
def string (t : Text) : Text := .doubleQuote :: t.flatMap escaped ++ [.doubleQuote]

/-- a code point inside a string of ASCII only: code points beyond 0xFFFF as two surrogates -/
def escapedAscii (c : CodePoint) : Text :=
  if c.val < 0x7F then escaped c
  else if c.val < 0x10000 then text "\\u" ++ Text.hex 4 c.val
  else
    let n := c.val - 0x10000
    text "\\u" ++ Text.hex 4 (0xD800 + n / 0x400) ++ text "\\u" ++ Text.hex 4 (0xDC00 + n % 0x400)

/-- a string of ASCII only -/
def stringAscii (t : Text) : Text := .doubleQuote :: t.flatMap escapedAscii ++ [.doubleQuote]

/-- a floating-point number; the special ones have names -/
def number : Binary64 → Text
  | .nan => text "NaN"
  | .infinity negative => text (if negative then "-Infinity" else "Infinity")
  | x => x.decimal

/-- the name of a member -/
def memberName : Value → Except Fault Text
  | .str t => .ok (string t)
  | .float x => .ok (string (number x))
  | .bool b => .ok (string (text (if b then "true" else "false")))
  | .none => .ok (string (text "null"))
  | .int i => .ok (string (Text.decimalInt i))
  | v => .error (.key v.typeName)

mutual

/-- the JSON form of a value -/
def ofValue : Value → Except Fault Text
  | .none => .ok (text "null")
  | .bool b => .ok (text (if b then "true" else "false"))
  | .int i => .ok (Text.decimalInt i)
  | .float x => .ok (number x)
  | .str t => .ok (string t)
  | .list vs => do return text "[" ++ Text.joined (text ", ") (← ofValues vs) ++ text "]"
  | .tuple vs => do return text "[" ++ Text.joined (text ", ") (← ofValues vs) ++ text "]"
  | .dict es => do return text "\x7b" ++ Text.joined (text ", ") (← ofEntries es) ++ text "\x7d"
  | v => .error (.value v.typeName)

/-- the JSON forms of values, up to the first that has none -/
def ofValues : List Value → Except Fault (List Text)
  | [] => .ok []
  | v :: vs => do return (← ofValue v) :: (← ofValues vs)

/-- the members of an object -/
def ofEntries : List (Value × Value) → Except Fault (List Text)
  | [] => .ok []
  | (k, v) :: es => do return ((← memberName k) ++ text ": " ++ (← ofValue v)) :: (← ofEntries es)

end

/-- an array of strings -/
def strings (ts : List Text) : Text := text "[" ++ Text.joined (text ", ") (ts.map string) ++ text "]"

end PercentLiteral.Json

/-
Values that variables, replies and log contexts hold.

`Value.ofEntries` builds a dictionary: a key that is met again keeps its first place and its first spelling and takes
the last value. Truth values, integers and floating-point numbers that are equal as numbers are the same key.
-/
import PercentLiteral.Binary64.Basic

namespace PercentLiteral

/-- what an expression can name besides values: operations, and parts of the program -/
inductive Builtin where
  | length
  | toText
  | toInteger
  /-- gives the character of a code point -/
  | character
  /-- gives a module by its name -/
  | importer
  | module (name : Text)
  /-- decodes the escapes of a text -/
  | decodeEscapes
  /-- sets the program's logger up -/
  | setUp
  | logger
  deriving DecidableEq, Repr

/-- a value -/
inductive Value where
  | none
  | bool (b : Bool)
  | int (i : Int)
  | float (x : Binary64)
  | str (t : Text)
  | bytes (bs : List UInt8)
  | list (items : List Value)
  | tuple (items : List Value)
  | dict (entries : List (Value × Value))
  | builtin (op : Builtin)

namespace Value

instance : Inhabited Value := ⟨.none⟩

/-- the name of a value's type, as messages give it -/
def typeName : Value → Text
  | .none => text "NoneType"
  | .bool _ => text "bool"
  | .int _ => text "int"
  | .float _ => text "float"
  | .str _ => text "str"
  | .bytes _ => text "bytes"
  | .list _ => text "list"
  | .tuple _ => text "tuple"
  | .dict _ => text "dict"
  | .builtin .length => text "builtin_function_or_method"
  | .builtin .character => text "builtin_function_or_method"
  | .builtin .importer => text "builtin_function_or_method"
  | .builtin (.module _) => text "module"
  | .builtin .decodeEscapes => text "function"
  | .builtin .setUp => text "function"
  | .builtin .logger => text "Logger"
  | .builtin _ => text "type"

/-- the integer that a truth value or an integer counts as -/
def asInt? : Value → Option Int
  | .bool b => some (if b then 1 else 0)
  | .int i => some i
  | _ => Option.none

mutual

/-- whether two values are the same key of a dictionary -/
def sameKey : Value → Value → Bool
  | .none, .none => true
  | .str s, .str t => s == t
  | .bytes a, .bytes b => a == b
  | .tuple xs, .tuple ys => sameKeys xs ys
  | .float x, .float y => x.same y
  | .float x, w => match asInt? w with
    | some i => x.equalsInt i
    | Option.none => false
  | v, .float y => match asInt? v with
    | some i => y.equalsInt i
    | Option.none => false
  | v, w => match asInt? v, asInt? w with
    | some i, some j => i == j
    | _, _ => false

/-- whether two rows of values are the same, key by key -/
def sameKeys : List Value → List Value → Bool
  | [], [] => true
  | x :: xs, y :: ys => sameKey x y && sameKeys xs ys
  | _, _ => false

end

/-- the entries with one more: a known key takes the value where it stands, a new one goes to the end -/
def insertEntry (k v : Value) : List (Value × Value) → List (Value × Value)
  | [] => [(k, v)]
  | (k', v') :: es => if sameKey k' k then (k', v) :: es else (k', v') :: insertEntry k v es

/-- the dictionary with these entries, taken in order -/
def ofEntries (es : List (Value × Value)) : Value :=
  .dict (es.foldl (fun d e => insertEntry e.1 e.2 d) [])

end Value

end PercentLiteral

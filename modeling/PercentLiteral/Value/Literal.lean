/-
The text of a value.

`Value.literal` writes every value so that its kind shows: strings quoted, lists in brackets, a tuple of one with a
comma. `Value.display` leaves a string as it is and writes everything else as a literal; this is what an interpolation
puts into the result.
-/
import PercentLiteral.Value.Basic
import PercentLiteral.Binary64.Decimal
import PercentLiteral.Text.Quoted

namespace PercentLiteral

/-- an operation or a part of the program as a value; a function and a module have no place in it -/
def Builtin.literal : Builtin → Text
  | .length => text "<built-in function len>"
  | .toText => text "<class 'str'>"
  | .toInteger => text "<class 'int'>"
  | .character => text "<built-in function chr>"
  | .importer => text "<built-in function __import__>"
  | .module name => text "<module " ++ Text.quoted name ++ text ">"
  | .decodeEscapes => text "<function decode_escapes>"
  | .setUp => text "<function setup_base_logger>"
  | .logger => text "<Logger percentq (INFO)>"

namespace Value

mutual

/-- the value written out -/
def literal : Value → Text
  | .none => text "None"
  | .bool b => text (if b then "True" else "False")
  | .int i => Text.decimalInt i
  | .float x => x.decimal
  | .str t => Text.quoted t
  | .bytes bs => Text.quotedBytes bs
  | .list vs => text "[" ++ Text.joined (text ", ") (literals vs) ++ text "]"
  | .tuple [v] => text "(" ++ literal v ++ text ",)"
  | .tuple vs => text "(" ++ Text.joined (text ", ") (literals vs) ++ text ")"
  | .dict es => text "\x7b" ++ Text.joined (text ", ") (entryLiterals es) ++ text "\x7d"
  | .builtin op => op.literal

/-- each value written out -/
def literals : List Value → List Text
  | [] => []
  | v :: vs => literal v :: literals vs

/-- each entry written out as key and value -/
def entryLiterals : List (Value × Value) → List Text
  | [] => []
  | (k, v) :: es => (literal k ++ text ": " ++ literal v) :: entryLiterals es

end

/-- a string as it is, everything else written out -/
def display : Value → Text
  | .str t => t
  | v => v.literal

end Value

end PercentLiteral

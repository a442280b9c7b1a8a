/-
The value of an expression over variables.

Operands are evaluated from left to right. A name that an expression binds is known from there on to the end of the same
evaluation. Variables come before the built-in operations `len`, `str`, `int`, `chr` and `__import__`.

An expression can reach two functions of the program: the one that decodes escapes, which asks a table for the names of
characters, and the one that sets the logger up. An evaluation remembers the set-ups that it performed, whether or not it
gives a value in the end.
-/
import PercentLiteral.Escape.Coding
import PercentLiteral.Expression.Parsing
import PercentLiteral.Evaluator.Variables
import PercentLiteral.Log.Logger
import PercentLiteral.Value.Number

namespace PercentLiteral.Expression

/-- a failure with its sentence -/
def typeFault (message : Text) : Failure := .saying "TypeError" message

/-- a type name between quotes -/
def typeQuoted (v : Value) : Text := [.quote] ++ v.typeName ++ [.quote]

/-- the sign of an operation -/
def Operation.sign : Operation → Text
  | add => text "+"
  | subtract => text "-"
  | multiply => text "*"

/-- two operands that an operation does not go with -/
def unsupported (op : Operation) (a b : Value) : Failure :=
  typeFault (text "unsupported operand type(s) for " ++ op.sign ++ text ": " ++ typeQuoted a ++ text " and " ++
    typeQuoted b)

/-- the sum of two values: of numbers, or of two sequences of one type -/
def addValues (a b : Value) : Except Failure Value :=
  match a.asInt?, b.asInt?, a, b with
  | some i, some j, _, _ => .ok (.int (i + j))
  | _, _, .str s, .str t => .ok (.str (s ++ t))
  | _, _, .list xs, .list ys => .ok (.list (xs ++ ys))
  | _, _, .tuple xs, .tuple ys => .ok (.tuple (xs ++ ys))
  | _, _, .bytes xs, .bytes ys => .ok (.bytes (xs ++ ys))
  | _, _, .str _, w =>
    .error (typeFault (text "can only concatenate str (not \"" ++ w.typeName ++ text "\") to str"))
  | _, _, .list _, w =>
    .error (typeFault (text "can only concatenate list (not \"" ++ w.typeName ++ text "\") to list"))
  | _, _, .tuple _, w =>
    .error (typeFault (text "can only concatenate tuple (not \"" ++ w.typeName ++ text "\") to tuple"))
  | _, _, .bytes _, w => .error (typeFault (text "can't concat " ++ w.typeName ++ text " to bytes"))
  | _, _, v, w => .error (unsupported .add v w)

/-- the difference of two numbers -/
def subtractValues (a b : Value) : Except Failure Value :=
  match a.asInt?, b.asInt? with
  | some i, some j => .ok (.int (i - j))
  | _, _ => .error (unsupported .subtract a b)

/-- a sequence repeated; a number below one gives an empty one -/
def repeated {α : Type} (xs : List α) (n : Int) : List α :=
  if xs.isEmpty then [] else (List.replicate n.toNat xs).flatten

/-- the failure of a number that counts more items than any sequence can have -/
def tooLarge (kind : String) : Failure :=
  .saying kind (text "cannot fit 'int' into an index-sized integer")

/-- whether a number can count items, in either direction -/
def isIndexSized (n : Int) : Bool := -9223372036854775808 ≤ n && n < 9223372036854775808

/-- a sequence times a number -/
def repeatValue? (v : Value) (n : Int) : Option Value :=
  match v with
  | .str t => some (.str (repeated t n))
  | .list xs => some (.list (repeated xs n))
  | .tuple xs => some (.tuple (repeated xs n))
  | .bytes xs => some (.bytes (repeated xs n))
  | _ => none

/-- whether a value is a sequence that can be repeated -/
def isSequence (v : Value) : Bool := (repeatValue? v 0).isSome

/-- the product of two numbers, or of a sequence and a number -/
def multiplyValues (a b : Value) : Except Failure Value :=
  let bad (v : Value) : Except Failure Value :=
    .error (typeFault (text "can't multiply sequence by non-int of type " ++ typeQuoted v))
  let times (v : Value) (n : Int) : Except Failure Value :=
    if isSequence v && !isIndexSized n then .error (tooLarge "OverflowError")
    else (repeatValue? v n).elim (.error (unsupported .multiply a b)) .ok
  match a.asInt?, b.asInt? with
  | some i, some j => .ok (.int (i * j))
  | some i, none => times b i
  | none, some j => times a j
  | none, none =>
    if isSequence a then bad b else if isSequence b then bad a else .error (unsupported .multiply a b)

/-- an operation on two values -/
def operate : Operation → Value → Value → Except Failure Value
  | .add => addValues
  | .subtract => subtractValues
  | .multiply => multiplyValues

/-- a number with its sign changed -/
def negateValue (v : Value) : Except Failure Value :=
  match v with
  | .float (.finite s m e) => .ok (.float (.finite (!s) m e))
  | .float (.infinity s) => .ok (.float (.infinity (!s)))
  | .float .nan => .ok v
  | v => match v.asInt? with
    | some i => .ok (.int (-i))
    | none => .error (typeFault (text "bad operand type for unary -: " ++ typeQuoted v))

/-- the item at an index; a negative index counts from the end -/
def itemAt {α : Type} (xs : List α) (i : Int) : Option α :=
  let n := if i < 0 then i + xs.length else i
  if n < 0 then none else xs[n.toNat]?

/-- the item of a sequence, or the value of a key -/
def subscriptValue (v index : Value) : Except Failure Value :=
  let outOf (what : String) : Failure := .saying "IndexError" (text what ++ text "index out of range")
  let needsInt (what : String) : Failure :=
    typeFault (text what ++ text " indices must be integers or slices, not " ++ index.typeName)
  if isSequence v && index.asInt?.any (!isIndexSized ·) then .error (tooLarge "IndexError")
  else match v, index.asInt? with
  | .list xs, some i => (itemAt xs i).elim (.error (outOf "list ")) .ok
  | .list _, none => .error (needsInt "list")
  | .tuple xs, some i => (itemAt xs i).elim (.error (outOf "tuple ")) .ok
  | .tuple _, none => .error (needsInt "tuple")
  | .str t, some i => (itemAt t i).elim (.error (outOf "string ")) fun c => .ok (.str [c])
  | .str _, none => .error (typeFault (text "string indices must be integers, not " ++ typeQuoted index))
  | .bytes bs, some i => (itemAt bs i).elim (.error (outOf "")) fun b => .ok (.int b.toNat)
  | .bytes _, none => .error (needsInt "byte")
  | .dict es, _ => match es.find? fun e => Value.sameKey e.1 index with
    | some e => .ok e.2
    | none => .error ⟨text "KeyError", [index]⟩
  | .builtin .length, _ => .error (typeFault (typeQuoted v ++ text " object is not subscriptable"))
  | .builtin .toText, _ => .error (typeFault (text "type 'str' is not subscriptable"))
  | .builtin .toInteger, _ => .error (typeFault (text "type 'int' is not subscriptable"))
  | v, _ => .error (typeFault (typeQuoted v ++ text " object is not subscriptable"))

/-- a sequence from its end to its start -/
def reverseValue : Value → Except Failure Value
  | .str t => .ok (.str t.reverse)
  | .list xs => .ok (.list xs.reverse)
  | .tuple xs => .ok (.tuple xs.reverse)
  | .bytes bs => .ok (.bytes bs.reverse)
  | .dict _ => .error (typeFault (text "unhashable type: 'slice'"))
  | .builtin .toText => .error (typeFault (text "type 'str' is not subscriptable"))
  | .builtin .toInteger => .error (typeFault (text "type 'int' is not subscriptable"))
  | v => .error (typeFault (typeQuoted v ++ text " object is not subscriptable"))

/-- the integer that a text spells: sign and digits between blanks, single low lines between digits -/
def integerOf? (t : Text) : Option Int :=
  let (minus, ds) := Binary64.unsigned (Text.numeral t)
  let parts := Text.fields ⟨0x5F, by decide⟩ ds
  if parts.all fun p => !p.isEmpty && p.all CodePoint.isDigit then
    let n : Int := Text.toNat parts.flatten
    some (if minus then -n else n)
  else none

/-- the number of items of a value -/
def lengthOf (v : Value) : Except Failure Value :=
  match v with
  | .str t => .ok (.int t.length)
  | .bytes bs => .ok (.int bs.length)
  | .list xs => .ok (.int xs.length)
  | .tuple xs => .ok (.int xs.length)
  | .dict es => .ok (.int es.length)
  | v => .error (typeFault (text "object of type " ++ typeQuoted v ++ text " has no len()"))

/-- a value as an integer -/
def integerFrom (v : Value) : Except Failure Value :=
  let wrong (shown : Text) : Except Failure Value :=
    .error (.saying "ValueError" (text "invalid literal for int() with base 10: " ++ shown))
  match v, v.asInt? with
  | _, some i => .ok (.int i)
  | .str t, _ => (integerOf? t).elim (wrong v.literal) fun i => .ok (.int i)
  | .bytes bs, _ => (integerOf? (bs.map fun b => CodePoint.ofChar (Char.ofNat b.toNat))).elim (wrong v.literal)
      fun i => .ok (.int i)
  | .float x, _ => (wholePart x).map .int
  | v, _ => .error (typeFault
      (text "int() argument must be a string, a bytes-like object or a real number, not " ++ typeQuoted v))

/-- the character of a code point -/
def characterOf (v : Value) : Except Failure Value :=
  match v.asInt? with
  | none => .error (typeFault (typeQuoted v ++ text " object cannot be interpreted as an integer"))
  | some i =>
    if i < -2147483648 ∨ 2147483647 < i then
      .error (.saying "OverflowError" (text "Python int too large to convert to C int"))
    else if h : 0 ≤ i ∧ i.toNat < 0x110000 then .ok (.str [⟨i.toNat, h.2⟩])
    else .error (.saying "ValueError" (text "chr() arg not in range(0x110000)"))

/-- the text of a value with its escapes decoded; a value without items has none, and no other value but a text will do -/
def decodedValue (table : CharNames) (v : Value) : Except Failure Value :=
  match v, lengthOf v with
  | .str t, _ => match Escape.decode table t with
    | .ok decoded => .ok (.str decoded)
    | .error e => .error e.toFailure
  | _, .error f => .error f
  | _, .ok (.int 0) => .ok (.str [])
  | .bytes _, _ => .error (typeFault (text "argument should be integer or bytes-like object, not 'str'"))
  | v, _ => .error (.saying "AttributeError" (typeQuoted v ++ text " object has no attribute 'find'"))

/-- the modules that an expression can reach -/
def modules : List Text := [text "percentq", text "percentq.logging", text "percentq.logging.helpers"]

/-- whether a dotted name is that of a module -/
def isModule (name : Text) : Bool := modules.any (· = name)

/-- the first module of a dotted name, which must be that of a module -/
def importModule (name : Text) : Except Failure Value :=
  if isModule name then .ok (.builtin (.module ((Text.fields .dot name).headD [])))
  else .error (.saying "ModuleNotFoundError" (text "No module named " ++ Text.quoted name))

/-- the member of a value; a module has the modules below it, the first one the decoding of escapes, and the last one the
set-up of the logger -/
def memberOf (v : Value) (n : Text) : Except Failure Value :=
  let lacks (who : Text) : Except Failure Value :=
    .error (.saying "AttributeError" (who ++ text " has no attribute '" ++ n ++ [.quote]))
  match v with
  | .builtin (.module m) =>
    let below := m ++ .dot :: n
    if isModule below then .ok (.builtin (.module below))
    else if m = text "percentq" ∧ n = text "decode_escapes" then .ok (.builtin .decodeEscapes)
    else if m = text "percentq.logging.helpers" ∧ n = text "setup_base_logger" then .ok (.builtin .setUp)
    else lacks (text "module '" ++ m ++ [.quote])
  | v => lacks (typeQuoted v ++ text " object")

/-- the result of a call that does nothing else -/
def callValue (table : CharNames) (f : Value) (args : List Value) : Except Failure Value :=
  match f, args with
  | .builtin .length, [v] => lengthOf v
  | .builtin .length, vs =>
    .error (typeFault (text "len() takes exactly one argument (" ++ Text.decimal vs.length ++ text " given)"))
  | .builtin .toText, [] => .ok (.str [])
  | .builtin .toText, [v] => .ok (.str v.display)
  | .builtin .toText, vs =>
    .error (typeFault (text "str() takes at most 3 arguments (" ++ Text.decimal vs.length ++ text " given)"))
  | .builtin .toInteger, [] => .ok (.int 0)
  | .builtin .toInteger, [v] => integerFrom v
  | .builtin .toInteger, vs =>
    .error (typeFault (text "int() takes at most 2 arguments (" ++ Text.decimal vs.length ++ text " given)"))
  | .builtin .character, [v] => characterOf v
  | .builtin .character, vs =>
    .error (typeFault (text "chr() takes exactly one argument (" ++ Text.decimal vs.length ++ text " given)"))
  | .builtin .decodeEscapes, [v] => decodedValue table v
  | .builtin .decodeEscapes, [] =>
    .error (typeFault (text "decode_escapes() missing 1 required positional argument: 'text'"))
  | .builtin .decodeEscapes, vs => .error (typeFault
      (text "decode_escapes() takes 1 positional argument but " ++ Text.decimal vs.length ++ text " were given"))
  | .builtin .importer, [] => .error (typeFault (text "__import__() missing required argument 'name' (pos 1)"))
  | .builtin .importer, .str n :: _ => importModule n
  | .builtin .importer, v :: _ =>
    .error (typeFault (text "__import__() argument 1 must be str, not " ++ v.typeName))
  | .builtin .setUp, vs =>
    .error (typeFault (text "setup_base_logger() takes 0 positional arguments but " ++ Text.decimal vs.length ++
      text (if vs.length = 1 then " was given" else " were given")))
  | f, _ => .error (typeFault (typeQuoted f ++ text " object is not callable"))

/-- the built-in operation of a name -/
def builtin? (n : Text) : Option Builtin :=
  if n = text "len" then some .length
  else if n = text "str" then some .toText
  else if n = text "int" then some .toInteger
  else if n = text "chr" then some .character
  else if n = text "__import__" then some .importer
  else none

/-- the value of a name -/
def lookUp (scope : Variables) (n : Text) : Except Failure Value :=
  match scope.get? n, builtin? n with
  | some v, _ => .ok v
  | none, some b => .ok (.builtin b)
  | none, none => .error (.saying "NameError" (text "name " ++ [.quote] ++ n ++ text "' is not defined"))

/-- what an evaluation works on: the names that are known, and the set-ups of the logger so far -/
structure Memory where
  names : Variables
  setups : List Log.Setup := []

/-- an evaluation; what it did stays done when it fails -/
abbrev Evaluation := ExceptT Failure (StateM Memory)

/-- a result that leaves the memory alone -/
def settled {α : Type} : Except Failure α → Evaluation α
  | .ok a => return a
  | .error f => throw f

/-- calls a value -/
def invoke (table : CharNames) (f : Value) (args : List Value) : Evaluation Value :=
  match f, args with
  | .builtin .setUp, [] => do
    modify fun m => { m with setups := m.setups ++ [{}] }
    return .builtin .logger
  | f, vs => settled (callValue table f vs)

mutual

/-- the value of an expression -/
def eval (table : CharNames) : Expression → Evaluation Value
  | .constant v => return v
  | .name n => do settled (lookUp (← get).names n)
  | .display es => do return .list (← evalAll table es)
  | .bind n e => do
    let v ← eval table e
    modify fun m => { m with names := m.names.set n v }
    return v
  | .negate e => do settled (negateValue (← eval table e))
  | .apply op a b => do
    let v ← eval table a
    let w ← eval table b
    settled (operate op v w)
  | .subscript e i => do
    let v ← eval table e
    let w ← eval table i
    settled (subscriptValue v w)
  | .reversed e => do settled (reverseValue (← eval table e))
  | .member e n => do settled (memberOf (← eval table e) n)
  | .call f args => do
    let g ← eval table f
    let vs ← evalAll table args
    invoke table g vs

/-- the values of expressions, from left to right -/
def evalAll (table : CharNames) : List Expression → Evaluation (List Value)
  | [] => return []
  | e :: es => do
    let v ← eval table e
    let vs ← evalAll table es
    return v :: vs

end

/-- the reply to an expression over variables, and the set-ups of the logger that it performed -/
def reply (table : CharNames) (names : Variables) (expression : Text) : Reply × List Log.Setup :=
  match parse expression with
  | .error f => (.raised (.saying "SyntaxError" f.message), [])
  | .ok e =>
    let (result, memory) := Id.run ((ExceptT.run (eval table e)).run { names })
    match result with
    | .error f => (.raised f, memory.setups)
    | .ok v => (.text v.display, memory.setups)

end PercentLiteral.Expression

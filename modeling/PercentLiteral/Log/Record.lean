/-
Log records, and the lines they are written as.

A record has a message with places for its arguments; the places are filled when there are arguments. A plain line is
the level's name and the message. A JSON line is an object with the time, the level, the logger, the message and the
version, and with the context if that is a dictionary with entries.
-/
import PercentLiteral.Log.Timestamp
import PercentLiteral.Value.Json
import PercentLiteral.Value.Number

namespace PercentLiteral.Log

/-- the usual levels -/
def debug : Int := 10
def info : Int := 20
def warning : Int := 30
def error : Int := 40
def critical : Int := 50

/-- the name of a level -/
def levelName (level : Int) : Text :=
  if level = debug then text "DEBUG"
  else if level = info then text "INFO"
  else if level = warning then text "WARNING"
  else if level = error then text "ERROR"
  else if level = critical then text "CRITICAL"
  else if level = 0 then text "NOTSET"
  else text "Level " ++ Text.decimalInt level

/-- what is logged; the time is in seconds -/
structure Record where
  logger : Text
  level : Int
  message : Text
  args : List Value := []
  context : Option Value := none
  created : Value

namespace Record

/-- an argument at a place for a number -/
def numberText (v : Value) : Except Failure Text :=
  match v, v.asInt? with
  | _, some i => .ok (Text.decimalInt i)
  | .float x, none => (wholePart x).map Text.decimalInt
  | v, none => .error (.saying "TypeError" (text "%d format: a real number is required, not " ++ v.typeName))

/-- an argument at a place of a kind: as it is displayed, written out, or as a number -/
def argText (kind : CodePoint) (index : Nat) (v : Value) : Except Failure Text :=
  if kind = .ofChar 's' then .ok v.display
  else if kind = .ofChar 'r' then .ok v.literal
  else if kind = .ofChar 'd' then numberText v
  else .error (.saying "ValueError" (text "unsupported format character '" ++ [kind] ++ text "' (0x" ++
    Text.hex (if kind.val < 0x100 then 2 else 4) kind.val ++ text ") at index " ++ Text.decimal index))

/-- a message with its places filled, from an offset on, and the arguments that are left -/
def fill (index : Nat) (args : List Value) : Text → Except Failure (Text × List Value)
  | [] => .ok ([], args)
  | [c] => if c = .percent then .error (.saying "ValueError" (text "incomplete format")) else .ok ([c], args)
  | c :: k :: r =>
    if c ≠ .percent then (fill (index + 1) args (k :: r)).map fun p => (c :: p.1, p.2)
    else if k = .percent then (fill (index + 2) args r).map fun p => (c :: p.1, p.2)
    else match args with
      | [] => .error (.saying "TypeError" (text "not enough arguments for format string"))
      | v :: vs => match argText k (index + 1) v with
        | .error f => .error f
        | .ok t => (fill (index + 2) vs r).map fun p => (t ++ p.1, p.2)

/-- whether the arguments are one dictionary with entries, which need not be used up -/
def isTable : List Value → Bool
  | [.dict (_ :: _)] => true
  | _ => false

/-- the message of a record -/
def text (r : Record) : Except Failure Text :=
  if r.args = [] then .ok r.message
  else match fill 0 r.args r.message with
    | .error f => .error f
    | .ok (t, left) =>
      if left.isEmpty || isTable r.args then .ok t
      else .error (.saying "TypeError" (PercentLiteral.text "not all arguments converted during string formatting"))

/-- the context, if it is a dictionary with entries -/
def shownContext (r : Record) : Option (List (Value × Value)) :=
  match r.context with
  | some (.dict (e :: es)) => some (e :: es)
  | _ => none

end Record

/-- the form of the lines that a handler writes -/
inductive Format where
  | plain
  | json
  deriving DecidableEq, Repr

/-- a plain line -/
def plainLine (r : Record) : Except Failure Text := do return levelName r.level ++ text ": " ++ (← r.text)

/-- the version of the program -/
def version : Text := text "0.3.0"

/-- a JSON line of a program in a version -/
def jsonLine (version : Text) (r : Record) : Except Failure Text := do
  let time ← timestamp r.created
  let message ← r.text
  let members : List (Value × Value) := [
    (.str (text "ts"), .str time), (.str (text "level"), .str (levelName r.level)),
    (.str (text "module"), .str r.logger), (.str (text "msg"), .str message),
    (.str (text "version"), .str version)]
  let context := (r.shownContext.map fun es => ((.str (text "ctx"), .dict es) : Value × Value)).toList
  (Json.ofValue (.dict (members ++ context))).mapError fun f => .saying "TypeError" f.message

/-- the line of a record in a format -/
def Format.line (version : Text) (r : Record) : Format → Except Failure Text
  | plain => plainLine r
  | json => jsonLine version r

end PercentLiteral.Log

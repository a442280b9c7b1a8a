/-
The options of the command line, and how arguments spell them.

A long option may be cut short as long as no other begins that way, and takes its value after an equals sign or as the
next argument. Short options may stand together behind one dash, the last one with its value; an equals sign behind the
first of them is passed over. A value in the same argument that is two dashes and nothing else counts as no value.
Behind two dashes alone every argument is a plain one. Negative numbers, and arguments with a space in them, are plain
even with a dash in front.

All arguments are sorted first, so an ambiguous option is reported before anything else happens. Then they are taken in
order: help and errors end the reading where they are met, and what nothing takes is reported at the end.
-/
import PercentLiteral.Mode
import PercentLiteral.Text.Digits

namespace PercentLiteral.Command

/-- an option -/
inductive Flag where
  | help
  | mode
  | define
  | environment
  | strict
  | expressions
  | evaluator
  | output
  | json
  | jsonLogs
  deriving DecidableEq, Repr

namespace Flag

/-- all options, in the order in which they are described -/
def all : List Flag :=
  [help, mode, define, environment, strict, expressions, evaluator, output, json, jsonLogs]

/-- the spellings of an option -/
def spellings : Flag → List Text
  | help => [text "-h", text "--help"]
  | mode => [text "-m", text "--mode"]
  | define => [text "-e", text "--env"]
  | environment => [text "-E", text "--os-env"]
  | strict => [text "--strict"]
  | expressions => [text "--python"]
  | evaluator => [text "--evaluator"]
  | output => [text "-o", text "--output"]
  | json => [text "--json"]
  | jsonLogs => [text "--json-logs"]

/-- whether an option takes a value -/
def takesValue : Flag → Bool
  | mode => true
  | define => true
  | evaluator => true
  | output => true
  | _ => false

/-- how messages name an option -/
def label (f : Flag) : Text := Text.joined [.slash] f.spellings

/-- every spelling with its option -/
def table : List (Text × Flag) := all.flatMap fun f => f.spellings.map fun s => (s, f)

/-- the option of an exact spelling -/
def ofSpelling? (s : Text) : Option Flag := (table.find? fun e => e.1 = s).map (·.2)

end Flag

/-- what the arguments ask for; a mode and a setting of a variable may be given without a value -/
structure Options where
  file : Text := [.dash]
  mode : Option Mode := some .interpolated
  items : List (Option Text) := []
  environment : Bool := false
  strict : Bool := false
  expressions : Bool := false
  evaluator : Option Text := none
  output : Option Text := none
  json : Bool := false
  jsonLogs : Bool := false
  deriving DecidableEq, Repr

/-- why reading the arguments ends early -/
inductive Refusal where
  | help
  | ambiguous (argument : Text) (matching : List Text)
  | valueMissing (f : Flag)
  | valueUnwanted (f : Flag) (value : Text)
  | unknownMode (value : Text)
  | unrecognized (arguments : List Text)
  deriving DecidableEq, Repr

namespace Refusal

/-- the sentence about arguments that cannot be used; asking for help is no mistake -/
def message : Refusal → Text
  | help => []
  | ambiguous a ms => text "ambiguous option: " ++ a ++ text " could match " ++ Text.joined (text ", ") ms
  | valueMissing f => text "argument " ++ f.label ++ text ": expected one argument"
  | valueUnwanted f v => text "argument " ++ f.label ++ text ": ignored explicit argument " ++ Text.quoted v
  | unknownMode v =>
    text "argument " ++ Flag.mode.label ++ text ": invalid choice: " ++ Text.quoted v ++ text " (choose from " ++
      Text.joined (text ", ") (Mode.all.map fun m => Text.quoted m.letters) ++ text ")"
  | unrecognized as => text "unrecognized arguments: " ++ Text.joined [.space] as

end Refusal

/-- an argument, sorted -/
inductive Argument where
  | plain (t : Text)
  /-- the two dashes that end the options -/
  | dashes
  /-- an option as it is spelled, with what is written behind it in the same argument -/
  | flag (f : Flag) (spelling : Text) (attached : Option Text)
  | unknown (t : Text)
  deriving DecidableEq, Repr

namespace Argument

/-- the argument as it was given, where that is still asked for -/
def given : Argument → Text
  | plain t => t
  | dashes => [.dash, .dash]
  | flag _ s _ => s
  | unknown t => t

/-- whether an argument is an option, known or not -/
def isOption : Argument → Bool
  | flag .. => true
  | unknown _ => true
  | _ => false

/-- whether a text is one or more digits of any script, perhaps with a line feed behind them -/
def isDigits (t : Text) : Bool :=
  let rest := t.dropWhile CodePoint.isAnyDigit
  (t.head?.any CodePoint.isAnyDigit) && (rest = [] || rest = [.newline])

/-- whether a text is a negative number: digits, perhaps behind a point -/
def isNegativeNumber : Text → Bool
  | [] => false
  | c :: t => c = .dash && (isDigits t ||
    match t.dropWhile CodePoint.isAnyDigit with
    | d :: fraction => d = .dot && isDigits fraction
    | [] => false)

/-- the options that an argument may mean which is no option's exact spelling -/
def candidates (t : Text) : List (Text × Flag × Option Text) :=
  if (text "--").isPrefixOf t then
    let (start, attached) : Text × Option Text := match Text.cut .equals t with
      | some (s, v) => (s, some v)
      | none => (t, none)
    (Flag.table.filter fun e => start.isPrefixOf e.1).map fun e => (e.1, e.2, attached)
  else
    Flag.table.filterMap fun e =>
      if e.1 = t.take 2 then some (e.1, e.2, some (t.drop 2))
      else if t.isPrefixOf e.1 then some (e.1, e.2, none)
      else none

/-- sorts one argument -/
def sort (t : Text) : Except Refusal Argument :=
  if t.head? ≠ some .dash ∨ t = [.dash] then .ok (.plain t)
  else match Flag.ofSpelling? t with
    | some f => .ok (.flag f t none)
    | none =>
      let exact := do
        let (s, v) ← Text.cut .equals t
        let f ← Flag.ofSpelling? s
        return Argument.flag f s (some v)
      match exact with
      | some a => .ok a
      | none => match candidates t with
        | [(s, f, attached)] => .ok (.flag f s attached)
        | [] => .ok (if isNegativeNumber t ∨ .space ∈ t then .plain t else .unknown t)
        | several => .error (.ambiguous t (several.map (·.1)))

/-- sorts all arguments; behind two dashes alone all are plain -/
def sortAll : List Text → Except Refusal (List Argument)
  | [] => .ok []
  | t :: ts =>
    if t = [.dash, .dash] then .ok (.dashes :: ts.map .plain)
    else do return (← sort t) :: (← sortAll ts)

end Argument

/-- an option and its value, if it takes one -/
abbrev Setting := Flag × Option Text

/-- an option that no value is attached to: a value it takes is the next plain argument -/
def withNext (f : Flag) (rest : List Argument) : Except Refusal (Setting × List Argument) :=
  if f.takesValue then
    match rest with
    | .plain v :: rest => .ok ((f, some v), rest)
    | _ => .error (.valueMissing f)
  else .ok ((f, none), rest)

/-- an option with a value in the same argument -/
def withAttached (f : Flag) (value : Text) : Setting := (f, if value = [.dash, .dash] then none else some value)

/-- short options behind one dash, from the first one on, with what is written behind it -/
def unjoin (f : Flag) (rest : List Argument) : Text → Except Refusal (List Setting × List Argument)
  | [] => if f.takesValue then .ok ([withAttached f []], rest) else .error (.valueUnwanted f [])
  | c :: cs =>
    if f.takesValue then .ok ([withAttached f (c :: cs)], rest)
    else match Flag.ofSpelling? [.dash, c] with
      | none => .error (.valueUnwanted f (c :: cs))
      | some g => do
        let (settings, rest) ←
          if cs = [] then (withNext g rest).map fun p => ([p.1], p.2)
          else unjoin g rest cs
        return ((f, none) :: settings, rest)

/-- the settings of an option argument, and the arguments that are left -/
def readFlag (f : Flag) (spelling : Text) (attached : Option Text) (rest : List Argument) :
    Except Refusal (List Setting × List Argument) :=
  match attached with
  | none => (withNext f rest).map fun p => ([p.1], p.2)
  | some a =>
    if spelling.length = 2 then unjoin f rest a
    else if f.takesValue then .ok ([withAttached f a], rest)
    else .error (.valueUnwanted f a)

/-- the options after a setting -/
def apply (o : Options) : Setting → Except Refusal Options
  | (.help, _) => .error .help
  | (.mode, none) => .ok { o with mode := none }
  | (.mode, some v) =>
    match Mode.all.find? fun m => m.letters = v with
    | some m => .ok { o with mode := some m }
    | none => .error (.unknownMode v)
  | (.define, v) => .ok { o with items := o.items ++ [v] }
  | (.environment, _) => .ok { o with environment := true }
  | (.strict, _) => .ok { o with strict := true }
  | (.expressions, _) => .ok { o with expressions := true }
  | (.evaluator, v) => .ok { o with evaluator := v }
  | (.output, v) => .ok { o with output := v }
  | (.json, _) => .ok { o with json := true }
  | (.jsonLogs, _) => .ok { o with jsonLogs := true }

/-- where the reading of arguments stands: the options, whether a file was named, and what nothing took -/
structure Reading where
  options : Options := {}
  fileTaken : Bool := false
  strays : List Text := []

/-- takes the file name from the front of plain arguments, with the dashes around it -/
def takeFile (r : Reading) (args : List Argument) : Reading × List Argument :=
  if r.fileTaken then (r, args)
  else
    let named (t : Text) : Reading := { r with options := { r.options with file := t }, fileTaken := true }
    match args with
    | .dashes :: .plain t :: rest => (named t, rest)
    | .dashes :: rest => ({ r with fileTaken := true }, rest)
    | .plain t :: .dashes :: rest => (named t, rest)
    | .plain t :: rest => (named t, rest)
    | rest => ({ r with fileTaken := true }, rest)

/-- takes the arguments in order; the budget is their number, as each step takes one -/
def readAll : (budget : Nat) → Reading → List Argument → Except Refusal Reading
  | 0, r, args => .ok { r with strays := r.strays ++ args.map Argument.given }
  | n + 1, r, args =>
    if args.any Argument.isOption then
      match args with
      | [] => .ok r
      | .unknown t :: rest => readAll n { r with strays := r.strays ++ [t] } rest
      | .flag f s attached :: rest => do
        let (settings, rest) ← readFlag f s attached rest
        let options ← settings.foldlM apply r.options
        readAll n { r with options } rest
      | a :: rest =>
        if r.fileTaken then readAll n { r with strays := r.strays ++ [a.given] } rest
        else
          let (r, rest) := takeFile r (a :: rest)
          readAll n r rest
    else
      let (r, rest) := takeFile r args
      .ok { r with strays := r.strays ++ rest.map Argument.given }

/-- the options that arguments spell -/
def Options.parse (args : List Text) : Except Refusal Options := do
  let sorted ← Argument.sortAll args
  let r ← readAll (sorted.length + 1) {} sorted
  if r.strays = [] then return r.options else throw (.unrecognized r.strays)

end PercentLiteral.Command

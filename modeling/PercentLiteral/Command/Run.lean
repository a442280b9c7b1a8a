/-
A run of the command: what its arguments, environment, input and files make of it, on a host.

A run reads its options, sets the logging up, chooses the evaluator, reads the template, renders it, and writes the
result to the output file or prints it. The first thing that fails ends it, so bad variables are found before a missing
file, and nothing is written before the template is rendered. An output file is emptied before the result is encoded.

A rendering is told to the log in two parts: what was found in the template is told before the evaluator is called, and a
failed evaluation after it, as the evaluator may have changed the logger. `run` is a run that is called for its result;
`program` is a run that ends with an exit code, and says on the log why it failed.
-/
import PercentLiteral.Command.Help
import PercentLiteral.Command.Host
import PercentLiteral.Command.Options
import PercentLiteral.Value.Json

namespace PercentLiteral.Command

/-- what a run can read besides files: bytes, or text that is taken as it is -/
inductive Input where
  | bytes (bs : List UInt8)
  | given (t : Text)

/-- what a run is started with -/
structure Invocation where
  arguments : List Text
  environment : List (Text × Text) := []
  input : Input := .given []
  /-- whether the result is printed when it goes to no file -/
  prints : Bool := true
  /-- whether what is printed is encoded, so that no surrogate can be printed -/
  encodes : Bool := true
  /-- whether nothing can be printed, because nobody reads it -/
  isBroken : Bool := false
  /-- the time, in seconds, that log records carry -/
  now : Value

/-- what a run is started with, and the host that it is started on -/
structure Request extends Invocation where
  host : Host

/-- why a run gives no result -/
inductive Abort where
  /-- all that is to be said has been said -/
  | exit (code : Nat)
  | usage (message : Text)
  | template (e : TemplateError)
  | failure (f : Failure)

/-- a step of a run; what it did stays done when it fails -/
abbrev Run := ExceptT Abort (StateM Machine)

/-- the value of a variable of the environment; the last one of a name counts -/
def Invocation.setting? (q : Invocation) (name : String) : Option Text :=
  (q.environment.reverse.find? fun e => e.1 = text name).map (·.2)

/-- prints a text, if somebody reads it -/
def print (q : Request) (t : Text) : Run Unit :=
  if q.isBroken then throw (.failure ⟨text "BrokenPipeError", [.int 32, .str (text "Broken pipe")]⟩)
  else if q.encodes then
    match Text.encodeUtf8 t with
    | .ok _ => put t
    | .error e => throw (.failure (.saying "UnicodeEncodeError" e.message))
  else put t
where
  /-- adds a text to what was printed -/
  put (t : Text) : Run Unit := modify fun m => { m with printed := m.printed ++ t }

/-- adds a text to the error stream -/
def complain (t : Text) : Run Unit := modify fun m => { m with lines := m.lines ++ [(.standardError, t)] }

/-- logs a record -/
def logRecord (r : Log.Record) : Run Unit := modify fun m =>
  { m with lines := m.lines ++ m.logger.emit Log.version r }

/-- logs a message of the command -/
def log (q : Request) (level : Int) (message : Text) : Run Unit :=
  logRecord { logger := Log.loggerName (some (text "cli")), level, message, created := q.now }

/-- the options; help and wrong arguments end the run -/
def readOptions (q : Request) : Run Options :=
  match Options.parse q.arguments with
  | .ok o => return o
  | .error .help => do
    print q help
    throw (.exit 0)
  | .error e => do
    complain (usage ++ text "percentq: error: " ++ e.message ++ [.newline])
    throw (.exit 2)

/-- the form of log lines that a run asks for -/
def logFormat (q : Request) (o : Options) : Log.Format :=
  if o.jsonLogs ∨ q.setting? "PERCENTQ_JSON_LOGS" = some (text "1") then .json else .plain

/-- sets the logging up, unless the last run set it up in the same form -/
def configureLogging (format : Log.Format) (m : Machine) : Machine :=
  if m.configured = some format then m
  else { m with logger := m.logger.setup { format }, configured := some format }

/-- how messages write the value of an option that was given without one -/
def noValue : Text := text "[]"

/-- the mode of a run; only an option without a value names none -/
def chooseMode (o : Options) : Except Abort Mode :=
  match o.mode with
  | some m => .ok m
  | none => .error (.failure (.saying "ValueError" (text "unknown render mode " ++ noValue)))

/-- a setting of a variable: the name before the first equals sign, and the value behind it -/
def readItem (item : Option Text) : Except Abort (Text × Value) :=
  match item.bind (Text.cut .equals) with
  | some (name, value) => .ok (name, .str value)
  | none => .error (.usage (text "--env expects VAR=VAL (got '" ++ item.getD noValue ++ text "')"))

/-- the variables that interpolations see: those of the environment if asked for, and settings over them -/
def outerVariables (q : Request) (o : Options) : Except Abort Variables := do
  let items ← o.items.mapM readItem
  let outer := if o.environment then q.environment.map fun e => (e.1, Value.str e.2) else []
  return Variables.ofList (outer ++ items)

/-- the reference to an evaluator, from the arguments or else from the environment -/
def reference (q : Request) (o : Options) : Text :=
  Text.strip (((o.evaluator.filter (· ≠ [])).orElse fun _ => q.setting? "PERCENTQ_EVALUATOR").getD [])

/-- the object of a reference as an evaluator; a class stands for an instance of it -/
def callable {κ : Type} (ref : Text) (o : Reference.Object κ) : Except Abort κ :=
  let refused : Abort := .usage (text "evaluator " ++ Text.quoted ref ++ text " is not callable")
  match o.nature with
  | .function _ c => .ok c
  | .typeForm _ _ c => .ok c
  | .class _ _ make => match make with
    | .error f => .error (.failure f)
    | .ok (some c) => .ok c
    | .ok none => .error refused
  | .enumeration _ => .error (.failure (.saying "TypeError"
      (text "EnumType.__call__() missing 1 required positional argument: 'value'")))
  | .instance _ (some c) => .ok c
  | _ => .error refused

/-- the evaluator that a reference leads to -/
def loadEvaluator {κ : Type} (reg : Reference.Registry κ) (ref : Text) : Except Abort κ :=
  match reg.load ref with
  | .ok o => callable ref o
  | .error e =>
    if e.isImport then
      .error (.usage (text "failed to load evaluator " ++ Text.quoted ref ++ text ": " ++ e.message))
    else .error (.failure e.toFailure)

/-- a result as a step that changes nothing -/
def liftExcept {α : Type} : Except Abort α → Run α
  | .ok a => return a
  | .error e => throw e

/-- the evaluator of a run: a reference goes before expressions, and expressions before plain variables -/
def chooseEvaluator (q : Request) (o : Options) : Run (Chosen q.host) := do
  let ref := reference q o
  if ref ≠ [] then
    modify (q.host.visit ref)
    let code ← liftExcept (loadEvaluator q.host.registry ref)
    log q Log.debug (text "using evaluator " ++ Text.quoted ref)
    return .code code
  else
    let vars ← liftExcept (outerVariables q o)
    return if o.expressions then .code (q.host.expressions vars) else .lookup vars o.strict

/-- the text of bytes, with line feeds for line breaks of all kinds -/
def decoded (bs : List UInt8) : Run Text :=
  match Text.decodeUtf8 bs with
  | .ok t => return t.unifyNewlines
  | .error e => throw (.failure (.saying "UnicodeDecodeError" e.message))

/-- the template, and the file that it comes from -/
def readTemplate (q : Request) (file : Text) : Run (Text × Option Text) :=
  if file = [.dash] then
    match q.input with
    | .given t => return (t, none)
    | .bytes bs => do return (← decoded bs, none)
  else do
    match (← get).files.content? file with
    | .ok (some bs) => return (← decoded bs, some file)
    | .ok none => throw (.usage (text "template file " ++ normalizePath file ++ text " not found"))
    | .error e => throw (.failure (e.toFailure file))

/-- logs what a rendering tells -/
def logEvents (q : Request) (events : List Event) : Run Unit :=
  events.forM fun e => logRecord (Log.eventRecord e q.now)

/-- how a rendering ends: with its result, or with its error, which is logged with its place if it is in the template -/
def conclude (q : Request) (t : Text) (path : Option Text) : Except Stop Rendered → Run Rendered
  | .ok r => return r
  | .error (.template e) => do
    log q Log.error (e.report t path)
    throw (.template e)
  | .error .noEvaluator => throw (.failure (.saying "ValueError" Render.noEvaluatorMessage))
  | .error (.interrupted f) => throw (.failure f)

/-- whose trace messages a run wants, as its logger stands -/
def tracing (q : Request) (l : Log.Logger) : Tracing :=
  Tracing.shared ((q.setting? "PERCENTQ_TRACE").getD []) (l.isEnabled Log.debug)

/-- does a part of a rendering on the machine, with the evaluator of the run, and logs what it tells -/
def onMachine {α : Type} (q : Request) (ev : Option (Chosen q.host))
    (r : Option (Evaluator (Chosen q.host × Machine)) → Rendering (Chosen q.host × Machine) α) :
    Run (Except Stop α) := do
  let chosen := ev.getD (.lookup [] false)
  let (result, status) := Render.run (r (ev.map fun _ => Chosen.evaluator q.host)) (chosen, ← get)
  set status.state.2
  logEvents q status.events
  return result

/-- renders a template: what is found in it is logged before the evaluator is called -/
def renderTemplate (q : Request) (mode : Mode) (ev : Option (Chosen q.host)) (t : Text) (path : Option Text) :
    Run Rendered := do
  let wanted := tracing q (← get).logger
  match ← onMachine q ev fun ev => Render.arrange q.host.names wanted ev mode t with
  | .error e => conclude q t path (.error e)
  | .ok parts => conclude q t path (← onMachine q ev fun ev => Render.complete ev parts)

/-- the text that is put out for a result -/
def format (json : Bool) : Rendered → Text
  | .text t => if json then Json.string t ++ [.newline] else t
  | .words ws => if json then Json.strings ws ++ [.newline] else ws.flatMap fun w => w ++ [.newline]

/-- writes a text to a file, which is emptied first -/
def writeFile (path content : Text) : Run Unit := do
  put []
  match Text.encodeUtf8 content with
  | .ok bs => put bs
  | .error e => throw (.failure (.saying "UnicodeEncodeError" e.message))
where
  /-- writes bytes to the file -/
  put (bs : List UInt8) : Run Unit := do
    match (← get).files.write path bs with
    | .ok files => modify fun m => { m with files }
    | .error e => throw (.failure (e.toFailure path))

/-- puts the result out: to the output file if there is one, else by printing it -/
def deliver (q : Request) (o : Options) (result : Text) : Run Unit :=
  match o.output.filter (· ≠ []) with
  | some path => do
    writeFile path result
    log q Log.info (text "wrote " ++ path)
  | none => if q.prints then print q result else return ()

/-- a run that is called for its result -/
def run (q : Request) : Run Text := do
  let o ← readOptions q
  modify (configureLogging (logFormat q o))
  let mode ← liftExcept (chooseMode o)
  let ev ← if mode.expands then some <$> chooseEvaluator q o else pure none
  let (t, path) ← readTemplate q o.file
  let result := format o.json (← renderTemplate q mode ev t path)
  deliver q o result
  return result

/-- how a program ends: with an exit code, or with a failure that is shown to those who debug -/
inductive Ending where
  | exit (code : Nat)
  | raised (f : Failure)

/-- what a program says about an aborted run, and how it ends -/
def finish (q : Request) : Abort → Run Ending
  | .exit code => return .exit code
  | .template _ => return .exit 1
  | .usage message => do
    log q Log.error message
    return .exit 2
  | .failure f => do
    if f.kind = text "KeyboardInterrupt" then
      log q Log.error (text "Interrupted by user.")
      return .exit 130
    else if f.kind = text "BrokenPipeError" then return .exit 0
    else if f.stopsProgram ∨ q.setting? "DEBUG" = some (text "1") then return .raised f
    else
      log q Log.error (text "Unexpected error: " ++ f.message)
      return .exit 1

/-- a run that ends with an exit code -/
def program (q : Request) : Run Ending :=
  tryCatch (do
    let _ ← run q
    pure (.exit 0)) (finish q)

/-- runs from a machine, with nothing said yet -/
def Run.from {α : Type} (r : Run α) (m : Machine) : Except Abort α × Machine :=
  Id.run ((ExceptT.run r).run { m with printed := [], lines := [] })

end PercentLiteral.Command

/-
Rendering: a template, a mode and an evaluator give a text or a list of words.

The whole template is scanned first and arranged in parts, so an error in it is found before the evaluator is called.
Then the parts are resolved from left to right; the first failure ends the rendering. A word that resolves to nothing is
left out.

A rendering is a program over the evaluator's state and the list of trace messages, which stops with an error or gives
a result. `Tracing` says whose trace messages are wanted; the message about a failed evaluator is always written.
-/
import PercentLiteral.Evaluator.Variables
import PercentLiteral.Scan
import PercentLiteral.Words

namespace PercentLiteral

/-- what a rendering tells its logger -/
inductive Event where
  | scanned (mode : Mode) (tokens : Nat)
  | split (words : Nat)
  | evaluatorFailed (expression : Text) (offset : Int) (cause : Failure)

/-- whose trace messages are wanted -/
structure Tracing where
  scanner : Bool := false
  renderer : Bool := false
  deriving DecidableEq, Repr

/-- tracing for a scanner and a renderer with one logger: asked for by "1", and let through by the logger -/
def Tracing.shared (setting : Text) (enabled : Bool) : Tracing :=
  let wanted := setting == text "1" && enabled
  ⟨wanted, wanted⟩

/-- why a rendering gives no result -/
inductive Stop where
  | template (e : TemplateError)
  | noEvaluator
  /-- a failure that is passed on as it is: one that stops the program, or one of reading -/
  | interrupted (f : Failure)

/-- a rendered template -/
inductive Rendered where
  | text (t : Text)
  | words (ws : List Text)
  deriving DecidableEq, Repr

namespace Render

/-- the evaluator's state and the messages so far -/
structure Status (σ : Type) where
  state : σ
  events : List Event := []

end Render

/-- a step of a rendering -/
abbrev Rendering (σ α : Type) := ExceptT Stop (StateM (Render.Status σ)) α

namespace Render

variable {σ : Type}

/-- tells the logger something -/
def tell (e : Event) : Rendering σ Unit := modify fun s => { s with events := s.events ++ [e] }

/-- tells the logger something if that is wanted -/
def trace (wanted : Bool) (e : Event) : Rendering σ Unit := if wanted then tell e else return ()

/-- the error of an evaluator that replied with a value that is no text -/
def wrongType (typeName : Text) : Failure :=
  .saying "TypeError" (text "evaluator returned " ++ typeName ++ text ", expected str")

/-- the error of a failed evaluation -/
def evaluationError (expression : Text) (start : Int) (cause : Failure) : Stop :=
  .template ⟨.evaluation cause, expression, start⟩

/-- asks the evaluator for an expression -/
def evaluate (ev : Evaluator σ) (expression : Text) (start : Int) : Rendering σ Text := do
  let s ← get
  let (reply, state) := ev s.state expression
  set { s with state }
  match reply with
  | .text t => return t
  | .value v => throw (evaluationError expression start (wrongType v.typeName))
  | .object typeName => throw (evaluationError expression start (wrongType typeName))
  | .raised f =>
    tell (.evaluatorFailed expression start f)
    throw (evaluationError expression start f)
  | .interrupted f => throw (.interrupted f)

/-- the text that a token becomes -/
def resolve (ev : Option (Evaluator σ)) : Token → Rendering σ Text
  | .literal t _ => return t
  | .escape _ v _ => return v
  | .interpolation e start => match ev with
    | some ev => evaluate ev e start
    | none => throw .noEvaluator

/-- the text that a row of tokens becomes -/
def resolveAll (ev : Option (Evaluator σ)) (tokens : List Token) : Rendering σ Text := do
  return (← tokens.mapM (resolve ev)).flatten

/-- the tokens of a template; one with interpolations is refused when there is no evaluator -/
def tokens (names : CharNames) (tracing : Tracing) (ev : Option (Evaluator σ)) (mode : Mode) (t : Text) :
    Rendering σ (List Token) := do
  match scan names mode t with
  | .error (.template e) => throw (.template e)
  | .error (.failure f) => throw (.interrupted f)
  | .ok ts =>
    trace tracing.scanner (.scanned mode ts.length)
    if mode.expands && ev.isNone && ts.any Token.isInterpolation then throw .noEvaluator
    return ts

/-- the parts of a template that are resolved: one row of tokens, or words -/
inductive Parts where
  | row (tokens : List Token)
  | words (ws : List Word)

/-- the parts of a template in a mode -/
def arrange (names : CharNames) (tracing : Tracing) (ev : Option (Evaluator σ)) (mode : Mode) (t : Text) :
    Rendering σ Parts := do
  let ts ← tokens names tracing ev mode t
  if mode.splits then
    let words := splitWords ts
    trace tracing.renderer (.split words.length)
    return .words words
  else return .row ts

/-- what the parts of a template become -/
def complete (ev : Option (Evaluator σ)) : Parts → Rendering σ Rendered
  | .row ts => do return .text (← resolveAll ev ts)
  | .words ws => do
    let resolved ← ws.mapM (resolveAll ev)
    return .words (resolved.filter (· ≠ []))

/-- the rendering of a template in a mode -/
def render (names : CharNames) (tracing : Tracing) (ev : Option (Evaluator σ)) (mode : Mode) (t : Text) :
    Rendering σ Rendered := do
  let parts ← arrange names tracing ev mode t
  complete ev parts

/-- the rendering of a renderer that was made for an evaluator or for variables -/
def made (names : CharNames) (tracing : Tracing) (ev : Option (Evaluator σ)) (vars : Variables) (mode : Mode) (t : Text) :
    Rendering σ Rendered :=
  render names tracing (some (Evaluator.orLookup ev vars)) mode t

/-- runs a rendering from a state of the evaluator -/
def run {α : Type} (r : Rendering σ α) (state : σ) : Except Stop α × Status σ := Id.run ((ExceptT.run r).run ⟨state, []⟩)

/-- the sentence about a template that needs an evaluator and has none -/
def noEvaluatorMessage : Text := text "template contains interpolations but no evaluator was given"

end Render

namespace Event

/-- the part of the program that tells an event: the scanner or the renderer -/
def isScanner : Event → Bool
  | scanned _ _ => true
  | _ => false

/-- whether an event is told on the way, before any evaluation -/
def isTrace : Event → Bool
  | evaluatorFailed .. => false
  | _ => true

/-- the details of an event, by name -/
def context : Event → List (Value × Value)
  | scanned mode n => [(.str (text "mode"), .str mode.letters), (.str (text "tokens"), .int n)]
  | split n => [(.str (text "words"), .int n)]
  | evaluatorFailed .. => []

/-- the message of an event -/
def message : Event → Text
  | e@(scanned ..) => text "scanned template | ctx=" ++ (Value.dict e.context).literal
  | e@(split _) => text "split template | ctx=" ++ (Value.dict e.context).literal
  | evaluatorFailed x offset cause =>
    text "evaluator failed on " ++ Text.quoted x ++ text " at offset " ++ Text.decimalInt offset ++ text ": " ++
      cause.message

end Event

end PercentLiteral

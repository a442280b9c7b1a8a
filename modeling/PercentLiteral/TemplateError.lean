/-
Template errors: what is wrong with a template, where it starts, and the offending text.

Every fault but a failed evaluation may carry a detail; the detail of a failed evaluation is its cause. The message
shows the snippet clipped to forty code points, quoted, and the detail unless it is empty.

The reading of a template ends with such an error, or with a failure of something that reading uses and that is no error
of the template: `ReadError`.
-/
import PercentLiteral.Failure
import PercentLiteral.Location

namespace PercentLiteral

/-- what is wrong -/
inductive Fault where
  | general (detail : Option Text)
  | unterminatedInterpolation (detail : Option Text)
  | invalidEscape (detail : Option Text)
  | malformedEscape (detail : Option Text)
  | evaluation (cause : Failure)

namespace Fault

/-- the name of a fault's kind -/
def kind : Fault → Text
  | general _ => text "TemplateError"
  | unterminatedInterpolation _ => text "UnterminatedInterpolation"
  | invalidEscape _ => text "InvalidEscapeSequence"
  | malformedEscape _ => text "MalformedEscape"
  | evaluation _ => text "InterpolationEvaluationError"

/-- what is said beside the kind -/
def detail : Fault → Option Text
  | general d => d
  | unterminatedInterpolation d => d
  | invalidEscape d => d
  | malformedEscape d => d
  | evaluation cause => some (cause.kind ++ text ": " ++ cause.message)

end Fault

/-- an error in a template; the snippet of a failed evaluation is its expression -/
structure TemplateError where
  fault : Fault
  snippet : Text
  offset : Int

namespace TemplateError

/-- texts up to forty code points as they are, longer ones cut and marked with dots -/
def clip (t : Text) : Text := if t.length ≤ 40 then t else t.take 37 ++ text "..."

/-- the detail in parentheses, if there is one -/
def parenthesized (detail : Option Text) : Text :=
  match detail with
  | none => []
  | some [] => []
  | some d => text " (" ++ d ++ text ")"

/-- the sentence about an error -/
def message (e : TemplateError) : Text :=
  e.fault.kind ++ text " at offset " ++ Text.decimalInt e.offset ++ text ": " ++ Text.quoted (clip e.snippet) ++
    parenthesized e.fault.detail

/-- where in its template an error starts -/
def locate (e : TemplateError) (t : Text) (path : Option Text) : Location := .ofOffset t e.offset path

/-- the line that is logged about an error in a template: with its place, and the snippet in full -/
def report (e : TemplateError) (t : Text) (path : Option Text) : Text :=
  e.fault.kind ++ text " at " ++ (e.locate t path).label ++ text " (offset " ++ Text.decimalInt e.offset ++
    text "): " ++ Text.quoted e.snippet ++ parenthesized e.fault.detail

/-- an error as the failure of an evaluator that met it -/
def toFailure (e : TemplateError) : Failure := ⟨e.fault.kind, [.str e.message]⟩

end TemplateError

/-- why a template cannot be read: what is wrong with it, or what failed while it was read -/
inductive ReadError where
  | template (e : TemplateError)
  | failure (f : Failure)

/-- an error of reading as the failure of an evaluator that met it -/
def ReadError.toFailure : ReadError → Failure
  | template e => e.toFailure
  | failure f => f

end PercentLiteral

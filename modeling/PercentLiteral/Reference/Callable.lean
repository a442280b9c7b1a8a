/-
What of the program can be called with an expression: its functions, and the instances of its evaluators.

All reply from the expression alone. One that evaluates expressions may set the logger up on the way.
-/
import PercentLiteral.Expression.Evaluation
import PercentLiteral.Reference.Object

namespace PercentLiteral.Reference

/-- something that can be called with an expression -/
inductive Callable where
  /-- gives the expression back -/
  | identity
  | encode
  | decode
  /-- splits raw words, which is no text -/
  | rawWords
  /-- scans, which gives no text -/
  | tokens
  /-- writes a JSON string of ASCII only -/
  | json
  /-- looks a name up among no variables -/
  | lookup
  | expressions (vars : Variables)
  /-- loads what the expression refers to -/
  | load
  /-- gives a value of a type that is no text -/
  | typed (typeName : Text)
  /-- always fails -/
  | fail (f : Failure)

namespace Callable

/-- the reply of a computation that reads a template -/
def replyOf (r : Except ReadError Reply) : Reply :=
  match r with
  | .ok reply => reply
  | .error e => .raised e.toFailure

/-- the reply that returns an object -/
def replyOfLoaded {κ : Type} (r : Except LoadError (Object κ)) : Reply :=
  match r with
  | .error e => .raised e.toFailure
  | .ok o => match o.nature with
    | .constant v => .ofValue v
    | _ => .object o.typeName

/-- the reply to an expression, and the set-ups of the logger on the way; references are to objects of a registry -/
def reply (names : CharNames) (reg : Registry Callable) (e : Text) : Callable → Reply × List Log.Setup
  | identity => (.text e, [])
  | encode => (.text (Escape.encode e), [])
  | decode => (replyOf ((Escape.decode names e).map .text), [])
  | rawWords => (.object (text "list"), [])
  | tokens => (replyOf ((scan names .interpolated e).map fun _ => .object (text "list")), [])
  | json => (.text (Json.stringAscii e), [])
  | lookup => (Variables.reply [] false e, [])
  | expressions vars => Expression.reply names vars e
  | load => (replyOfLoaded (reg.load e), [])
  | typed n => (.object n, [])
  | fail f => (.ofFailure f, [])

end Callable

end PercentLiteral.Reference

/-
Evaluators: what a renderer asks for the value of an expression.

An evaluator is a function of its state and an expression; it replies and goes on from a new state, so a reply may
depend on every earlier call. A reply is a text, some other value, a failure, or a failure that stops the program.
-/
import PercentLiteral.Failure

namespace PercentLiteral

/-- the reply to one expression -/
inductive Reply where
  | text (t : Text)
  /-- a value of another type -/
  | value (v : Value)
  /-- something that is no value, known by its type alone -/
  | object (typeName : Text)
  | raised (f : Failure)
  | interrupted (f : Failure)

namespace Reply

/-- the reply that returns a value -/
def ofValue : Value → Reply
  | .str t => .text t
  | v => .value v

/-- the reply that raises a failure -/
def ofFailure (f : Failure) : Reply := if f.stopsProgram then .interrupted f else .raised f

end Reply

/-- an evaluator with states of a type -/
abbrev Evaluator (σ : Type) := σ → Text → Reply × σ

namespace Evaluator

/-- an evaluator whose replies depend on the expression alone -/
def pure (f : Text → Reply) : Evaluator Unit := fun _ e => (f e, ())

/-- the evaluator that also keeps a list of the expressions it was asked for -/
def recording {σ : Type} (ev : Evaluator σ) : Evaluator (σ × List Text) := fun s e =>
  let r := ev s.1 e
  (r.1, r.2, s.2 ++ [e])

end Evaluator

end PercentLiteral

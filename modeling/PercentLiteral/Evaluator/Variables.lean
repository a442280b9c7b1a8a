/-
Variables: names with values, and the evaluator that looks names up.

An expression is stripped of blanks and taken as a name. A name without a value is the empty text, or fails when the
look-up is strict.
-/
import PercentLiteral.Evaluator.Basic

namespace PercentLiteral

/-- names with values; each name occurs once -/
abbrev Variables := List (Text × Value)

namespace Variables

/-- the value of a name -/
def get? (vars : Variables) (name : Text) : Option Value := (vars.find? fun e => e.1 = name).map (·.2)

/-- the variables with a name set to a value; a known name keeps its place -/
def set (name : Text) (v : Value) : Variables → Variables
  | [] => [(name, v)]
  | e :: es => if e.1 = name then (name, v) :: es else e :: set name v es

/-- the variables that a list of settings leaves, the last one of a name counting -/
def ofList (es : List (Text × Value)) : Variables := es.foldl (fun vars e => set e.1 e.2 vars) []

/-- the reply to an expression that names a variable -/
def reply (vars : Variables) (strict : Bool) (expression : Text) : Reply :=
  let name := Text.strip expression
  match vars.get? name with
  | some v => .text v.display
  | none => if strict then .raised (.missingKey name) else .text []

end Variables

/-- the evaluator that is given, or else one that looks variables up -/
def Evaluator.orLookup {σ : Type} (ev : Option (Evaluator σ)) (vars : Variables) : Evaluator σ :=
  ev.getD fun s e => (vars.reply false e, s)

end PercentLiteral

/-
The host of a run: all that a run uses and that is not decided by the program.

A run may be told to take its evaluator from a module, or to let expressions be evaluated. The code behind both is not
the program's: it may reply anything, turn into other code, and do anything to the machine on the way. `Host` says which
modules there are, what looking one up does, and what calls do; and it has the table of the names of characters. All
that is proved of runs is proved for every host, with a condition on its code where there is one.
-/
import PercentLiteral.CharNames.Basic
import PercentLiteral.Command.Machine
import PercentLiteral.Evaluator.Variables
import PercentLiteral.Reference.Object

namespace PercentLiteral.Command

/-- modules, code, and names of characters -/
structure Host where
  /-- what can be called with an expression -/
  Code : Type
  names : CharNames
  /-- the modules that references can name -/
  registry : Reference.Registry Code
  /-- the machine after a reference was looked up: its module is imported, and an instance made of a class -/
  visit : Text → Machine → Machine
  /-- the code that evaluates expressions over variables -/
  expressions : Variables → Code
  /-- a call with an expression: the reply, what the code is from then on, and the machine after it -/
  call : Code → Text → Machine → Reply × Code × Machine

/-- the host without modules and names, with one piece of code, which gives every expression back -/
def Host.bare : Host where
  Code := Unit
  names := .none
  registry := []
  visit _ m := m
  expressions _ := ()
  call _ e m := (.text e, (), m)

/-- the evaluator of a run: it looks variables up, or it is code of the host -/
inductive Chosen (h : Host) where
  | lookup (vars : Variables) (strict : Bool)
  | code (c : h.Code)

/-- what a run's evaluator replies on a machine, which calls of code may change -/
def Chosen.evaluator (h : Host) : Evaluator (Chosen h × Machine)
  | (.lookup vars strict, m), e => (vars.reply strict e, .lookup vars strict, m)
  | (.code c, m), e =>
    let (reply, c, m) := h.call c e m
    (reply, .code c, m)

end PercentLiteral.Command

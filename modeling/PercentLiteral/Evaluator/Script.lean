/-
Scripted evaluators: replies that are laid down before the first call, and given in order.

The last reply is given again to every call after it. A reply may repeat the expression inside a text, at every place
of a mark.
-/
import PercentLiteral.Evaluator.Basic

namespace PercentLiteral.Script

/-- one laid-down reply -/
inductive Line where
  | give (v : Value)
  /-- the text with the expression at every place of the mark -/
  | repeating (pattern : Text)
  | fail (f : Failure)

/-- the place of the expression in a repeating reply -/
def mark : CodePoint := ⟨0x40, by decide⟩

/-- the reply of a line to an expression -/
def Line.reply (expression : Text) : Line → Reply
  | give v => .ofValue v
  | repeating p => .text (p.flatMap fun c => if c = mark then expression else [c])
  | fail f => .ofFailure f

/-- the evaluator that gives the replies in order; its state is the lines that are left, the last one for ever -/
def evaluator : Evaluator (List Line)
  | [], _ => (.value .none, [])
  | [l], e => (l.reply e, [l])
  | l :: m :: ls, e => (l.reply e, m :: ls)

end PercentLiteral.Script

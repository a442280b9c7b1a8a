/-
The machine that runs work on: its files, its logger, and what was said.

The files and the logger are what runs leave to each other, and so is the form of log lines that the last run set up.
What was printed and what went to the streams of the log is of the present run alone.
-/
import PercentLiteral.FileTree
import PercentLiteral.Log.Logger

namespace PercentLiteral.Command

/-- files, logging, and what was said -/
structure Machine where
  files : FileTree := []
  logger : Log.Logger := {}
  /-- the form of log lines that the last run set up -/
  configured : Option Log.Format := none
  printed : Text := []
  lines : List (Log.Stream × Text) := []

/-- what went to the error stream -/
def Machine.complaints (m : Machine) : Text :=
  (m.lines.filter fun l => l.1 = .standardError).flatMap (·.2)

end PercentLiteral.Command

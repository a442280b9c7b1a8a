/-
Places in a template: the line and column of an offset, and the label that messages show.

Lines and columns count from one, and only a line feed ends a line. An offset before the text is its start and an
offset behind it is its end. `normalizePath` is the spelling in which a file is named.
-/
import PercentLiteral.Text.Basic

namespace PercentLiteral

/-- a file name in normal form: no empty and no dot component, and exactly two leading slashes kept apart from one -/
def normalizePath (t : Text) : Text :=
  let slashes := (t.takeWhile (· = .slash)).length
  let root := if slashes = 0 then [] else if slashes = 2 then [.slash, .slash] else [.slash]
  let parts := (Text.fields .slash t).filter fun p => p ≠ [] ∧ p ≠ [.dot]
  if root = [] ∧ parts = [] then [.dot] else root ++ Text.joined [.slash] parts

/-- a place; what is not known is left out of its label -/
structure Location where
  path : Option Text := none
  line : Option Int := none
  column : Option Int := none
  deriving DecidableEq, Repr

namespace Location

/-- the offset moved into the text -/
def clamp (t : Text) (offset : Int) : Nat := min offset.toNat t.length

/-- the line and column behind some text -/
def after (before : Text) : Nat × Nat :=
  (before.count .newline + 1, (before.reverse.takeWhile (· ≠ .newline)).length + 1)

/-- the line and column of an offset -/
def ofOffset (t : Text) (offset : Int) (path : Option Text) : Location :=
  let p := after (t.take (clamp t offset))
  { path, line := some p.1, column := some p.2 }

/-- the label of a place -/
def label (l : Location) : Text :=
  let parts := (l.path.map normalizePath).toList ++
    (l.line.map fun n => text "line " ++ Text.decimalInt n).toList ++
    (l.column.map fun n => text "col " ++ Text.decimalInt n).toList
  if parts = [] then text "<template>" else Text.joined [.colon] parts

end Location

end PercentLiteral

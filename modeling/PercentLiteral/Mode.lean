/-
The four modes of a percent literal: whether the result is split into words, and whether escapes and interpolations are
expanded.
-/
import PercentLiteral.Text.Quoted

namespace PercentLiteral

/-- a mode -/
inductive Mode where
  | raw
  | interpolated
  | rawWords
  | interpolatedWords
  deriving DecidableEq, Repr

namespace Mode

/-- all modes -/
def all : List Mode := [.raw, .interpolated, .rawWords, .interpolatedWords]

/-- the letters of a mode -/
def letters : Mode → Text
  | raw => text "q"
  | interpolated => text "qq"
  | rawWords => text "w"
  | interpolatedWords => text "ww"

/-- the long name of a mode -/
def name : Mode → Text
  | raw => text "RAW"
  | interpolated => text "INTERPOLATED"
  | rawWords => text "RAW_WORDS"
  | interpolatedWords => text "INTERPOLATED_WORDS"

/-- whether the result is a list of words -/
def splits : Mode → Bool
  | raw => false
  | interpolated => false
  | rawWords => true
  | interpolatedWords => true

/-- whether escapes are decoded and interpolations evaluated -/
def expands : Mode → Bool
  | raw => false
  | interpolated => true
  | rawWords => false
  | interpolatedWords => true

/-- the mode with these letters or this long name, in any case and between blanks -/
def ofName? (t : Text) : Option Mode :=
  let key := Text.lower (Text.strip t)
  all.find? fun m => key = m.letters ∨ key = Text.lower m.name

/-- the sentence about a name that is no mode's -/
def unknownMessage (name : Option Text) : Text :=
  text "unknown render mode " ++ (name.map Text.quoted).getD (text "None")

end Mode

end PercentLiteral

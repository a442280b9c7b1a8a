/-
Words: the parts of a token stream between runs of blanks.

Only blanks in literals separate words. Escapes and interpolations belong to the word around them whatever they denote.
The stream is read from the right. At each point it is known which word is still open at the left, perhaps an empty
one, and which words are complete behind it; a blank closes the open word.
-/
import PercentLiteral.Token

namespace PercentLiteral.Words

/-- the words of the part of a stream that has been read: the one that is open at the left, and those behind it -/
structure Partition where
  first : Word
  later : List Word
  deriving DecidableEq, Repr

/-- the words, with the open one closed; an empty one is no word -/
def Partition.words (p : Partition) : List Word :=
  if p.first = [] then p.later else p.first :: p.later

/-- a code point that is no blank -/
def isPlain (c : CodePoint) : Bool := !c.isSpace

/-- a literal before a partition: its pieces between blanks become literals of their own -/
def putLiteral (start : Int) (t : Text) (p : Partition) : Partition :=
  let piece := t.takeWhile isPlain
  let literal : Word := if piece = [] then [] else [.literal piece start]
  match h : t.dropWhile isPlain with
  | [] => ⟨literal ++ p.first, p.later⟩
  | _ :: rest => ⟨literal, (putLiteral (start + piece.length + 1) rest p).words⟩
termination_by t.length
decreasing_by
  have := (List.dropWhile_suffix isPlain (l := t)).length_le
  rw [h] at this
  simp only [List.length_cons] at this
  omega

/-- a token before a partition -/
def put (t : Token) (p : Partition) : Partition :=
  match t with
  | .literal s start => putLiteral start s p
  | t => ⟨t :: p.first, p.later⟩

end Words

/-- the words of a token stream -/
def splitWords (tokens : List Token) : List Word :=
  (tokens.foldr Words.put ⟨[], []⟩).words

end PercentLiteral

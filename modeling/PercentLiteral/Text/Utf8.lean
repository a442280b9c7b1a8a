/-
The UTF-8 form of text, strict in both directions.

Encoding fails at the first run of surrogates and names that whole run. Decoding fails at the first byte that starts no
character or does not continue one, and names the bytes of the broken character that were read before it.
-/
import PercentLiteral.Text.Basic

namespace PercentLiteral.Text

/-- why bytes are no text -/
inductive Utf8Fault where
  | badStart
  | badContinuation
  | endOfData
  deriving DecidableEq, Repr

/-- where bytes stop being text: the position and number of the bad bytes, and the first of them -/
structure Utf8Error where
  fault : Utf8Fault
  position : Nat
  count : Nat
  byte : UInt8
  deriving DecidableEq, Repr

/-- where text cannot be encoded: the first surrogate of a run, its position, and the length of the run -/
structure SurrogateError where
  position : Nat
  count : Nat
  code : CodePoint
  deriving DecidableEq, Repr

/-- the bytes of one code point -/
def utf8Bytes (c : CodePoint) : List UInt8 :=
  let n := c.val
  let tail (unit : Nat) : UInt8 := .ofNat (0x80 + n / unit % 0x40)
  if n < 0x80 then [.ofNat n]
  else if n < 0x800 then [.ofNat (0xC0 + n / 0x40), tail 1]
  else if n < 0x10000 then [.ofNat (0xE0 + n / 0x1000), tail 0x40, tail 1]
  else [.ofNat (0xF0 + n / 0x40000), tail 0x1000, tail 0x40, tail 1]

/-- the bytes of a text, unless it holds a surrogate -/
def encodeUtf8 (t : Text) : Except SurrogateError (List UInt8) :=
  match t.dropWhile (!·.isSurrogate) with
  | [] => .ok (t.flatMap utf8Bytes)
  | c :: r => .error ⟨(t.takeWhile (!·.isSurrogate)).length, ((c :: r).takeWhile (·.isSurrogate)).length, c⟩

/-- a byte that continues a character -/
def isContinuation (b : UInt8) : Bool := 0x80 ≤ b && b ≤ 0xBF

/-- whether a second byte may follow a first one: no overlong form, no surrogate, no code beyond the last -/
def maySecond (first second : UInt8) : Bool :=
  isContinuation second &&
    !(first == 0xE0 && second < 0xA0) && !(first == 0xED && 0xA0 ≤ second) &&
    !(first == 0xF0 && second < 0x90) && !(first == 0xF4 && 0x90 ≤ second)

/-- how many bytes a character has that starts with this one -/
def sequenceLength? (b : UInt8) : Option Nat :=
  if b < 0x80 then some 1
  else if 0xC2 ≤ b ∧ b ≤ 0xDF then some 2
  else if 0xE0 ≤ b ∧ b ≤ 0xEF then some 3
  else if 0xF0 ≤ b ∧ b ≤ 0xF4 then some 4
  else none

/-- the bytes after the first that continue its character, at most as many as are wanted -/
def continuationOf (first : UInt8) (wanted : Nat) (rest : List UInt8) : List UInt8 :=
  match rest with
  | [] => []
  | b :: r => if maySecond first b then ((b :: r).take wanted).takeWhile isContinuation else []

/-- the code of a complete sequence -/
def sequenceCode (first : UInt8) (tail : List UInt8) : Nat :=
  let lead := match tail.length with
    | 0 => first.toNat
    | 1 => first.toNat - 0xC0
    | 2 => first.toNat - 0xE0
    | _ => first.toNat - 0xF0
  tail.foldl (fun n b => n * 64 + (b.toNat - 0x80)) lead

/-- the text of bytes that begin at a position -/
def decodeUtf8From (position : Nat) : List UInt8 → Except Utf8Error Text
  | [] => .ok []
  | b :: rest =>
    match sequenceLength? b with
    | none => .error ⟨.badStart, position, 1, b⟩
    | some n =>
      let tail := continuationOf b (n - 1) rest
      if tail.length = n - 1 then
        let c := (CodePoint.ofNat? (sequenceCode b tail)).getD default
        (decodeUtf8From (position + n) (rest.drop tail.length)).map (c :: ·)
      else
        let fault := if tail.length = rest.length then .endOfData else .badContinuation
        .error ⟨fault, position, tail.length + 1, b⟩
termination_by bs => bs.length
decreasing_by simp only [List.length_drop, List.length_cons]; omega

/-- the text of some bytes -/
def decodeUtf8 (bs : List UInt8) : Except Utf8Error Text := decodeUtf8From 0 bs

/-- the words about where: "in position 3" or "in position 3-5" -/
def positions (position count : Nat) : Text :=
  text "in position " ++ decimal position ++
    if count ≤ 1 then [] else .dash :: decimal (position + count - 1)

/-- the sentence about bytes that are no text -/
def Utf8Error.message (e : Utf8Error) : Text :=
  let what := if e.count ≤ 1 then text "byte 0x" ++ hex 2 e.byte.toNat else text "bytes"
  let why := match e.fault with
    | .badStart => text "invalid start byte"
    | .badContinuation => text "invalid continuation byte"
    | .endOfData => text "unexpected end of data"
  text "'utf-8' codec can't decode " ++ what ++ text " " ++ positions e.position e.count ++ text ": " ++ why

/-- the sentence about text that cannot be encoded -/
def SurrogateError.message (e : SurrogateError) : Text :=
  let what := if e.count ≤ 1 then text "character '\\u" ++ hex 4 e.code.val ++ text "'" else text "characters"
  text "'utf-8' codec can't encode " ++ what ++ text " " ++ positions e.position e.count ++
    text ": surrogates not allowed"

end PercentLiteral.Text

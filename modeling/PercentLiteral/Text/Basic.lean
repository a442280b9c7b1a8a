/-
Text as the renderer sees it: a list of code points.

A code point is any number below 0x110000. The surrogate codes are among them, because an escape such as \ud800 denotes
one; two surrogates that stand side by side stay two code points. All offsets and lengths count code points.

`CodePoint.isSpace` is the one notion of whitespace: it separates words, may follow a backslash, and is what `strip`
removes. `decimal`, `hex` and `ofDigits` write and read numbers.
-/

namespace PercentLiteral

/-- a code point, surrogates included -/
structure CodePoint where
  val : Nat
  isLt : val < 0x110000
  deriving DecidableEq

instance : Repr CodePoint := ⟨fun c _ => repr c.val⟩

/-- a sequence of code points -/
abbrev Text := List CodePoint

namespace CodePoint

theorem val_inj {c d : CodePoint} : c.val = d.val ↔ c = d := by
  cases c
  cases d
  simp

/-- the code point of a character -/
def ofChar (c : Char) : CodePoint :=
  ⟨c.toNat, by
    have h : c.toNat < 0xD800 ∨ 0xDFFF < c.toNat ∧ c.toNat < 0x110000 := c.valid
    omega⟩

/-- the code point of a number, if it is one -/
def ofNat? (n : Nat) : Option CodePoint := if h : n < 0x110000 then some ⟨n, h⟩ else none

instance : Inhabited CodePoint := ⟨⟨0, by decide⟩⟩

def backslash : CodePoint := ⟨0x5C, by decide⟩
def hash : CodePoint := ⟨0x23, by decide⟩
def braceOpen : CodePoint := ⟨0x7B, by decide⟩
def braceClose : CodePoint := ⟨0x7D, by decide⟩
def newline : CodePoint := ⟨0x0A, by decide⟩
def carriageReturn : CodePoint := ⟨0x0D, by decide⟩
def space : CodePoint := ⟨0x20, by decide⟩
def quote : CodePoint := ⟨0x27, by decide⟩
def doubleQuote : CodePoint := ⟨0x22, by decide⟩
def null : CodePoint := ⟨0x00, by decide⟩
def zero : CodePoint := ⟨0x30, by decide⟩
def slash : CodePoint := ⟨0x2F, by decide⟩
def dash : CodePoint := ⟨0x2D, by decide⟩
def dot : CodePoint := ⟨0x2E, by decide⟩
def colon : CodePoint := ⟨0x3A, by decide⟩
def equals : CodePoint := ⟨0x3D, by decide⟩
def percent : CodePoint := ⟨0x25, by decide⟩

/-- whitespace: the control spaces, the information separators and the space separators -/
def isSpace (c : CodePoint) : Bool :=
  (0x09 ≤ c.val && c.val ≤ 0x0D) || (0x1C ≤ c.val && c.val ≤ 0x20) || c.val == 0x85 || c.val == 0xA0 ||
  c.val == 0x1680 || (0x2000 ≤ c.val && c.val ≤ 0x200A) || c.val == 0x2028 || c.val == 0x2029 ||
  c.val == 0x202F || c.val == 0x205F || c.val == 0x3000

/-- the codes that no encoding form of text may hold -/
def isSurrogate (c : CodePoint) : Bool := 0xD800 ≤ c.val && c.val ≤ 0xDFFF

/-- an ASCII digit below eight -/
def isOctal (c : CodePoint) : Bool := 0x30 ≤ c.val && c.val ≤ 0x37

/-- an ASCII digit -/
def isDigit (c : CodePoint) : Bool := 0x30 ≤ c.val && c.val ≤ 0x39

/-- the value of an ASCII hexadecimal digit of either case -/
def hexValue? (c : CodePoint) : Option Nat :=
  if 0x30 ≤ c.val ∧ c.val ≤ 0x39 then some (c.val - 0x30)
  else if 0x41 ≤ c.val ∧ c.val ≤ 0x46 then some (c.val - 0x41 + 10)
  else if 0x61 ≤ c.val ∧ c.val ≤ 0x66 then some (c.val - 0x61 + 10)
  else none

/-- the lower-case hexadecimal digit of a number taken modulo sixteen -/
def hexDigit (d : Nat) : CodePoint :=
  ⟨if d % 16 < 10 then 0x30 + d % 16 else 0x57 + d % 16, by split <;> omega⟩

/-- an ASCII capital becomes the small letter; nothing else changes -/
def lower (c : CodePoint) : CodePoint :=
  if h : 0x41 ≤ c.val ∧ c.val ≤ 0x5A then ⟨c.val + 0x20, by omega⟩ else c

end CodePoint

/-- the code points of a string -/
def text (s : String) : Text := s.toList.map CodePoint.ofChar

namespace Text

/-- the text without the whitespace at its two ends -/
def strip (t : Text) : Text :=
  ((t.dropWhile CodePoint.isSpace).reverse.dropWhile CodePoint.isSpace).reverse

/-- the text before and after the first occurrence of a code point -/
def cut (c : CodePoint) : Text → Option (Text × Text)
  | [] => none
  | d :: r => if d = c then some ([], r) else (cut c r).map fun p => (d :: p.1, p.2)

/-- a cut is made at the first occurrence, and loses nothing -/
theorem cut_eq_some_iff {c : CodePoint} {t a b : Text} : cut c t = some (a, b) ↔ t = a ++ c :: b ∧ c ∉ a := by
  induction t generalizing a with
  | nil => simp [cut]
  | cons d r ih =>
    rw [cut]
    split
    · rename_i hd
      subst hd
      cases a with
      | nil => simp [eq_comm]
      | cons e a => simp; grind
    · rename_i hd
      cases a with
      | nil => simp [hd]
      | cons e a => simp [ih]; grind

/-- a text is cut wherever the code point occurs -/
theorem cut_eq_none_iff {c : CodePoint} {t : Text} : cut c t = none ↔ c ∉ t := by
  induction t with
  | nil => simp [cut]
  | cons d r ih =>
    rw [cut]
    split
    · rename_i hd
      simp [hd]
    · rename_i hd
      simp [ih, Ne.symm hd]

/-- the parts between the occurrences of a code point; there is always at least one -/
def fields (c : CodePoint) : Text → List Text
  | [] => [[]]
  | d :: r =>
    if d = c then [] :: fields c r
    else match fields c r with
      | [] => [[d]]
      | p :: ps => (d :: p) :: ps

/-- the texts one after the other, with a separator between neighbours -/
def joined (sep : Text) : List Text → Text
  | [] => []
  | [t] => t
  | t :: u :: r => t ++ sep ++ joined sep (u :: r)

/-- ASCII capitals become small letters -/
def lower (t : Text) : Text := t.map CodePoint.lower

/-- the number in decimal -/
def decimal (n : Nat) : Text := (Nat.toDigits 10 n).map CodePoint.ofChar

/-- the integer in decimal, with a minus sign before a negative one -/
def decimalInt : Int → Text
  | .ofNat n => decimal n
  | .negSucc n => CodePoint.dash :: decimal (n + 1)

/-- the lowest digits of a number in lower-case hexadecimal, as many as asked for -/
def hex : (width : Nat) → Nat → Text
  | 0, _ => []
  | w + 1, n => hex w (n / 16) ++ [CodePoint.hexDigit n]

/-- the number in decimal, filled with zeros at the left -/
def padded (width n : Nat) : Text :=
  let d := decimal n
  List.replicate (width - d.length) .zero ++ d

/-- the number that a list of digits spells -/
def ofDigits (base : Nat) (ds : List Nat) : Nat := ds.foldl (fun n d => n * base + d) 0

/-- the number spelled by ASCII decimal digits -/
def toNat (t : Text) : Nat := ofDigits 10 (t.map fun c => c.val - 0x30)

/-- line breaks of all three kinds become line feeds -/
def unifyNewlines : Text → Text
  | [] => []
  | [c] => if c = .carriageReturn then [.newline] else [c]
  | c :: d :: r =>
    if c = .carriageReturn then
      if d = .newline then .newline :: unifyNewlines r else .newline :: unifyNewlines (d :: r)
    else c :: unifyNewlines (d :: r)

end Text

end PercentLiteral

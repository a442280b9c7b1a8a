/-
The grammar of JSON.

A text is a row of tokens with blanks between them: marks, the three names, numbers and strings. `token?` reads the first
of them. Inside a string a backslash gives a code point by a letter or by the four digits of its code, and two codes that
are the halves of a surrogate pair give one code point (`join`). A number without fraction and exponent is an integer.

`Derives` has the productions: of values, of the items of an array and of the members of an object. A text that is one
value and nothing else is a `Document`. `Derives.unique`: what a text begins with is derived in one way alone, so a
document is one of one value (`Document.unique`).
-/
import PercentLiteral.Value.Basic

namespace PercentLiteral.Json

/-! ## Tokens -/

inductive Token where
  /-- a name, a number or a string -/
  | scalar (v : Value)
  | openArray
  | closeArray
  | openObject
  | closeObject
  | comma
  | colon

/-- the marks -/
def marks : List (CodePoint × Token) := [
  (.ofChar '[', .openArray), (.ofChar ']', .closeArray), (.braceOpen, .openObject), (.braceClose, .closeObject),
  (.ofChar ',', .comma), (.colon, .colon)]

/-- the names -/
def names : List (Text × Value) := [
  (text "null", .none), (text "true", .bool true), (text "false", .bool false)]

/-- a blank between tokens -/
def isBlank (c : CodePoint) : Bool :=
  c.val == 0x20 || c.val == 0x09 || c.val == 0x0A || c.val == 0x0D

/-- a code point in a string, and whether it is given by its code -/
structure Piece where
  point : CodePoint
  isCoded : Bool := false

/-- the letters that may stand behind a backslash, and what they give -/
def letters : List (CodePoint × CodePoint) := [
  (.doubleQuote, .doubleQuote), (.backslash, .backslash), (.slash, .slash), (.ofChar 'b', ⟨0x08, by decide⟩),
  (.ofChar 'f', ⟨0x0C, by decide⟩), (.ofChar 'n', .newline), (.ofChar 'r', .carriageReturn),
  (.ofChar 't', ⟨0x09, by decide⟩)]

/-- the code point of hexadecimal digits -/
def coded? (digits : Text) : Option CodePoint := do
  CodePoint.ofNat? (Text.ofDigits 16 (← digits.mapM CodePoint.hexValue?))

/-- the pieces of a string up to the quote that ends it, and the text behind that -/
def pieces? : Text → Option (List Piece × Text)
  | [] => none
  | c :: t =>
    if c = .doubleQuote then some ([], t)
    else if c ≠ .backslash then
      if c.val < 0x20 then none else (pieces? t).map fun p => (⟨c, false⟩ :: p.1, p.2)
    else match t with
      | [] => none
      | k :: u => match letters.find? fun l => l.1 = k with
        | some l => (pieces? u).map fun p => (⟨l.2, false⟩ :: p.1, p.2)
        | none => match u with
          | w :: x :: y :: z :: u =>
            if k = .ofChar 'u' then
              match coded? [w, x, y, z] with
              | some d => (pieces? u).map fun p => (⟨d, true⟩ :: p.1, p.2)
              | none => none
            else none
          | _ => none

theorem pieces?_quote (t : Text) : pieces? (.doubleQuote :: t) = some ([], t) := by
  rw [pieces?.eq_def]
  simp only [if_true]

theorem pieces?_plain {c : CodePoint} (hquote : c ≠ .doubleQuote) (hbackslash : c ≠ .backslash) (h : 0x20 ≤ c.val)
    (t : Text) : pieces? (c :: t) = (pieces? t).map fun p => (⟨c, false⟩ :: p.1, p.2) := by
  rw [pieces?.eq_def]
  simp only [if_neg hquote, if_pos hbackslash, if_neg (Nat.not_lt.2 h)]

theorem pieces?_letter {k : CodePoint} {l : CodePoint × CodePoint} (h : (letters.find? fun l => l.1 = k) = some l)
    (t : Text) : pieces? (.backslash :: k :: t) = (pieces? t).map fun p => (⟨l.2, false⟩ :: p.1, p.2) := by
  have hbackslash : CodePoint.backslash ≠ .doubleQuote := by decide
  rw [pieces?.eq_def]
  simp only [if_neg hbackslash, ne_eq, not_true_eq_false, if_false, h]

theorem pieces?_code {w x y z d : CodePoint} (h : coded? [w, x, y, z] = some d) (t : Text) :
    pieces? (.backslash :: .ofChar 'u' :: w :: x :: y :: z :: t) =
      (pieces? t).map fun p => (⟨d, true⟩ :: p.1, p.2) := by
  have hbackslash : CodePoint.backslash ≠ .doubleQuote := by decide
  have hletter : (letters.find? fun l => l.1 = CodePoint.ofChar 'u') = none := by decide
  rw [pieces?.eq_def]
  simp only [if_neg hbackslash, ne_eq, not_true_eq_false, if_false, hletter, if_true, h]

/-- the code point of two codes that are a surrogate pair -/
def pair? (p q : Piece) : Option CodePoint :=
  if h : (p.isCoded && q.isCoded) = true ∧ (0xD800 ≤ p.point.val ∧ p.point.val ≤ 0xDBFF) ∧
      0xDC00 ≤ q.point.val ∧ q.point.val ≤ 0xDFFF then
    some ⟨0x10000 + (p.point.val - 0xD800) * 0x400 + (q.point.val - 0xDC00), by omega⟩
  else none

/-- the text of pieces -/
def join : List Piece → Text
  | [] => []
  | [p] => [p.point]
  | p :: q :: ps => match pair? p q with
    | some c => c :: join ps
    | none => p.point :: join (q :: ps)

/-- the whole digits of a number: a zero alone, or digits that do not begin with one -/
def whole (t : Text) : Text := if t.head? = some .zero then [.zero] else t.takeWhile CodePoint.isDigit

/-- a point and digits behind it, if there are any -/
def fraction : Text → Text
  | [] => []
  | c :: t => if c = .dot ∧ t.takeWhile CodePoint.isDigit ≠ [] then c :: t.takeWhile CodePoint.isDigit else []

/-- the letter for an exponent, a sign perhaps, and digits behind it, if there are any -/
def exponent : Text → Text
  | [] => []
  | c :: t =>
    let sign := (t.take 1).filter fun s => s.val == 0x2B || s.val == 0x2D
    let digits := (t.drop sign.length).takeWhile CodePoint.isDigit
    if (c.val = 0x65 ∨ c.val = 0x45) ∧ digits ≠ [] then c :: sign ++ digits else []

/-- a number, as long as it can be, and the text behind it -/
def number? (t : Text) : Option (Value × Text) :=
  let sign := (t.take 1).filter fun c => c = .dash
  let t := t.drop sign.length
  let n := whole t
  let f := fraction (t.drop n.length)
  let e := exponent (t.drop (n ++ f).length)
  let r := t.drop (n ++ f ++ e).length
  if n = [] then none
  else if f ++ e = [] then some (.int (if sign = [] then Text.toNat n else -Text.toNat n), r)
  else (Binary64.read? (sign ++ n ++ f ++ e)).map fun x => (.float x, r)

/-- the first token of a text, behind blanks, and the text behind it -/
def token? (t : Text) : Option (Token × Text) :=
  match t.dropWhile isBlank with
  | [] => none
  | c :: r =>
    if c = .doubleQuote then (pieces? r).map fun p => (.scalar (.str (join p.1)), p.2)
    else if c = .dash ∨ c.isDigit then (number? (c :: r)).map fun p => (.scalar p.1, p.2)
    else match marks.find? fun m => m.1 = c with
      | some m => some (m.2, r)
      | none => (names.find? fun n => n.1.isPrefixOf (c :: r)).map fun n => (.scalar n.2, (c :: r).drop n.1.length)

/-- a blank before a token changes nothing -/
theorem token?_blank {c : CodePoint} (h : isBlank c = true) (t : Text) : token? (c :: t) = token? t := by
  unfold token?
  rw [List.dropWhile_cons_of_pos h]

/-! ## Productions -/

/-- what productions are for -/
inductive Symbol where
  | value
  /-- the items of an array, with the mark that ends it -/
  | items
  /-- the members of an object, with the mark that ends it -/
  | members

/-- a text begins with a symbol of a value, and behind that another text is left -/
inductive Derives : Symbol → Text → Value → Text → Prop where
  | scalar {t r : Text} {v : Value} : token? t = some (.scalar v, r) → Derives .value t v r
  | emptyArray {t u r : Text} : token? t = some (.openArray, u) → token? u = some (.closeArray, r) →
      Derives .value t (.list []) r
  | array {t u r : Text} {vs : List Value} : token? t = some (.openArray, u) → Derives .items u (.list vs) r →
      Derives .value t (.list vs) r
  | lastItem {t u r : Text} {v : Value} : Derives .value t v u → token? u = some (.closeArray, r) →
      Derives .items t (.list [v]) r
  | item {t u w r : Text} {v : Value} {vs : List Value} : Derives .value t v u → token? u = some (.comma, w) →
      Derives .items w (.list vs) r → Derives .items t (.list (v :: vs)) r
  | emptyObject {t u r : Text} : token? t = some (.openObject, u) → token? u = some (.closeObject, r) →
      Derives .value t (.dict []) r
  | object {t u r : Text} {es : List (Value × Value)} : token? t = some (.openObject, u) →
      Derives .members u (.dict es) r → Derives .value t (.dict es) r
  | lastMember {t s u w r k : Text} {v : Value} : token? t = some (.scalar (.str k), s) → token? s = some (.colon, u) →
      Derives .value u v w → token? w = some (.closeObject, r) → Derives .members t (.dict [(.str k, v)]) r
  | member {t s u w x r k : Text} {v : Value} {es : List (Value × Value)} : token? t = some (.scalar (.str k), s) →
      token? s = some (.colon, u) → Derives .value u v w → token? w = some (.comma, x) →
      Derives .members x (.dict es) r → Derives .members t (.dict ((.str k, v) :: es)) r

/-- a text that is one value, between blanks -/
def Document (t : Text) (v : Value) : Prop := ∃ r, Derives .value t v r ∧ r.dropWhile isBlank = []

/-- nothing begins with a mark that ends an array or an object -/
theorem Derives.not_close {s : Symbol} {t r : Text} {v : Value} (h : Derives s t v r) (u : Text) :
    token? t ≠ some (.closeArray, u) ∧ token? t ≠ some (.closeObject, u) := by
  induction h with
  | lastItem _ _ ih => exact ih
  | item _ _ _ ih => exact ih
  | _ htok => simp [htok]

/-- **The grammar is unambiguous.** -/
theorem Derives.unique {s : Symbol} {t r : Text} {v : Value} (h : Derives s t v r) {v' : Value} {r' : Text}
    (h' : Derives s t v' r') : v = v' ∧ r = r' := by
  induction h generalizing v' r' with
  | scalar htok =>
    cases h' with
    | scalar htok' =>
      cases htok.symm.trans htok'
      exact ⟨rfl, rfl⟩
    | _ htok' => cases htok.symm.trans htok'
  | emptyArray htok hclose =>
    cases h' with
    | emptyArray htok' hclose' =>
      cases htok.symm.trans htok'
      cases hclose.symm.trans hclose'
      exact ⟨rfl, rfl⟩
    | array htok' hitems =>
      -- no item begins with the mark that ends the array
      cases htok.symm.trans htok'
      exact absurd hclose (hitems.not_close _).1
    | _ htok' => cases htok.symm.trans htok'
  | array htok hitems ih =>
    cases h' with
    | emptyArray htok' hclose =>
      cases htok.symm.trans htok'
      exact absurd hclose (hitems.not_close _).1
    | array htok' hitems' =>
      cases htok.symm.trans htok'
      exact ih hitems'
    | _ htok' => cases htok.symm.trans htok'
  | lastItem _ hclose ih =>
    cases h' with
    | lastItem hvalue hclose' =>
      obtain ⟨rfl, rfl⟩ := ih hvalue
      cases hclose.symm.trans hclose'
      exact ⟨rfl, rfl⟩
    | item hvalue hcomma =>
      obtain ⟨rfl, rfl⟩ := ih hvalue
      cases hclose.symm.trans hcomma
  | item _ hcomma _ ih ih' =>
    cases h' with
    | lastItem hvalue hclose =>
      obtain ⟨rfl, rfl⟩ := ih hvalue
      cases hclose.symm.trans hcomma
    | item hvalue hcomma' hitems =>
      obtain ⟨rfl, rfl⟩ := ih hvalue
      cases hcomma.symm.trans hcomma'
      obtain ⟨hvs, rfl⟩ := ih' hitems
      cases hvs
      exact ⟨rfl, rfl⟩
  | emptyObject htok hclose =>
    cases h' with
    | emptyObject htok' hclose' =>
      cases htok.symm.trans htok'
      cases hclose.symm.trans hclose'
      exact ⟨rfl, rfl⟩
    | object htok' hmembers =>
      cases htok.symm.trans htok'
      exact absurd hclose (hmembers.not_close _).2
    | _ htok' => cases htok.symm.trans htok'
  | object htok hmembers ih =>
    cases h' with
    | emptyObject htok' hclose =>
      cases htok.symm.trans htok'
      exact absurd hclose (hmembers.not_close _).2
    | object htok' hmembers' =>
      cases htok.symm.trans htok'
      exact ih hmembers'
    | _ htok' => cases htok.symm.trans htok'
  | lastMember hkey hcolon _ hclose ih =>
    cases h' with
    | lastMember hkey' hcolon' hvalue hclose' =>
      cases hkey.symm.trans hkey'
      cases hcolon.symm.trans hcolon'
      obtain ⟨rfl, rfl⟩ := ih hvalue
      cases hclose.symm.trans hclose'
      exact ⟨rfl, rfl⟩
    | member hkey' hcolon' hvalue hcomma =>
      cases hkey.symm.trans hkey'
      cases hcolon.symm.trans hcolon'
      obtain ⟨rfl, rfl⟩ := ih hvalue
      cases hclose.symm.trans hcomma
  | member hkey hcolon _ hcomma _ ih ih' =>
    cases h' with
    | lastMember hkey' hcolon' hvalue hclose =>
      cases hkey.symm.trans hkey'
      cases hcolon.symm.trans hcolon'
      obtain ⟨rfl, rfl⟩ := ih hvalue
      cases hclose.symm.trans hcomma
    | member hkey' hcolon' hvalue hcomma' hmembers =>
      cases hkey.symm.trans hkey'
      cases hcolon.symm.trans hcolon'
      obtain ⟨rfl, rfl⟩ := ih hvalue
      cases hcomma.symm.trans hcomma'
      obtain ⟨hes, rfl⟩ := ih' hmembers
      cases hes
      exact ⟨rfl, rfl⟩

theorem Document.unique {t : Text} {v v' : Value} (h : Document t v) (h' : Document t v') : v = v' := by
  obtain ⟨r, hv, _⟩ := h
  obtain ⟨r', hv', _⟩ := h'
  exact (hv.unique hv').1

/-- a blank before a symbol changes nothing -/
theorem Derives.blank {s : Symbol} {t r : Text} {v : Value} (h : Derives s t v r) {c : CodePoint}
    (hc : isBlank c = true) : Derives s (c :: t) v r := by
  induction h with
  | scalar htok => exact .scalar (by rw [token?_blank hc, htok])
  | emptyArray htok hclose => exact .emptyArray (by rw [token?_blank hc, htok]) hclose
  | array htok hitems => exact .array (by rw [token?_blank hc, htok]) hitems
  | lastItem _ hclose ih => exact .lastItem ih hclose
  | item _ hcomma hitems ih => exact .item ih hcomma hitems
  | emptyObject htok hclose => exact .emptyObject (by rw [token?_blank hc, htok]) hclose
  | object htok hmembers => exact .object (by rw [token?_blank hc, htok]) hmembers
  | lastMember hkey hcolon hvalue hclose => exact .lastMember (by rw [token?_blank hc, hkey]) hcolon hvalue hclose
  | member hkey hcolon hvalue hcomma hmembers =>
    exact .member (by rw [token?_blank hc, hkey]) hcolon hvalue hcomma hmembers

end PercentLiteral.Json

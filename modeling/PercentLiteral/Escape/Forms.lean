/-
The forms of a backslash escape.

Each form looks at the text behind the backslash and either does not apply, or applies and then accepts a spelling or
refuses it. `Escape.read` asks the forms in turn. An accepted spelling is the code points that belong to the escape and
the text they denote; a refusal has the code points that are at fault.

`read_starts`: what `read` accepts is never empty, starts the text that was read, and denotes something.
-/
import PercentLiteral.CharNames.Basic
import PercentLiteral.TemplateError
import PercentLiteral.Text.Utf8
import PercentLiteral.Token

namespace PercentLiteral.Escape

/-- why an escape is refused -/
inductive Defect where
  | nothingFollows
  | octalTooLarge
  | hexDigitsMissing (wanted : Nat)
  | codeTooLarge
  | nameUnterminated
  | nameUnknown
  /-- a name with a surrogate, which has no bytes to look up -/
  | nameUnencodable (e : Text.SurrogateError)
  | unknown
  deriving DecidableEq, Repr

/-- an accepted escape: what follows the backslash, and what it denotes -/
structure Spelling where
  body : Text
  value : Text
  deriving DecidableEq, Repr

/-- a refused escape: what is at fault behind the backslash, and why -/
structure Refusal where
  body : Text
  defect : Defect
  deriving DecidableEq, Repr

/-- what a form says about a text it applies to -/
abbrev Verdict := Except Refusal Spelling

/-- the letters that stand for one code point each -/
def letters : List (Char × Nat) := [
  ('\\', 0x5C), ('\'', 0x27), ('"', 0x22), ('a', 0x07), ('b', 0x08), ('f', 0x0C), ('n', 0x0A), ('r', 0x0D),
  ('t', 0x09), ('v', 0x0B)]

/-- what a letter stands for -/
def letterValue? (c : CodePoint) : Option CodePoint :=
  ((letters.find? fun e => CodePoint.ofChar e.1 = c).map (·.2)).bind CodePoint.ofNat?

/-- a letter of the table -/
def letter : Text → Option Verdict
  | [] => none
  | c :: _ => (letterValue? c).map fun v => .ok ⟨[c], [v]⟩

/-- a number sign or a blank, which stands for itself -/
def itself : Text → Option Verdict
  | [] => none
  | c :: _ => if c = .hash ∨ c.isSpace then some (.ok ⟨[c], [c]⟩) else none

/-- as many octal digits as there are, at most three -/
def octal (t : Text) : Option Verdict :=
  let ds := (t.take 3).takeWhile CodePoint.isOctal
  if ds = [] then none
  else
    let code := Text.ofDigits 8 (ds.map fun c => c.val - 0x30)
    if h : code ≤ 0xFF then some (.ok ⟨ds, [⟨code, by omega⟩]⟩) else some (.error ⟨ds, .octalTooLarge⟩)

/-- how many hexadecimal digits a letter asks for -/
def hexWidth? (c : CodePoint) : Option Nat :=
  if c.val = 0x78 then some 2 else if c.val = 0x75 then some 4 else if c.val = 0x55 then some 8 else none

/-- a letter and exactly as many hexadecimal digits as it asks for; the unit separator \US is another form's -/
def hexadecimal : Text → Option Verdict
  | [] => none
  | c :: r => (hexWidth? c).bind fun width =>
    let ds := r.take width
    let values := ds.filterMap CodePoint.hexValue?
    if values.length = width then
      let code := Text.ofDigits 16 values
      match CodePoint.ofNat? code with
      | some v => some (.ok ⟨c :: ds, [v]⟩)
      | none => some (.error ⟨c :: ds, .codeTooLarge⟩)
    else if (text "US").isPrefixOf (c :: r) then none
    else some (.error ⟨c :: ds, .hexDigitsMissing width⟩)

/-- the name of a character between braces; it is looked up by its bytes -/
def named (names : CharNames) (t : Text) : Option Verdict :=
  let head := text "N\x7b"
  if head.isPrefixOf t then
    match Text.cut .braceClose (t.drop 2) with
    | none => some (.error ⟨t, .nameUnterminated⟩)
    | some (name, _) =>
      let body := t.take (name.length + 3)
      match Text.encodeUtf8 name, names.find? name with
      | .error e, _ => some (.error ⟨body, .nameUnencodable e⟩)
      | .ok _, some v => some (.ok ⟨body, v⟩)
      | .ok _, none => some (.error ⟨body, .nameUnknown⟩)
  else none

/-- the names of the control characters, longer names first -/
def mnemonics : List (List Char × Nat) := [
  (['N', 'U', 'L'], 0x00), (['S', 'O', 'H'], 0x01), (['S', 'T', 'X'], 0x02), (['E', 'T', 'X'], 0x03),
  (['E', 'O', 'T'], 0x04), (['E', 'N', 'Q'], 0x05), (['A', 'C', 'K'], 0x06), (['B', 'E', 'L'], 0x07),
  (['D', 'L', 'E'], 0x10), (['D', 'C', '1'], 0x11), (['D', 'C', '2'], 0x12), (['D', 'C', '3'], 0x13),
  (['D', 'C', '4'], 0x14), (['N', 'A', 'K'], 0x15), (['S', 'Y', 'N'], 0x16), (['E', 'T', 'B'], 0x17),
  (['C', 'A', 'N'], 0x18), (['S', 'U', 'B'], 0x1A), (['E', 'S', 'C'], 0x1B), (['D', 'E', 'L'], 0x7F),
  (['B', 'S'], 0x08), (['H', 'T'], 0x09), (['L', 'F'], 0x0A), (['V', 'T'], 0x0B), (['F', 'F'], 0x0C),
  (['C', 'R'], 0x0D), (['S', 'O'], 0x0E), (['S', 'I'], 0x0F), (['E', 'M'], 0x19), (['F', 'S'], 0x1C),
  (['G', 'S'], 0x1D), (['R', 'S'], 0x1E), (['U', 'S'], 0x1F), (['S', 'P'], 0x20)]

/-- the name of a control character, the longest that the text starts with -/
def mnemonic (t : Text) : Option Verdict :=
  (mnemonics.find? fun e => (e.1.map CodePoint.ofChar).isPrefixOf t).bind fun e =>
    (CodePoint.ofNat? e.2).map fun v => .ok ⟨e.1.map CodePoint.ofChar, [v]⟩

/-- the forms, in the order in which they are asked -/
def forms (names : CharNames) : List (Text → Option Verdict) :=
  [letter, itself, octal, hexadecimal, named names, mnemonic]

/-- the escape that the text behind a backslash spells -/
def read (names : CharNames) (t : Text) : Verdict :=
  if t = [] then .error ⟨[], .nothingFollows⟩
  else ((forms names).findSome? fun form => form t).getD (.error ⟨t.take 1, .unknown⟩)

/-! What the forms accept -/

/-- a spelling that starts a text; neither it nor what it denotes is empty -/
structure Spelling.Starts (s : Spelling) (t : Text) : Prop where
  body : s.body ≠ []
  start : s.body <+: t
  value : s.value ≠ []

theorem Spelling.starts_singleton (c v : CodePoint) (r : Text) : Spelling.Starts ⟨[c], [v]⟩ (c :: r) :=
  ⟨by simp, List.prefix_iff_eq_take.2 (by simp), by simp⟩

theorem letter_starts {t : Text} {s : Spelling} (h : letter t = some (.ok s)) : s.Starts t := by
  cases t with
  | nil => simp [letter] at h
  | cons c r =>
    obtain ⟨v, _, hv⟩ := Option.map_eq_some_iff.1 h
    cases hv
    exact Spelling.starts_singleton c _ r

theorem itself_starts {t : Text} {s : Spelling} (h : itself t = some (.ok s)) : s.Starts t := by
  cases t with
  | nil => simp [itself] at h
  | cons c r =>
    simp only [itself] at h
    split at h
    · cases h
      exact Spelling.starts_singleton c _ r
    · cases h

theorem octal_starts {t : Text} {s : Spelling} (h : octal t = some (.ok s)) : s.Starts t := by
  simp only [octal] at h
  split at h
  · cases h
  · rename_i hne
    split at h
    · cases h
      exact ⟨hne, (List.takeWhile_prefix _).trans (List.take_prefix 3 t), by simp⟩
    · cases h

theorem hexadecimal_starts {t : Text} {s : Spelling} (h : hexadecimal t = some (.ok s)) : s.Starts t := by
  cases t with
  | nil => simp [hexadecimal] at h
  | cons c r =>
    obtain ⟨width, _, h⟩ := Option.bind_eq_some_iff.1 h
    simp only at h
    split at h
    · split at h
      · cases h
        exact ⟨by simp, List.prefix_cons_inj c |>.2 (List.take_prefix width r), by simp⟩
      · cases h
    · split at h <;> cases h

theorem named_starts {names : CharNames} {t : Text} {s : Spelling} (h : named names t = some (.ok s)) :
    s.Starts t := by
  simp only [named] at h
  split at h
  · rename_i hhead
    have hne : t ≠ [] := by
      rintro rfl
      simp [text] at hhead
    split at h
    · cases h
    · split at h
      · cases h
      · rename_i hfind
        cases h
        exact ⟨by simp [hne], List.take_prefix _ t, names.value_ne_nil _ _ hfind⟩
      · cases h
  · cases h

theorem mnemonic_starts {t : Text} {s : Spelling} (h : mnemonic t = some (.ok s)) : s.Starts t := by
  obtain ⟨e, he, h⟩ := Option.bind_eq_some_iff.1 h
  obtain ⟨v, _, hv⟩ := Option.map_eq_some_iff.1 h
  cases hv
  have hmem := List.mem_of_find?_eq_some he
  have hpre := List.find?_some he
  refine ⟨?_, List.isPrefixOf_iff_prefix.1 hpre, by simp⟩
  have : ∀ e ∈ mnemonics, e.1 ≠ [] := by decide
  simpa using this e hmem

theorem forms_start {names : CharNames} {form : Text → Option Verdict} (hf : form ∈ forms names) {t : Text}
    {s : Spelling} (h : form t = some (.ok s)) : s.Starts t := by
  simp only [forms, List.mem_cons, List.not_mem_nil, or_false] at hf
  rcases hf with rfl | rfl | rfl | rfl | rfl | rfl
  · exact letter_starts h
  · exact itself_starts h
  · exact octal_starts h
  · exact hexadecimal_starts h
  · exact named_starts h
  · exact mnemonic_starts h

/-- what is accepted is never empty, starts the text that was read, and denotes something -/
theorem read_starts {names : CharNames} {t : Text} {s : Spelling} (h : read names t = .ok s) : s.Starts t := by
  simp only [read] at h
  split at h
  · cases h
  · cases hv : (forms names).findSome? fun form => form t with
    | none => simp [hv] at h
    | some v =>
      obtain ⟨form, hf, hform⟩ := List.exists_of_findSome?_eq_some hv
      simp only [hv, Option.getD_some] at h
      exact forms_start hf (h ▸ hform)

/-- the fault that a template has with a refused escape; that a name has no bytes is a failure of its look-up -/
def Defect.fault : Defect → Except Failure Fault
  | nothingFollows => .ok (.malformedEscape (some (text "trailing backslash")))
  | octalTooLarge => .ok (.invalidEscape (some (text "octal value out of range")))
  | hexDigitsMissing n => .ok (.invalidEscape (some (text "expected " ++ Text.decimal n ++ text " hex digits")))
  | codeTooLarge => .ok (.invalidEscape (some (text "code point out of range")))
  | nameUnterminated => .ok (.invalidEscape (some (text "unterminated \\N\x7b...\x7d")))
  | nameUnknown => .ok (.invalidEscape (some (text "unknown character name")))
  | nameUnencodable e => .error (.saying "UnicodeEncodeError" e.message)
  | unknown => .ok (.invalidEscape none)

/-- the snippet of a refused escape; that of a trailing backslash is always a backslash -/
def Refusal.snippet (lead : CodePoint) (r : Refusal) : Text :=
  if r.defect = .nothingFollows then [.backslash] else lead :: r.body

/-- the error at a refused escape -/
def Refusal.toError (lead : CodePoint) (start : Int) (r : Refusal) : ReadError :=
  match r.defect.fault with
  | .ok fault => .template ⟨fault, r.snippet lead, start⟩
  | .error f => .failure f

/-- the token of an accepted escape -/
def Spelling.toToken (lead : CodePoint) (start : Int) (s : Spelling) : Token :=
  .escape (lead :: s.body) s.value start

/-- the escape whose first code point, a backslash or whatever stands for it, is at a position -/
def match? (names : CharNames) (t : Text) (position : Nat) : Except ReadError Token :=
  match t.drop position with
  | [] => .error (Refusal.toError .backslash position ⟨[], .nothingFollows⟩)
  | lead :: rest =>
    match read names rest with
    | .ok s => .ok (s.toToken lead position)
    | .error r => .error (r.toError lead position)

end PercentLiteral.Escape

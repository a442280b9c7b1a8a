/-
The standard character names: single names and named sequences, Hangul syllables, and unified ideographs.

A single name is found without regard to the case of ASCII letters. The two families that are spelled by rule, the
syllables by their letters and the ideographs by their code, are found in capitals only.
-/
import PercentLiteral.CharNames.Basic

namespace PercentLiteral.CharNames

/-- the names that stand for themselves, in capitals, with the codes of their values -/
def listed : List (String × List Nat) := [
  ("BULLET", [0x2022]),
  ("LATIN SMALL LETTER A", [0x0061]),
  ("LATIN SMALL LETTER E WITH ACUTE", [0x00E9]),
  ("GREEK SMALL LETTER ALPHA", [0x03B1]),
  ("LINE FEED", [0x000A]),
  ("NULL", [0x0000]),
  ("BELL", [0x1F514]),
  ("ALERT", [0x0007]),
  ("NUL", [0x0000]),
  ("EOL", [0x000A]),
  ("NBSP", [0x00A0]),
  ("NO-BREAK SPACE", [0x00A0]),
  ("LATIN CAPITAL LETTER GHA", [0x01A2]),
  ("BYTE ORDER MARK", [0xFEFF]),
  ("ZERO WIDTH NO-BREAK SPACE", [0xFEFF]),
  ("ZERO WIDTH SPACE", [0x200B]),
  ("LATIN SMALL LETTER R WITH TILDE", [0x0072, 0x0303]),
  ("KEYCAP DIGIT ONE", [0x0031, 0xFE0F, 0x20E3]),
  ("SPACE", [0x0020]),
  ("EM SPACE", [0x2003]),
  ("EN DASH", [0x2013]),
  ("EM DASH", [0x2014]),
  ("SNOWMAN", [0x2603]),
  ("GRINNING FACE", [0x1F600]),
  ("PILE OF POO", [0x1F4A9]),
  ("EURO SIGN", [0x20AC]),
  ("REVERSE SOLIDUS", [0x005C]),
  ("NUMBER SIGN", [0x0023]),
  ("LEFT CURLY BRACKET", [0x007B]),
  ("RIGHT CURLY BRACKET", [0x007D]),
  ("DIGIT ZERO", [0x0030]),
  ("COMBINING ACUTE ACCENT", [0x0301]),
  ("LATIN SMALL LETTER SHARP S", [0x00DF]),
  ("DELETE", [0x007F]),
  ("CHARACTER TABULATION", [0x0009]),
  ("LINE SEPARATOR", [0x2028]),
  ("HYPHEN-MINUS", [0x002D]),
  ("VARIATION SELECTOR-256", [0xE01EF]),
  ("IDEOGRAPHIC SPACE", [0x3000]),
  ("OGHAM SPACE MARK", [0x1680])]

/-- the value of a listed name -/
def findListed? (n : Text) : Option Text := do
  let e ← listed.find? fun e => Text.lower (text e.1) = Text.lower n
  e.2.mapM CodePoint.ofNat?

/-- the short names of the letters that begin a syllable, in order -/
def initials : List String := [
  "G", "GG", "N", "D", "DD", "R", "M", "B", "BB", "S", "SS", "", "J", "JJ", "C", "K", "T", "P", "H"]

/-- the short names of the vowels, in order -/
def vowels : List String := [
  "A", "AE", "YA", "YAE", "EO", "E", "YEO", "YE", "O", "WA", "WAE", "OE", "YO", "U", "WEO", "WE", "WI", "YU",
  "EU", "YI", "I"]

/-- the short names of the letters that end a syllable, in order -/
def finals : List String := [
  "", "G", "GG", "GS", "N", "NJ", "NH", "D", "L", "LG", "LM", "LB", "LS", "LT", "LP", "LH", "M", "B", "BS", "S",
  "SS", "NG", "J", "C", "K", "T", "P", "H"]

/-- the position in a list of the longest entry that a text starts with -/
def longestStart (names : List String) (t : Text) : Nat :=
  (names.zipIdx.foldl
    (fun (best : Nat × Nat) e =>
      let n := text e.1
      if n.isPrefixOf t ∧ best.1 ≤ n.length then (n.length, e.2) else best) (0, names.length)).2

/-- the syllable whose letters a name spells after the family's name -/
def findSyllable? (n : Text) : Option Text :=
  let head := text "HANGUL SYLLABLE "
  let i := longestStart initials (n.drop head.length)
  let l := text (initials.getD i "")
  let j := longestStart vowels (n.drop (head.length + l.length))
  let v := text (vowels.getD j "")
  let k := longestStart finals (n.drop (head.length + l.length + v.length))
  let f := text (finals.getD k "")
  if n = head ++ l ++ v ++ f ∧ i < initials.length ∧ j < vowels.length ∧ k < finals.length then
    (CodePoint.ofNat? (0xAC00 + (i * 21 + j) * 28 + k)).map ([·])
  else Option.none

/-- the codes of the unified ideographs -/
def isIdeograph (n : Nat) : Bool :=
  (0x3400 ≤ n && n ≤ 0x4DBF) || (0x4E00 ≤ n && n ≤ 0x9FFF) || (0x20000 ≤ n && n ≤ 0x2A6DF) ||
  (0x2A700 ≤ n && n ≤ 0x2B738) || (0x2B740 ≤ n && n ≤ 0x2B81D) || (0x2B820 ≤ n && n ≤ 0x2CEA1) ||
  (0x2CEB0 ≤ n && n ≤ 0x2EBE0) || (0x30000 ≤ n && n ≤ 0x3134A)

/-- the ideograph whose code a name spells in four or five digits after the family's name -/
def findIdeograph? (n : Text) : Option Text := do
  let head := text "CJK UNIFIED IDEOGRAPH-"
  let ds := n.drop head.length
  if head.isPrefixOf n ∧ (ds.length = 4 ∨ ds.length = 5) ∧
      ds.all (fun d => d.isDigit || (0x41 ≤ d.val && d.val ≤ 0x46)) then
    let code := Text.ofDigits 16 (ds.filterMap CodePoint.hexValue?)
    if isIdeograph code then (CodePoint.ofNat? code).map ([·]) else Option.none
  else Option.none

theorem listed_ne_nil : ∀ e ∈ listed, e.2 ≠ [] := by decide

theorem findListed?_ne_nil {n v : Text} (h : findListed? n = some v) : v ≠ [] := by
  simp only [findListed?, Option.bind_eq_bind, Option.bind_eq_some_iff] at h
  obtain ⟨e, he, hv⟩ := h
  have hne := listed_ne_nil e (List.mem_of_find?_eq_some he)
  cases hc : e.2 with
  | nil => exact absurd hc hne
  | cons a r =>
    rw [hc, List.mapM_cons] at hv
    simp only [Option.bind_eq_bind, Option.bind_eq_some_iff, Option.pure_def, Option.some.injEq] at hv
    obtain ⟨x, _, y, _, rfl⟩ := hv
    exact List.cons_ne_nil _ _

theorem findSyllable?_ne_nil {n v : Text} (h : findSyllable? n = some v) : v ≠ [] := by
  simp only [findSyllable?] at h
  split at h
  · obtain ⟨c, _, rfl⟩ := Option.map_eq_some_iff.1 h
    exact List.cons_ne_nil _ _
  · cases h

theorem findIdeograph?_ne_nil {n v : Text} (h : findIdeograph? n = some v) : v ≠ [] := by
  simp only [findIdeograph?] at h
  split at h
  · split at h
    · obtain ⟨c, _, rfl⟩ := Option.map_eq_some_iff.1 h
      exact List.cons_ne_nil _ _
    · cases h
  · cases h

/-- whether a code point may stand in a name -/
def isNameable (c : CodePoint) : Bool := c ≠ .backslash && !c.isSurrogate

/-- the names in use; none holds a backslash or a surrogate -/
def standard : CharNames where
  find? n :=
    if n.all isNameable then findListed? n <|> findSyllable? n <|> findIdeograph? n else Option.none
  value_ne_nil := by
    intro n v h
    split at h
    · cases h1 : findListed? n with
      | some a => rw [h1] at h; cases h; exact findListed?_ne_nil h1
      | none =>
        cases h2 : findSyllable? n with
        | some a => rw [h1, h2] at h; cases h; exact findSyllable?_ne_nil h2
        | none => rw [h1, h2] at h; exact findIdeograph?_ne_nil h
    · cases h
  backslash_notMem := by
    intro n v h hmem
    split at h
    · rename_i hall
      exact absurd (List.all_eq_true.1 hall _ hmem) (by decide)
    · cases h
  surrogate_notMem := by
    intro n v h c hmem
    split at h
    · rename_i hall
      have hc := List.all_eq_true.1 hall c hmem
      simp only [isNameable, Bool.and_eq_true, Bool.not_eq_true'] at hc
      exact hc.2
    · cases h

end PercentLiteral.CharNames

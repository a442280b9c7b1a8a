/-
Which form reads a text behind a backslash, and what it says.

`Form.Reads` says for each form which texts it accepts, what it takes of them and what that denotes, and which texts it
refuses and what of them is at fault, without regard to the other forms. The first code points tell which form it can be
(`Form.of?`), so no two forms read one text.

- `reader_eq_some_iff`: each form answers as its rule says.
- `Reads.unique`: one text has at most one form, and one answer.
- `findSome?_perm`: hence the forms may be asked in any order.
- `match?_recognizes`: the escape at a backslash is the one that a form reads, and everything else is an error with the
  place and the text at fault, or the failure of a look-up that cannot be made.
-/
import PercentLiteral.Escape.Forms
import Mathlib.Data.List.Infix
import Mathlib.Data.List.TakeWhile

namespace PercentLiteral

namespace Text

/-- a text has no bytes exactly if it holds a surrogate -/
theorem encodeUtf8_eq_error_iff {t : Text} : (∃ e, t.encodeUtf8 = .error e) ↔ ∃ c ∈ t, c.isSurrogate := by
  have hall : t.dropWhile (!·.isSurrogate) = [] ↔ ∀ c ∈ t, !c.isSurrogate := List.dropWhile_eq_nil_iff
  unfold encodeUtf8
  cases hrest : t.dropWhile (!·.isSurrogate) with
  | nil =>
    have hnone := hall.1 hrest
    simp only [reduceCtorEq, exists_false, false_iff]
    rintro ⟨c, hc, hsurrogate⟩
    simpa [hsurrogate] using hnone c hc
  | cons c r =>
    have hsome : ¬ ∀ c ∈ t, !c.isSurrogate := fun h => by
      rw [hall.2 h] at hrest
      cases hrest
    exact iff_of_true ⟨_, rfl⟩ (by simpa using hsome)

theorem encodeUtf8_eq_ok_iff {t : Text} : (∃ bs, t.encodeUtf8 = .ok bs) ↔ ∀ c ∈ t, c.isSurrogate = false := by
  have herror := @encodeUtf8_eq_error_iff t
  cases hencode : t.encodeUtf8 with
  | ok bs => simpa [hencode] using herror
  | error e => simpa [hencode] using herror

end Text

namespace Escape

/-! ## The rules of the forms -/

/-- the forms of an escape -/
inductive Form where
  | letter
  | itself
  | octal
  | hexadecimal
  | named
  | mnemonic
  deriving DecidableEq, Repr

/-- how a form answers -/
def Form.reader (names : CharNames) : Form → Text → Option Verdict
  | letter => Escape.letter
  | itself => Escape.itself
  | octal => Escape.octal
  | hexadecimal => Escape.hexadecimal
  | named => Escape.named names
  | mnemonic => Escape.mnemonic

/-- the number that octal digits spell -/
def octalCode (ds : Text) : Nat := Text.ofDigits 8 (ds.map fun d => d.val - 0x30)

/-- the number that hexadecimal digits spell -/
def hexCode (ds : Text) : Nat := Text.ofDigits 16 (ds.filterMap CodePoint.hexValue?)

/-- the octal digits before other text, as many as there are up to three -/
structure OctalRun (ds rest : Text) : Prop where
  filled : ds ≠ []
  few : ds.length ≤ 3
  digits : ∀ d ∈ ds, d.isOctal
  longest : ¬ (ds.length < 3 ∧ ∃ d ∈ rest.head?, d.isOctal)

/-- as many hexadecimal digits as are wanted, and nothing else -/
structure HexDigits (wanted : Nat) (ds : Text) : Prop where
  length : ds.length = wanted
  digits : ∀ d ∈ ds, d.hexValue?.isSome

/-- the spelling of a character by its name -/
def ofName (name : Text) : Text := .ofChar 'N' :: .braceOpen :: name ++ [.braceClose]

/-- the spelling of a control character by its mnemonic -/
def ofMnemonic (e : List Char × Nat) : Text := e.1.map CodePoint.ofChar

/-- a mnemonic that begins a text, and no longer one does -/
structure LongestMnemonic (e : List Char × Nat) (t : Text) : Prop where
  listed : e ∈ mnemonics
  start : ofMnemonic e <+: t
  longest : ∀ a ∈ mnemonics, ofMnemonic a <+: t → (ofMnemonic a).length ≤ (ofMnemonic e).length

/-- the texts that a form accepts or refuses, each with its answer -/
inductive Form.Reads (names : CharNames) : Form → Text → Verdict → Prop where
  | letter {c v : CodePoint} {r : Text} : letterValue? c = some v → Reads names .letter (c :: r) (.ok ⟨[c], [v]⟩)
  | itself {c : CodePoint} {r : Text} : c = .hash ∨ c.isSpace → Reads names .itself (c :: r) (.ok ⟨[c], [c]⟩)
  | octal {ds r : Text} {v : CodePoint} :
      OctalRun ds r → v.val = octalCode ds → v.val ≤ 0xFF → Reads names .octal (ds ++ r) (.ok ⟨ds, [v]⟩)
  | octalTooLarge {ds r : Text} :
      ds.length = 3 → (∀ d ∈ ds, d.isOctal) → 0xFF < octalCode ds →
      Reads names .octal (ds ++ r) (.error ⟨ds, .octalTooLarge⟩)
  | hexadecimal {c : CodePoint} {width : Nat} {ds r : Text} {v : CodePoint} :
      hexWidth? c = some width → HexDigits width ds → v.val = hexCode ds →
      Reads names .hexadecimal (c :: ds ++ r) (.ok ⟨c :: ds, [v]⟩)
  | codeTooLarge {c : CodePoint} {width : Nat} {ds r : Text} :
      hexWidth? c = some width → HexDigits width ds → 0x10FFFF < hexCode ds →
      Reads names .hexadecimal (c :: ds ++ r) (.error ⟨c :: ds, .codeTooLarge⟩)
  | digitsMissing {c : CodePoint} {width : Nat} {r : Text} :
      hexWidth? c = some width → ¬ HexDigits width (r.take width) → ¬ text "US" <+: c :: r →
      Reads names .hexadecimal (c :: r) (.error ⟨c :: r.take width, .hexDigitsMissing width⟩)
  | named {name v r : Text} :
      .braceClose ∉ name → names.find? name = some v → Reads names .named (ofName name ++ r) (.ok ⟨ofName name, v⟩)
  | nameUnknown {name r : Text} :
      .braceClose ∉ name → (∀ c ∈ name, c.isSurrogate = false) → names.find? name = none →
      Reads names .named (ofName name ++ r) (.error ⟨ofName name, .nameUnknown⟩)
  | nameUnencodable {name r : Text} {e : Text.SurrogateError} :
      .braceClose ∉ name → Text.encodeUtf8 name = .error e →
      Reads names .named (ofName name ++ r) (.error ⟨ofName name, .nameUnencodable e⟩)
  | nameUnterminated {t : Text} :
      text "N\x7b" <+: t → .braceClose ∉ t → Reads names .named t (.error ⟨t, .nameUnterminated⟩)
  | mnemonic {e : List Char × Nat} {v : CodePoint} {t : Text} :
      LongestMnemonic e t → v.val = e.2 → Reads names .mnemonic t (.ok ⟨ofMnemonic e, [v]⟩)

variable {names : CharNames} {t : Text} {v : Verdict}

/-! ## Each form answers as its rule says -/

theorem letter_eq_some_iff : letter t = some v ↔ Form.letter.Reads names t v := by
  constructor
  · intro h
    cases t with
    | nil => cases h
    | cons c r =>
      obtain ⟨w, hw, rfl⟩ := Option.map_eq_some_iff.1 h
      exact .letter hw
  · rintro ⟨hw⟩
    simp [letter, hw]

theorem itself_eq_some_iff : itself t = some v ↔ Form.itself.Reads names t v := by
  constructor
  · intro h
    cases t with
    | nil => cases h
    | cons c r =>
      simp only [itself] at h
      split at h
      · rename_i hc
        cases h
        exact .itself hc
      · cases h
  · rintro ⟨⟩
    rename_i hc
    exact if_pos hc

/-- the digits that are read are all there are up to three -/
theorem octal_digits_iff {ds r : Text} (hlength : ds.length ≤ 3) (hall : ∀ d ∈ ds, d.isOctal) :
    ((ds ++ r).take 3).takeWhile CodePoint.isOctal = ds ↔ ¬ (ds.length < 3 ∧ ∃ d ∈ r.head?, d.isOctal) := by
  rw [List.take_append, List.take_of_length_le hlength, List.takeWhile_append_of_pos hall, List.append_right_eq_self]
  cases r with
  | nil => simp
  | cons d r =>
    rcases Nat.lt_or_eq_of_le hlength with hlt | heq
    · obtain ⟨n, hn⟩ : ∃ n, 3 - ds.length = n + 1 := ⟨2 - ds.length, by omega⟩
      rw [hn, List.take_succ_cons, List.takeWhile_cons]
      by_cases hd : d.isOctal <;> simp [hd, hlt]
    · simp [heq]

theorem octalRun_iff {ds r : Text} :
    OctalRun ds r ↔ ds ≠ [] ∧ ((ds ++ r).take 3).takeWhile CodePoint.isOctal = ds := by
  constructor
  · rintro ⟨hne, hlength, hall, hnext⟩
    exact ⟨hne, (octal_digits_iff hlength hall).2 hnext⟩
  · rintro ⟨hne, hds⟩
    have hlength : ds.length ≤ 3 := by
      rw [← hds]
      exact (List.takeWhile_prefix _).length_le.trans (List.length_take_le 3 _)
    have hall : ∀ d ∈ ds, d.isOctal := by
      rw [← hds]
      exact fun d hd => List.mem_takeWhile_imp hd
    exact ⟨hne, hlength, hall, (octal_digits_iff hlength hall).1 hds⟩

/-- less than three octal digits never spell too much -/
theorem octalCode_le {ds : Text} (hlength : ds.length < 3) (hall : ∀ d ∈ ds, d.isOctal) : octalCode ds ≤ 0xFF := by
  have bound : ∀ d ∈ ds, d.val - 0x30 ≤ 7 := by
    intro d hd
    have := hall d hd
    simp only [CodePoint.isOctal, Bool.and_eq_true, decide_eq_true_eq] at this
    omega
  match ds with
  | [] => decide
  | [c] =>
    have hc := bound c (by simp)
    simp only [octalCode, Text.ofDigits, List.map_cons, List.map_nil, List.foldl_cons, List.foldl_nil]
    omega
  | [c, d] =>
    have hc := bound c (by simp)
    have hd := bound d (by simp)
    simp only [octalCode, Text.ofDigits, List.map_cons, List.map_nil, List.foldl_cons, List.foldl_nil]
    omega
  | _ :: _ :: _ :: _ =>
    simp only [List.length_cons] at hlength
    omega

theorem octal_eq {ds : Text} (h : (t.take 3).takeWhile CodePoint.isOctal = ds) (hne : ds ≠ []) :
    octal t = if h : octalCode ds ≤ 0xFF then some (.ok ⟨ds, [⟨octalCode ds, by omega⟩]⟩)
      else some (.error ⟨ds, .octalTooLarge⟩) := by
  subst h
  exact if_neg hne

theorem octal_eq_some_iff : octal t = some v ↔ Form.octal.Reads names t v := by
  constructor
  · intro h
    by_cases hne : (t.take 3).takeWhile CodePoint.isOctal = []
    · simp [octal, hne] at h
    · obtain ⟨r, hr⟩ := (List.takeWhile_prefix CodePoint.isOctal).trans (List.take_prefix 3 t)
      obtain ⟨ds, hds⟩ : ∃ ds, (t.take 3).takeWhile CodePoint.isOctal = ds := ⟨_, rfl⟩
      rw [octal_eq hds (hds ▸ hne)] at h
      rw [hds] at hr
      subst hr
      have hrun : OctalRun ds r := octalRun_iff.2 ⟨hds ▸ hne, hds⟩
      split at h
      · rename_i hcode
        cases h
        exact .octal hrun rfl hcode
      · rename_i hcode
        cases h
        have hthree : ds.length = 3 := by
          by_contra hlength
          exact hcode (octalCode_le (Nat.lt_of_le_of_ne hrun.few hlength) hrun.digits)
        exact .octalTooLarge hthree hrun.digits (Nat.lt_of_not_le hcode)
  · intro h
    cases h with
    | @octal ds r w hrun hw hle =>
      obtain ⟨hne, hds⟩ := octalRun_iff.1 hrun
      obtain ⟨n, hn⟩ := w
      obtain rfl : n = octalCode ds := hw
      rw [octal_eq hds hne, dif_pos hle]
    | @octalTooLarge ds r hthree hall hlarge =>
      have hne : ds ≠ [] := List.ne_nil_of_length_pos (by omega)
      have hrun : OctalRun ds r := ⟨hne, hthree.le, hall, by omega⟩
      rw [octal_eq (octalRun_iff.1 hrun).2 hne, dif_neg (Nat.not_le_of_lt hlarge)]

theorem hexDigits_take_iff {width : Nat} {r : Text} :
    HexDigits width (r.take width) ↔ ((r.take width).filterMap CodePoint.hexValue?).length = width := by
  constructor
  · rintro ⟨hlength, hall⟩
    rw [List.filterMap_length_eq_length.2 hall, hlength]
  · intro h
    have hle := List.length_filterMap_le CodePoint.hexValue? (r.take width)
    have htake := List.length_take_le width r
    have hlength : (r.take width).length = width := by omega
    exact ⟨hlength, List.filterMap_length_eq_length.1 (h.trans hlength.symm)⟩

theorem HexDigits.take_append {width : Nat} {ds : Text} (h : HexDigits width ds) (r : Text) :
    (ds ++ r).take width = ds := by
  rw [← h.length, List.take_left]

theorem ofNat?_eq_some_iff {n : Nat} {c : CodePoint} : CodePoint.ofNat? n = some c ↔ c.val = n := by
  obtain ⟨m, hm⟩ := c
  simp only [CodePoint.ofNat?]
  split <;> simp <;> omega

theorem ofNat?_eq_none_iff {n : Nat} : CodePoint.ofNat? n = none ↔ 0x10FFFF < n := by
  simp only [CodePoint.ofNat?]
  split <;> simp <;> omega

/-- with all its digits, a code is a code point or too large -/
theorem hexadecimal_digits {c : CodePoint} {width : Nat} {ds : Text} (hwidth : hexWidth? c = some width)
    (hdigits : HexDigits width ds) (r : Text) :
    hexadecimal (c :: ds ++ r) = some (match CodePoint.ofNat? (hexCode ds) with
      | some w => .ok ⟨c :: ds, [w]⟩
      | none => .error ⟨c :: ds, .codeTooLarge⟩) := by
  have htake := hdigits.take_append r
  have hvalues := hexDigits_take_iff.1 (htake.symm ▸ hdigits)
  rw [htake] at hvalues
  unfold hexCode
  cases hcode : CodePoint.ofNat? (Text.ofDigits 16 (ds.filterMap CodePoint.hexValue?)) with
  | some w => simp [hexadecimal, hwidth, htake, hvalues, hcode]
  | none => simp [hexadecimal, hwidth, htake, hvalues, hcode]

/-- without them it is refused, unless it is a unit separator -/
theorem hexadecimal_short {c : CodePoint} {width : Nat} {r : Text} (hwidth : hexWidth? c = some width)
    (hdigits : ¬ HexDigits width (r.take width)) :
    hexadecimal (c :: r) = if (text "US").isPrefixOf (c :: r) then none
      else some (.error ⟨c :: r.take width, .hexDigitsMissing width⟩) := by
  rw [hexDigits_take_iff] at hdigits
  simp [hexadecimal, hwidth, hdigits]

theorem hexadecimal_eq_some_iff : hexadecimal t = some v ↔ Form.hexadecimal.Reads names t v := by
  constructor
  · intro h
    cases t with
    | nil => cases h
    | cons c r =>
      obtain ⟨width, hwidth, _⟩ := Option.bind_eq_some_iff.1 h
      by_cases hdigits : HexDigits width (r.take width)
      · have hsplit : c :: r = c :: r.take width ++ r.drop width := by simp
        rw [hsplit, hexadecimal_digits hwidth hdigits] at h
        rw [hsplit]
        cases hcode : CodePoint.ofNat? (hexCode (r.take width)) with
        | some w =>
          simp only [hcode] at h
          cases h
          exact .hexadecimal hwidth hdigits (ofNat?_eq_some_iff.1 hcode)
        | none =>
          simp only [hcode] at h
          cases h
          exact .codeTooLarge hwidth hdigits (ofNat?_eq_none_iff.1 hcode)
      · rw [hexadecimal_short hwidth hdigits] at h
        split at h
        · cases h
        · rename_i hUS
          cases h
          exact .digitsMissing hwidth hdigits (mt List.isPrefixOf_iff_prefix.2 hUS)
  · intro h
    cases h with
    | hexadecimal hwidth hdigits hcode => rw [hexadecimal_digits hwidth hdigits, ofNat?_eq_some_iff.2 hcode]
    | codeTooLarge hwidth hdigits hlarge => rw [hexadecimal_digits hwidth hdigits, ofNat?_eq_none_iff.2 hlarge]
    | digitsMissing hwidth hdigits hUS =>
      rw [hexadecimal_short hwidth hdigits, if_neg (mt List.isPrefixOf_iff_prefix.1 hUS)]

theorem text_named : text "N\x7b" = [.ofChar 'N', .braceOpen] := by decide

/-- a name is read up to the first closing brace -/
theorem named_ofName (names : CharNames) {name : Text} (h : .braceClose ∉ name) (r : Text) :
    named names (ofName name ++ r) = some (match Text.encodeUtf8 name, names.find? name with
      | .error e, _ => .error ⟨ofName name, .nameUnencodable e⟩
      | .ok _, some v => .ok ⟨ofName name, v⟩
      | .ok _, none => .error ⟨ofName name, .nameUnknown⟩) := by
  have hcut : Text.cut .braceClose (name ++ .braceClose :: r) = some (name, r) := Text.cut_eq_some_iff.2 ⟨rfl, h⟩
  have htake : (ofName name ++ r).take (name.length + 3) = ofName name := List.take_left' (by simp [ofName])
  have hdrop : (ofName name ++ r).drop 2 = name ++ .braceClose :: r := by simp [ofName]
  have hhead : (text "N\x7b").isPrefixOf (ofName name ++ r) = true := by
    simp [text_named, ofName, List.isPrefixOf]
  simp only [named, if_pos hhead, hdrop, hcut, htake]
  cases Text.encodeUtf8 name with
  | error e => rfl
  | ok bs => cases names.find? name <;> rfl


theorem named_eq_some_iff : named names t = some v ↔ Form.named.Reads names t v := by
  constructor
  · intro h
    by_cases hhead : (text "N\x7b").isPrefixOf t = true
    · obtain ⟨u, rfl⟩ := List.isPrefixOf_iff_prefix.1 hhead
      cases hcut : Text.cut .braceClose u with
      | none =>
        have hclose : CodePoint.braceClose ∉ text "N\x7b" ++ u := by
          rw [List.mem_append, not_or]
          exact ⟨by decide, Text.cut_eq_none_iff.1 hcut⟩
        have hdrop : (text "N\x7b" ++ u).drop 2 = u := rfl
        simp only [named, if_pos hhead, hdrop, hcut] at h
        cases h
        exact .nameUnterminated (List.prefix_append _ _) hclose
      | some p =>
        obtain ⟨name, r⟩ := p
        obtain ⟨rfl, hname⟩ := Text.cut_eq_some_iff.1 hcut
        have hsplit : text "N\x7b" ++ (name ++ .braceClose :: r) = ofName name ++ r := by
          simp [text_named, ofName]
        rw [hsplit, named_ofName names hname] at h
        rw [hsplit]
        cases hencode : Text.encodeUtf8 name with
        | error e =>
          simp only [hencode] at h
          cases h
          exact .nameUnencodable hname hencode
        | ok bs =>
          cases hfind : names.find? name with
          | none =>
            simp only [hencode, hfind] at h
            cases h
            exact .nameUnknown hname (Text.encodeUtf8_eq_ok_iff.1 ⟨bs, hencode⟩) hfind
          | some w =>
            simp only [hencode, hfind] at h
            cases h
            exact .named hname hfind
    · simp [named, hhead] at h
  · intro h
    cases h with
    | named hname hfind =>
      obtain ⟨bs, hencode⟩ := Text.encodeUtf8_eq_ok_iff.2 (names.surrogate_notMem _ _ hfind)
      rw [named_ofName names hname, hencode, hfind]
    | nameUnknown hname hnone hfind =>
      obtain ⟨bs, hencode⟩ := Text.encodeUtf8_eq_ok_iff.2 hnone
      rw [named_ofName names hname, hencode, hfind]
    | nameUnencodable hname hencode => rw [named_ofName names hname, hencode]
    | nameUnterminated hhead hclose =>
      have hcut : Text.cut .braceClose (t.drop 2) = none :=
        Text.cut_eq_none_iff.2 fun hmem => hclose (List.mem_of_mem_drop hmem)
      simp only [named, if_pos (List.isPrefixOf_iff_prefix.2 hhead), hcut]

/-- the table has longer names first, and no name twice -/
theorem find?_mnemonics_iff {e : List Char × Nat} :
    mnemonics.find? (fun a => (a.1.map CodePoint.ofChar).isPrefixOf t) = some e ↔ LongestMnemonic e t := by
  have sorted : mnemonics.Pairwise fun a b => (ofMnemonic b).length ≤ (ofMnemonic a).length := by decide
  have apart : ∀ a ∈ mnemonics, ∀ e ∈ mnemonics, ofMnemonic a = ofMnemonic e → a = e := by decide +kernel
  have hlongest : ∀ {a}, mnemonics.find? (fun a => (a.1.map CodePoint.ofChar).isPrefixOf t) = some a →
      LongestMnemonic a t := by
    intro a ha
    obtain ⟨hstart, before, behind, hsplit, hbefore⟩ := List.find?_eq_some_iff_append.1 ha
    refine ⟨List.mem_of_find?_eq_some ha, List.isPrefixOf_iff_prefix.1 hstart, ?_⟩
    intro b hb hpre
    rw [hsplit] at hb sorted
    rcases List.mem_append.1 hb with hb | hb
    · have hstarts : (b.1.map CodePoint.ofChar).isPrefixOf t := List.isPrefixOf_iff_prefix.2 hpre
      have hmiss := hbefore b hb
      simp [hstarts] at hmiss
    · rcases List.mem_cons.1 hb with rfl | hb
      · exact Nat.le_refl _
      · exact List.rel_of_pairwise_cons (List.pairwise_append.1 sorted).2.1 hb
  constructor
  · exact hlongest
  · intro he
    have hfound : (mnemonics.find? (fun a => (a.1.map CodePoint.ofChar).isPrefixOf t)).isSome :=
      List.find?_isSome.2 ⟨e, he.listed, List.isPrefixOf_iff_prefix.2 he.start⟩
    obtain ⟨a, ha⟩ := Option.isSome_iff_exists.1 hfound
    have hlong := hlongest ha
    -- both are longest, hence of one length, and begin the same text
    have hlength : (ofMnemonic a).length = (ofMnemonic e).length :=
      Nat.le_antisymm (he.longest a hlong.listed hlong.start) (hlong.longest e he.listed he.start)
    have hsame : ofMnemonic a = ofMnemonic e := by
      rw [List.prefix_iff_eq_take.1 hlong.start, List.prefix_iff_eq_take.1 he.start, hlength]
    rw [ha, apart a hlong.listed e he.listed hsame]

theorem mnemonic_eq_some_iff : mnemonic t = some v ↔ Form.mnemonic.Reads names t v := by
  constructor
  · intro h
    obtain ⟨e, he, h⟩ := Option.bind_eq_some_iff.1 h
    obtain ⟨w, hw, rfl⟩ := Option.map_eq_some_iff.1 h
    exact .mnemonic (find?_mnemonics_iff.1 he) (ofNat?_eq_some_iff.1 hw)
  · intro h
    cases h with
    | mnemonic he hw =>
      simp only [mnemonic, find?_mnemonics_iff.2 he, Option.bind_some, ofNat?_eq_some_iff.2 hw, Option.map_some]
      rfl

/-- **The rules of the forms.** Each form answers exactly as its rule says. -/
theorem reader_eq_some_iff {form : Form} : form.reader names t = some v ↔ form.Reads names t v := by
  cases form with
  | letter => exact letter_eq_some_iff
  | itself => exact itself_eq_some_iff
  | octal => exact octal_eq_some_iff
  | hexadecimal => exact hexadecimal_eq_some_iff
  | named => exact named_eq_some_iff
  | mnemonic => exact mnemonic_eq_some_iff

/-! ## What begins a spelling -/

theorem letterValue?_lead {c v : CodePoint} (h : letterValue? c = some v) :
    c ≠ .hash ∧ c.isSpace = false ∧ c.isOctal = false ∧ c ≠ .ofChar 'S' ∧ c ≠ .ofChar 'H' := by
  obtain ⟨code, hcode, _⟩ := Option.bind_eq_some_iff.1 h
  obtain ⟨e, he, rfl⟩ := Option.map_eq_some_iff.1 hcode
  have hc : CodePoint.ofChar e.1 = c := by simpa using List.find?_some he
  have listed : ∀ e ∈ letters, CodePoint.ofChar e.1 ≠ .hash ∧ (CodePoint.ofChar e.1).isSpace = false ∧
      (CodePoint.ofChar e.1).isOctal = false ∧ CodePoint.ofChar e.1 ≠ .ofChar 'S' ∧
      CodePoint.ofChar e.1 ≠ .ofChar 'H' := by decide
  exact hc ▸ listed e (List.mem_of_find?_eq_some he)

theorem itself_lead {c : CodePoint} (h : c = .hash ∨ c.isSpace) :
    letterValue? c = none ∧ c.isOctal = false ∧ c ≠ .ofChar 'S' := by
  refine ⟨?_, ?_⟩
  · by_contra hletter
    obtain ⟨v, hv⟩ := Option.ne_none_iff_exists'.1 hletter
    obtain ⟨hhash, hspace, _⟩ := letterValue?_lead hv
    simp [hhash, hspace] at h
  · rcases h with rfl | h
    · decide
    · constructor
      · by_contra hoctal
        simp only [CodePoint.isOctal, CodePoint.isSpace, Bool.not_eq_false, Bool.or_eq_true, Bool.and_eq_true,
          decide_eq_true_eq, beq_iff_eq] at h hoctal
        omega
      · rintro rfl
        exact absurd h (by decide)

theorem octal_lead {c : CodePoint} (h : c.isOctal = true) :
    letterValue? c = none ∧ c ≠ .hash ∧ c.isSpace = false := by
  refine ⟨?_, ?_, ?_⟩
  · by_contra hletter
    obtain ⟨v, hv⟩ := Option.ne_none_iff_exists'.1 hletter
    simp [(letterValue?_lead hv).2.2.1] at h
  · rintro rfl
    exact absurd h (by decide)
  · by_contra hspace
    simp [(itself_lead (Or.inr (by simpa using hspace))).2.1] at h

theorem hexWidth?_cases {c : CodePoint} {width : Nat} (h : hexWidth? c = some width) :
    (c = .ofChar 'x' ∧ width = 2) ∨ (c = .ofChar 'u' ∧ width = 4) ∨ (c = .ofChar 'U' ∧ width = 8) := by
  simp only [hexWidth?, ← CodePoint.val_inj] at h ⊢
  split at h
  · rename_i hx
    exact Or.inl ⟨hx, (Option.some.inj h).symm⟩
  · split at h
    · rename_i hu
      exact Or.inr (Or.inl ⟨hu, (Option.some.inj h).symm⟩)
    · split at h
      · rename_i hU
        exact Or.inr (Or.inr ⟨hU, (Option.some.inj h).symm⟩)
      · cases h

theorem hexWidth?_lead {c : CodePoint} {width : Nat} (h : hexWidth? c = some width) :
    0 < width ∧ letterValue? c = none ∧ c ≠ .hash ∧ c.isSpace = false ∧ c.isOctal = false ∧ c ≠ .ofChar 'S' := by
  rcases hexWidth?_cases h with ⟨rfl, rfl⟩ | ⟨rfl, rfl⟩ | ⟨rfl, rfl⟩ <;> decide

/-- a mnemonic has at least two letters, and no other form begins with them -/
theorem mnemonic_lead {e : List Char × Nat} (he : e ∈ mnemonics) :
    ∃ c d r, ofMnemonic e = c :: d :: r ∧ letterValue? c = none ∧ c ≠ .hash ∧ c.isSpace = false ∧
      c.isOctal = false ∧ (hexWidth? c = none ∨ c :: d :: r = text "US") ∧ d ≠ .braceOpen := by
  have listed : ∀ e ∈ mnemonics, 2 ≤ (ofMnemonic e).length ∧
      (∀ c ∈ (ofMnemonic e).head?, letterValue? c = none ∧ c ≠ .hash ∧ c.isSpace = false ∧
        c.isOctal = false ∧ (hexWidth? c = none ∨ ofMnemonic e = text "US")) ∧
      ∀ d ∈ (ofMnemonic e)[1]?, d ≠ .braceOpen := by decide
  obtain ⟨hlength, hfirst, hsecond⟩ := listed e he
  match hbody : ofMnemonic e with
  | [] => simp [hbody] at hlength
  | [c] => simp [hbody] at hlength
  | c :: d :: r =>
    rw [hbody] at hfirst hsecond
    obtain ⟨hletter, hhash, hspace, hoctal, hwidth⟩ := hfirst c rfl
    exact ⟨c, d, r, rfl, hletter, hhash, hspace, hoctal, hwidth, hsecond d rfl⟩

/-! ## At most one form reads a text -/

/-- the only form that can read a text, by its first code points -/
def Form.of? : Text → Option Form
  | [] => none
  | c :: r =>
    if (letterValue? c).isSome then some .letter
    else if c = .hash ∨ c.isSpace then some .itself
    else if c.isOctal then some .octal
    else if (hexWidth? c).isSome ∧ ¬ text "US" <+: c :: r then some .hexadecimal
    else if text "N\x7b" <+: c :: r then some .named
    else some .mnemonic

theorem text_unit_separator : text "US" = [.ofChar 'U', .ofChar 'S'] := by decide

theorem of?_octal {ds r : Text} (hne : ds ≠ []) (hall : ∀ d ∈ ds, d.isOctal) : Form.of? (ds ++ r) = some .octal := by
  obtain ⟨c, cs, rfl⟩ := List.exists_cons_of_ne_nil hne
  have hoctal := hall c List.mem_cons_self
  obtain ⟨hletter, hhash, hspace⟩ := octal_lead hoctal
  simp [Form.of?, hletter, hhash, hspace, hoctal]

theorem of?_hexadecimal {c : CodePoint} {width : Nat} {r : Text} (hwidth : hexWidth? c = some width)
    (hUS : ¬ text "US" <+: c :: r) : Form.of? (c :: r) = some .hexadecimal := by
  obtain ⟨_, hletter, hhash, hspace, hoctal, _⟩ := hexWidth?_lead hwidth
  simp [Form.of?, hletter, hhash, hspace, hoctal, hwidth, hUS]

theorem HexDigits.not_unit_separator {width : Nat} {ds : Text} (h : HexDigits width ds) (hwidth : 0 < width)
    (c : CodePoint) (r : Text) : ¬ text "US" <+: c :: ds ++ r := by
  obtain ⟨d, ds', rfl⟩ := List.exists_cons_of_length_pos (h.length ▸ hwidth)
  rintro ⟨u, hu⟩
  obtain ⟨_, hS, _⟩ : CodePoint.ofChar 'U' = c ∧ CodePoint.ofChar 'S' = d ∧ u = ds' ++ r := by
    simpa [text_unit_separator] using hu
  have hd := h.digits d List.mem_cons_self
  rw [← hS] at hd
  exact absurd hd (by decide)

theorem of?_named {t : Text} (h : text "N\x7b" <+: t) : Form.of? t = some .named := by
  obtain ⟨u, rfl⟩ := h
  have hletter : letterValue? (.ofChar 'N') = none := by decide
  have hhash : CodePoint.ofChar 'N' ≠ .hash := by decide
  have hspace : (CodePoint.ofChar 'N').isSpace = false := by decide
  have hoctal : (CodePoint.ofChar 'N').isOctal = false := by decide
  have hwidth : hexWidth? (.ofChar 'N') = none := by decide
  simp [text_named, Form.of?, hletter, hhash, hspace, hoctal, hwidth]

theorem of?_mnemonic {e : List Char × Nat} (he : e ∈ mnemonics) (r : Text) :
    Form.of? (ofMnemonic e ++ r) = some .mnemonic := by
  obtain ⟨c, d, u, hbody, hletter, hhash, hspace, hoctal, hwidth, hd⟩ := mnemonic_lead he
  have hhex : ¬ ((hexWidth? c).isSome ∧ ¬ text "US" <+: c :: d :: (u ++ r)) := by
    rintro ⟨hsome, hUS⟩
    rcases hwidth with hnone | hbodyUS
    · simp [hnone] at hsome
    · exact hUS (hbodyUS ▸ List.prefix_append (c :: d :: u) r)
  have hnamed : ¬ text "N\x7b" <+: c :: d :: (u ++ r) := by
    simp [text_named, hd.symm]
  simp only [hbody, List.cons_append, Form.of?, hletter, hhash, hspace, hoctal]
  simp [hhex, hnamed]

theorem Form.Reads.of? {form : Form} (h : form.Reads names t v) : Form.of? t = some form := by
  cases h with
  | letter hv => simp [Form.of?, hv]
  | itself hc => simp [Form.of?, (itself_lead hc).1, hc]
  | octal hrun => exact of?_octal hrun.filled hrun.digits
  | octalTooLarge hthree hall => exact of?_octal (List.ne_nil_of_length_pos (by omega)) hall
  | hexadecimal hwidth hdigits =>
    exact of?_hexadecimal hwidth (hdigits.not_unit_separator (hexWidth?_lead hwidth).1 _ _)
  | codeTooLarge hwidth hdigits =>
    exact of?_hexadecimal hwidth (hdigits.not_unit_separator (hexWidth?_lead hwidth).1 _ _)
  | digitsMissing hwidth _ hUS => exact of?_hexadecimal hwidth hUS
  | named => exact of?_named (by simp [text_named, ofName])
  | nameUnknown => exact of?_named (by simp [text_named, ofName])
  | nameUnencodable => exact of?_named (by simp [text_named, ofName])
  | nameUnterminated hhead => exact of?_named hhead
  | mnemonic he =>
    obtain ⟨r, rfl⟩ := he.start
    exact of?_mnemonic he.listed r

/-- one text has at most one form, and one answer -/
theorem Form.Reads.unique {form form' : Form} {v' : Verdict} (h : form.Reads names t v)
    (h' : form'.Reads names t v') : form = form' ∧ v = v' := by
  obtain rfl : form = form' := Option.some.inj (h.of?.symm.trans h'.of?)
  exact ⟨rfl, Option.some.inj ((reader_eq_some_iff.2 h).symm.trans (reader_eq_some_iff.2 h'))⟩

/-! ## Asking the forms in turn -/

/-- the forms in any order give the answer of the one that reads the text -/
theorem findSome?_forms_iff {order : List (Text → Option Verdict)} (h : order.Perm (forms names)) :
    order.findSome? (fun form => form t) = some v ↔ ∃ form : Form, form.Reads names t v := by
  have hmem : ∀ f, f ∈ order ↔ ∃ form : Form, form.reader names = f := by
    intro f
    rw [h.mem_iff]
    constructor
    · intro hf
      simp only [forms, List.mem_cons, List.not_mem_nil, or_false] at hf
      rcases hf with rfl | rfl | rfl | rfl | rfl | rfl
      exacts [⟨.letter, rfl⟩, ⟨.itself, rfl⟩, ⟨.octal, rfl⟩, ⟨.hexadecimal, rfl⟩, ⟨.named, rfl⟩, ⟨.mnemonic, rfl⟩]
    · rintro ⟨form, rfl⟩
      cases form <;> simp [forms, Form.reader]
  constructor
  · intro hfound
    obtain ⟨f, hf, hanswer⟩ := List.exists_of_findSome?_eq_some hfound
    obtain ⟨form, rfl⟩ := (hmem f).1 hf
    exact ⟨form, reader_eq_some_iff.1 hanswer⟩
  · rintro ⟨form, hreads⟩
    have hfound : (order.findSome? fun f => f t).isSome :=
      List.findSome?_isSome_iff.2 ⟨form.reader names, (hmem _).2 ⟨form, rfl⟩, by simp [reader_eq_some_iff.2 hreads]⟩
    obtain ⟨w, hw⟩ := Option.isSome_iff_exists.1 hfound
    obtain ⟨f, hf, hanswer⟩ := List.exists_of_findSome?_eq_some hw
    obtain ⟨form', rfl⟩ := (hmem f).1 hf
    rw [hw, (reader_eq_some_iff.1 hanswer).unique hreads |>.2]

/-- the order in which the forms are asked does not matter -/
theorem findSome?_perm {order : List (Text → Option Verdict)} (h : order.Perm (forms names)) (t : Text) :
    order.findSome? (fun form => form t) = (forms names).findSome? fun form => form t := by
  apply Option.ext
  intro v
  rw [findSome?_forms_iff h, findSome?_forms_iff (List.Perm.refl _)]

theorem Form.Reads.ne_nil {form : Form} (h : form.Reads names t v) : t ≠ [] := by
  rintro rfl
  cases h.of?

/-- what is refused of a text that goes on: what the form that reads it refuses, or all if no form does -/
inductive Refuses (names : CharNames) (t : Text) : Refusal → Prop where
  | form {form : Form} {r : Refusal} : form.Reads names t (.error r) → Refuses names t r
  | unknown :
      t ≠ [] → (∀ (form : Form) (v : Verdict), ¬ form.Reads names t v) → Refuses names t ⟨t.take 1, .unknown⟩

theorem read_of_reads {form : Form} (h : form.Reads names t v) : read names t = v := by
  rw [read, if_neg h.ne_nil, (findSome?_forms_iff (List.Perm.refl _)).2 ⟨form, h⟩, Option.getD_some]

theorem read_of_unread (hne : t ≠ []) (h : ∀ (form : Form) (v : Verdict), ¬ form.Reads names t v) :
    read names t = .error ⟨t.take 1, .unknown⟩ := by
  have hnone : (forms names).findSome? (fun form => form t) = none := by
    by_contra hsome
    obtain ⟨v, hv⟩ := Option.ne_none_iff_exists'.1 hsome
    obtain ⟨form, hform⟩ := (findSome?_forms_iff (List.Perm.refl _)).1 hv
    exact h form v hform
  rw [read, if_neg hne, hnone, Option.getD_none]

/-- a text is read by a form, or nothing of it is -/
theorem read_cases (names : CharNames) (t : Text) :
    t = [] ∨ (∃ form : Form, form.Reads names t (read names t)) ∨
      (t ≠ [] ∧ ∀ (form : Form) (v : Verdict), ¬ form.Reads names t v) := by
  by_cases hnil : t = []
  · exact Or.inl hnil
  · by_cases hsome : ∃ (form : Form) (v : Verdict), form.Reads names t v
    · obtain ⟨form, v, h⟩ := hsome
      exact Or.inr (Or.inl ⟨form, (read_of_reads h).symm ▸ h⟩)
    · exact Or.inr (Or.inr ⟨hnil, fun form v h => hsome ⟨form, v, h⟩⟩)

theorem read_eq_ok_iff {s : Spelling} : read names t = .ok s ↔ ∃ form : Form, form.Reads names t (.ok s) := by
  constructor
  · intro h
    rcases read_cases names t with rfl | ⟨form, hform⟩ | ⟨hne, hunread⟩
    · cases h
    · exact ⟨form, h ▸ hform⟩
    · rw [read_of_unread hne hunread] at h
      cases h
  · rintro ⟨form, h⟩
    exact read_of_reads h

theorem read_eq_error_iff (hne : t ≠ []) {r : Refusal} : read names t = .error r ↔ Refuses names t r := by
  constructor
  · intro h
    rcases read_cases names t with hnil | ⟨form, hform⟩ | ⟨_, hunread⟩
    · exact absurd hnil hne
    · exact .form (h ▸ hform)
    · rw [read_of_unread hne hunread] at h
      cases h
      exact .unknown hne hunread
  · intro h
    cases h with
    | form hform => exact read_of_reads hform
    | unknown hne hunread => exact read_of_unread hne hunread

/-- a form that refuses never says that the text has ended: it is an invalid escape, unless a name has no bytes -/
theorem Refuses.fault {r : Refusal} (h : Refuses names t r) :
    r.defect ≠ .nothingFollows ∧ ((∃ d, r.defect.fault = .ok (.invalidEscape d)) ∨ ∃ name rest e,
      t = ofName name ++ rest ∧ .braceClose ∉ name ∧ name.encodeUtf8 = .error e ∧ r.defect = .nameUnencodable e) := by
  cases h with
  | form hform =>
    cases hform with
    | nameUnencodable hname hencode =>
      exact ⟨Defect.noConfusion, Or.inr ⟨_, _, _, rfl, hname, hencode, rfl⟩⟩
    | _ => exact ⟨Defect.noConfusion, Or.inl ⟨_, rfl⟩⟩
  | unknown => exact ⟨Defect.noConfusion, Or.inl ⟨_, rfl⟩⟩

theorem Refuses.toError_eq_template_iff {r : Refusal} (h : Refuses names t r) {start : Int} {e : TemplateError} :
    r.toError .backslash start = .template e ↔
      ∃ fault, r.defect.fault = .ok fault ∧ e = ⟨fault, .backslash :: r.body, start⟩ := by
  have hsnippet : r.snippet .backslash = .backslash :: r.body := if_neg h.fault.1
  unfold Refusal.toError
  cases hfault : r.defect.fault with
  | ok fault => simp [hsnippet, eq_comm]
  | error f => simp

theorem Refusal.toError_eq_failure_iff {r : Refusal} {lead : CodePoint} {start : Int} {f : Failure} :
    r.toError lead start = .failure f ↔
      ∃ e : Text.SurrogateError, r.defect = .nameUnencodable e ∧ f = .saying "UnicodeEncodeError" e.message := by
  obtain ⟨body, defect⟩ := r
  cases defect with
  | nameUnencodable e => simp [toError, Defect.fault, eq_comm]
  | _ => simp [toError, Defect.fault]

/-- what a form accepts starts the text -/
theorem Form.Reads.start {form : Form} {s : Spelling} (h : form.Reads names t (.ok s)) : s.body <+: t :=
  (read_starts (read_of_reads h)).start

/-! ## The escape at a backslash -/

theorem match?_backslash (names : CharNames) {position : Nat} (h : t[position]? = some .backslash) :
    match? names t position = match read names (t.drop (position + 1)) with
      | .ok s => .ok (s.toToken .backslash position)
      | .error r => .error (r.toError .backslash position) := by
  obtain ⟨hlt, hget⟩ := List.getElem?_eq_some_iff.1 h
  have hdrop : t.drop position = .backslash :: t.drop (position + 1) := by
    rw [← hget, List.drop_eq_getElem_cons hlt]
  unfold match?
  cases hread : read names (t.drop (position + 1)) with
  | ok s => simp [hdrop, hread]
  | error r => simp [hdrop, hread]

theorem match?_end (names : CharNames) {position : Nat} (h : t[position]? = some .backslash)
    (hend : t.drop (position + 1) = []) : match? names t position =
      .error (.template ⟨.malformedEscape (some (text "trailing backslash")), [.backslash], position⟩) := by
  rw [match?_backslash names h, hend]
  rfl

theorem match?_eq_ok_iff (names : CharNames) {position : Nat} (h : t[position]? = some .backslash) {token : Token} :
    match? names t position = .ok token ↔ ∃ (form : Form) (p value : Text), p <+: t.drop (position + 1) ∧
      form.Reads names (t.drop (position + 1)) (.ok ⟨p, value⟩) ∧ token = .escape (.backslash :: p) value position := by
  rw [match?_backslash names h]
  constructor
  · intro htoken
    cases hread : read names (t.drop (position + 1)) with
    | error r => simp [hread] at htoken
    | ok s =>
      simp only [hread, Except.ok.injEq] at htoken
      obtain ⟨form, hform⟩ := read_eq_ok_iff.1 hread
      exact ⟨form, s.body, s.value, hform.start, hform, htoken.symm⟩
  · rintro ⟨form, p, value, _, hform, rfl⟩
    rw [read_of_reads hform]
    rfl

theorem match?_eq_error_iff (names : CharNames) {position : Nat} (h : t[position]? = some .backslash)
    (hne : t.drop (position + 1) ≠ []) {e : ReadError} :
    match? names t position = .error e ↔
      ∃ r, Refuses names (t.drop (position + 1)) r ∧ r.toError .backslash position = e := by
  rw [match?_backslash names h]
  constructor
  · intro herror
    cases hread : read names (t.drop (position + 1)) with
    | ok s => simp [hread] at herror
    | error r =>
      simp only [hread, Except.error.injEq] at herror
      exact ⟨r, (read_eq_error_iff hne).1 hread, herror⟩
  · rintro ⟨r, hr, rfl⟩
    rw [(read_eq_error_iff hne).2 hr]

/-- what is no escape is an invalid one, with what the form that reads it refuses -/
theorem match?_eq_template_iff (names : CharNames) {position : Nat} (h : t[position]? = some .backslash)
    (hne : t.drop (position + 1) ≠ []) {e : TemplateError} :
    match? names t position = .error (.template e) ↔ ∃ r fault, Refuses names (t.drop (position + 1)) r ∧
      r.defect.fault = .ok fault ∧ fault.kind = text "InvalidEscapeSequence" ∧
        e = ⟨fault, .backslash :: r.body, position⟩ := by
  rw [match?_eq_error_iff names h hne]
  constructor
  · rintro ⟨r, hr, htoError⟩
    obtain ⟨fault, hfault, rfl⟩ := hr.toError_eq_template_iff.1 htoError
    obtain ⟨d, hd⟩ | ⟨_, _, _, _, _, _, hdefect⟩ := hr.fault.2
    · cases hfault.symm.trans hd
      exact ⟨r, _, hr, hfault, rfl, rfl⟩
    · rw [hdefect] at hfault
      cases hfault
  · rintro ⟨r, fault, hr, hfault, _, rfl⟩
    exact ⟨r, hr, hr.toError_eq_template_iff.2 ⟨fault, hfault, rfl⟩⟩

/-- a name without bytes is no escape, and no invalid one either -/
theorem match?_eq_failure_iff (names : CharNames) {position : Nat} (h : t[position]? = some .backslash) {f : Failure} :
    match? names t position = .error (.failure f) ↔ ∃ name rest e, t.drop (position + 1) = ofName name ++ rest ∧
      .braceClose ∉ name ∧ name.encodeUtf8 = .error e ∧ f = .saying "UnicodeEncodeError" e.message := by
  constructor
  · intro hfails
    have hne : t.drop (position + 1) ≠ [] := by
      intro hend
      cases (match?_end names h hend).symm.trans hfails
    obtain ⟨r, hr, htoError⟩ := (match?_eq_error_iff names h hne).1 hfails
    obtain ⟨e, hdefect, rfl⟩ := Refusal.toError_eq_failure_iff.1 htoError
    obtain ⟨d, hd⟩ | ⟨name, rest, e', hsplit, hname, hencode, hdefect'⟩ := hr.fault.2
    · rw [hdefect] at hd
      cases hd
    · cases hdefect.symm.trans hdefect'
      exact ⟨name, rest, e, hsplit, hname, hencode, rfl⟩
  · rintro ⟨name, rest, e, hsplit, hname, hencode, rfl⟩
    have hreads : Form.named.Reads names (t.drop (position + 1)) (.error ⟨ofName name, .nameUnencodable e⟩) := by
      rw [hsplit]
      exact .nameUnencodable hname hencode
    exact (match?_eq_error_iff names h hreads.ne_nil).2 ⟨_, .form hreads, rfl⟩

/-- **The escapes that are recognized.** Behind a backslash the end of the text is a malformed escape; otherwise an
escape is recognized exactly if a form accepts what follows, and anything else is an invalid escape with the code points
at fault, but for one thing: a name in which there is a surrogate cannot be looked up, and it is the look-up that fails
then, with an error that is none of the template. No two forms read one text, so that they may be asked in any order. -/
theorem match?_recognizes (names : CharNames) {t : Text} {position : Nat} (h : t[position]? = some .backslash) :
    (t.drop (position + 1) = [] → match? names t position =
        .error (.template ⟨.malformedEscape (some (text "trailing backslash")), [.backslash], position⟩)) ∧
      ((∃ e, match? names t position = .error (.template e) ∧ e.fault.kind = text "MalformedEscape") ↔
        t.drop (position + 1) = []) ∧
      (∀ token, match? names t position = .ok token ↔ ∃ (form : Form) (p value : Text), p <+: t.drop (position + 1) ∧
        form.Reads names (t.drop (position + 1)) (.ok ⟨p, value⟩) ∧
          token = .escape (.backslash :: p) value position) ∧
      (t.drop (position + 1) ≠ [] → ∀ e, match? names t position = .error (.template e) ↔
        ∃ r fault, Refuses names (t.drop (position + 1)) r ∧ r.defect.fault = .ok fault ∧
          fault.kind = text "InvalidEscapeSequence" ∧ e = ⟨fault, .backslash :: r.body, position⟩) ∧
      ((∃ f, match? names t position = .error (.failure f)) ↔ ∃ name rest, t.drop (position + 1) = ofName name ++ rest ∧
        .braceClose ∉ name ∧ ∃ c ∈ name, c.isSurrogate) ∧
      (∀ f, match? names t position = .error (.failure f) → f.kind = text "UnicodeEncodeError") ∧
      (∀ (form form' : Form) (v v' : Verdict), form.Reads names (t.drop (position + 1)) v →
        form'.Reads names (t.drop (position + 1)) v' → form = form' ∧ v = v') ∧
      ∀ order : List (Text → Option Verdict), order.Perm (forms names) →
        order.findSome? (fun form => form (t.drop (position + 1))) =
          (forms names).findSome? fun form => form (t.drop (position + 1)) := by
  have hmalformed : (∃ e, match? names t position = .error (.template e) ∧ e.fault.kind = text "MalformedEscape") →
      t.drop (position + 1) = [] := by
    intro hex
    by_contra hne
    obtain ⟨e, he, hkind⟩ := hex
    obtain ⟨r, fault, _, _, hinvalid, rfl⟩ := (match?_eq_template_iff names h hne).1 he
    exact absurd (hkind.symm.trans hinvalid) (by decide)
  refine ⟨match?_end names h, ⟨hmalformed, ?_⟩, ?_, ?_, ⟨?_, ?_⟩, ?_, ?_, ?_⟩
  · intro hend
    exact ⟨_, match?_end names h hend, rfl⟩
  · intro token
    exact match?_eq_ok_iff names h
  · intro hne e
    exact match?_eq_template_iff names h hne
  · rintro ⟨f, hf⟩
    obtain ⟨name, rest, e, hsplit, hname, hencode, _⟩ := (match?_eq_failure_iff names h).1 hf
    exact ⟨name, rest, hsplit, hname, Text.encodeUtf8_eq_error_iff.1 ⟨e, hencode⟩⟩
  · rintro ⟨name, rest, hsplit, hname, hsurrogate⟩
    obtain ⟨e, hencode⟩ := Text.encodeUtf8_eq_error_iff.2 hsurrogate
    exact ⟨_, (match?_eq_failure_iff names h).2 ⟨name, rest, e, hsplit, hname, hencode, rfl⟩⟩
  · intro f hf
    obtain ⟨_, _, _, _, _, _, rfl⟩ := (match?_eq_failure_iff names h).1 hf
    rfl
  · intro form form' v v' hform hform'
    exact hform.unique hform'
  · intro order horder
    exact findSome?_perm horder _

/-- the unit separator is no hexadecimal escape that lacks its digits -/
theorem match?_recognizes_unit_separator :
    (text "a\\US\\u12")[1]? = some .backslash ∧
      match? .none (text "a\\US\\u12") 1 = .ok (.escape (text "\\US") [⟨0x1F, by decide⟩] 1) ∧
      (text "a\\US\\u12")[4]? = some .backslash ∧
      match? .none (text "a\\US\\u12") 4 =
        .error (.template ⟨.invalidEscape (some (text "expected 4 hex digits")), text "\\u12", 4⟩) := by
  have hseparator : (text "a\\US\\u12")[1]? = some .backslash := by decide
  have hdigits : (text "a\\US\\u12")[4]? = some .backslash := by decide
  have hlongest : LongestMnemonic (['U', 'S'], 0x1F) (text "US\\u12") := ⟨by decide, by decide, by decide⟩
  have hwidth : hexWidth? (.ofChar 'u') = some 4 := by decide
  have hfew : ¬ HexDigits 4 (text "12") := fun hall => absurd hall.length (by decide)
  have hUS : ¬ text "US" <+: .ofChar 'u' :: text "12" := by decide
  obtain ⟨_, _, haccepts, _⟩ := match?_recognizes .none hseparator
  obtain ⟨_, _, _, hrefuses, _⟩ := match?_recognizes .none hdigits
  refine ⟨hseparator, ?_, hdigits, ?_⟩
  · exact (haccepts _).2 ⟨.mnemonic, text "US", [⟨0x1F, by decide⟩], by decide, .mnemonic hlongest rfl, by decide⟩
  · have hmissing : Form.hexadecimal.Reads .none (text "u12") (.error ⟨text "u12", .hexDigitsMissing 4⟩) :=
      .digitsMissing hwidth hfew hUS
    exact (hrefuses (by decide) _).2 ⟨_, _, .form hmissing, rfl, rfl, rfl⟩

/-- a backslash with a name between braces behind it, which is a surrogate -/
def surrogateName : Text := .backslash :: ofName [⟨0xD800, by decide⟩]

/-- not everything behind a backslash is an escape or an invalid one: a name that is a surrogate is neither -/
theorem match?_surrogate_name : ¬ ∀ (names : CharNames) (t : Text) (position : Nat), t[position]? = some .backslash →
    t.drop (position + 1) ≠ [] → (∃ token, match? names t position = .ok token) ∨
      ∃ e, match? names t position = .error (.template e) ∧ e.fault.kind = text "InvalidEscapeSequence" := by
  intro h
  have hfails : match? .none surrogateName 0 = .error (.failure (.saying "UnicodeEncodeError"
      (Text.SurrogateError.message ⟨0, 1, ⟨0xD800, by decide⟩⟩))) := by rfl
  rcases h .none surrogateName 0 (by decide) (by decide) with ⟨token, htoken⟩ | ⟨e, he, _⟩
  · cases hfails.symm.trans htoken
  · cases hfails.symm.trans he

end Escape

end PercentLiteral

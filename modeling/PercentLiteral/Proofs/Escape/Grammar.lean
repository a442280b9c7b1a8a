/-
The escapes as a grammar.

`Spells` lists what may stand behind a backslash, form by form and without regard to the text that follows. Of that text
the next code point alone matters, and only to two kinds of spelling: a digit prolongs an octal number of less than
three digits, and an H makes \SOH of \SO (`Prolongs`).

- `read_iff`: reading accepts exactly the spellings that start the text and that the next code point does not prolong.
- `read_refused`: what is at fault in a refused escape starts the text, and nothing but the end of the text is reported
  as such.
-/
import PercentLiteral.Proofs.Escape.Recognition

namespace PercentLiteral

namespace Escape

/-! ## Spellings -/

/-- what may stand behind a backslash, and what it denotes -/
inductive Spells (names : CharNames) : Text → Text → Prop where
  | letter {c v : CodePoint} : letterValue? c = some v → Spells names [c] [v]
  | itself {c : CodePoint} : c = .hash ∨ c.isSpace → Spells names [c] [c]
  | octal {ds : Text} {v : CodePoint} :
      ds ≠ [] → ds.length ≤ 3 → (∀ d ∈ ds, d.isOctal) → v.val = Text.ofDigits 8 (ds.map fun d => d.val - 0x30) →
      v.val ≤ 0xFF → Spells names ds [v]
  | hexadecimal {c : CodePoint} {ds : Text} {v : CodePoint} :
      hexWidth? c = some ds.length → (∀ d ∈ ds, d.hexValue?.isSome) →
      CodePoint.ofNat? (Text.ofDigits 16 (ds.filterMap CodePoint.hexValue?)) = some v → Spells names (c :: ds) [v]
  | named {name v : Text} :
      .braceClose ∉ name → names.find? name = some v → Spells names (ofName name) v
  | mnemonic {e : List Char × Nat} {v : CodePoint} :
      e ∈ mnemonics → CodePoint.ofNat? e.2 = some v → Spells names (e.1.map CodePoint.ofChar) [v]

/-- whether the code point behind a spelling belongs to the escape as well -/
def Prolongs (body : Text) (next : Option CodePoint) : Prop :=
  (body.length < 3 ∧ (∀ d ∈ body, d.isOctal) ∧ ∃ d ∈ next, d.isOctal) ∨ (body = text "SO" ∧ next = some (.ofChar 'H'))

instance (body : Text) (next : Option CodePoint) : Decidable (Prolongs body next) :=
  inferInstanceAs (Decidable (_ ∨ _))

theorem not_prolongs_none (body : Text) : ¬ Prolongs body none := by
  simp [Prolongs]

/-- only a digit or an H ever prolongs -/
theorem not_prolongs_of_next {body : Text} {c : CodePoint} (hoctal : c.isOctal = false) (hH : c ≠ .ofChar 'H') :
    ¬ Prolongs body (some c) := by
  simp [Prolongs, hoctal, hH]

/-- only what begins with a digit or an S is ever prolonged -/
theorem not_prolongs_of_lead {c : CodePoint} {body : Text} (hoctal : c.isOctal = false) (hS : c ≠ .ofChar 'S')
    (next : Option CodePoint) : ¬ Prolongs (c :: body) next := by
  simp [Prolongs, hoctal, text, hS]

/-! ## What stands in a spelling -/

theorem hexValue?_lead {d : CodePoint} (h : d.hexValue?.isSome) :
    d ≠ .backslash ∧ d ≠ .hash ∧ d.isSpace = false := by
  refine ⟨?_, ?_, ?_⟩
  · rintro rfl
    exact absurd h (by decide)
  · rintro rfl
    exact absurd h (by decide)
  · by_contra hspace
    simp only [CodePoint.isSpace, Bool.not_eq_false, Bool.or_eq_true, Bool.and_eq_true, decide_eq_true_eq,
      beq_iff_eq] at hspace
    simp only [CodePoint.hexValue?] at h
    split_ifs at h <;> first | omega | cases h

/-- a backslash stands in no spelling but its own -/
theorem Spells.backslash {names : CharNames} {body value : Text} (h : Spells names body value) :
    body = [.backslash] ∨ .backslash ∉ body := by
  have single : ∀ c : CodePoint, [c] = [.backslash] ∨ CodePoint.backslash ∉ [c] := by
    intro c
    by_cases hc : c = .backslash
    · exact Or.inl (by rw [hc])
    · exact Or.inr (by simpa using fun h => hc h.symm)
  cases h with
  | @letter c v hv => exact single c
  | @itself c hc => exact single c
  | octal _ _ hall =>
    right
    intro hmem
    exact absurd (hall _ hmem) (by decide)
  | @hexadecimal c ds v hwidth hdigits =>
    right
    intro hmem
    rcases List.mem_cons.1 hmem with rfl | hmem
    · exact absurd hwidth (by simp [hexWidth?, CodePoint.backslash])
    · exact (hexValue?_lead (hdigits _ hmem)).1 rfl
  | named hname hv =>
    right
    have hno := names.backslash_notMem _ _ hv
    have hN : CodePoint.backslash ≠ .ofChar 'N' := by decide
    have hopen : CodePoint.backslash ≠ .braceOpen := by decide
    have hclose : CodePoint.backslash ≠ .braceClose := by decide
    simp [ofName, hno, hN, hopen, hclose]
  | mnemonic he hv =>
    right
    have listed : ∀ e ∈ mnemonics, CodePoint.backslash ∉ e.1.map CodePoint.ofChar := by decide
    exact listed _ he

/-- a number sign or a blank stands in no spelling but its own and those of names -/
theorem Spells.mark {names : CharNames} {body value : Text} (h : Spells names body value) {c : CodePoint}
    (hmem : c ∈ body) (hc : c = .hash ∨ c.isSpace) :
    (body = [c] ∧ value = [c]) ∨ ∃ name, body = ofName name := by
  cases h with
  | @letter d v hv =>
    obtain rfl : c = d := List.mem_singleton.1 hmem
    obtain ⟨hhash, hspace, _⟩ := letterValue?_lead hv
    simp [hhash, hspace] at hc
  | @itself d hd =>
    obtain rfl : c = d := List.mem_singleton.1 hmem
    exact Or.inl ⟨rfl, rfl⟩
  | octal _ _ hall =>
    obtain ⟨_, hhash, hspace⟩ := octal_lead (hall c hmem)
    simp [hhash, hspace] at hc
  | @hexadecimal d ds v hwidth hdigits =>
    rcases List.mem_cons.1 hmem with rfl | hmem
    · obtain ⟨_, _, hhash, hspace, _⟩ := hexWidth?_lead hwidth
      simp [hhash, hspace] at hc
    · obtain ⟨_, hhash, hspace⟩ := hexValue?_lead (hdigits c hmem)
      simp [hhash, hspace] at hc
  | @named name v => exact Or.inr ⟨name, rfl⟩
  | mnemonic he hv =>
    have listed : ∀ e ∈ mnemonics, ∀ c ∈ e.1.map CodePoint.ofChar, c ≠ .hash ∧ c.isSpace = false := by decide
    obtain ⟨hhash, hspace⟩ := listed _ he c hmem
    simp [hhash, hspace] at hc

/-! ## What the forms accept -/

/-- a spelling that starts a text and that the rest does not prolong -/
structure Spelled (names : CharNames) (t : Text) (s : Spelling) : Prop where
  spells : Spells names s.body s.value
  split : ∃ rest, t = s.body ++ rest ∧ ¬ Prolongs s.body rest.head?

theorem not_prolongs_octal_iff {ds : Text} {next : Option CodePoint} (hne : ds ≠ []) (hall : ∀ d ∈ ds, d.isOctal) :
    ¬ Prolongs ds next ↔ ¬ (ds.length < 3 ∧ ∃ d ∈ next, d.isOctal) := by
  have hSO : ds ≠ text "SO" := by
    rintro rfl
    exact absurd (hall (.ofChar 'S') (by decide)) (by decide)
  rw [Prolongs, or_iff_left (fun h => hSO h.1)]
  exact ⟨fun h hnext => h ⟨hnext.1, hall, hnext.2⟩, fun h hnext => h ⟨hnext.1, hnext.2.2⟩⟩

/-- a mnemonic that starts another is \SO before \SOH -/
theorem mnemonic_prefix {a e : List Char × Nat} (ha : a ∈ mnemonics) (he : e ∈ mnemonics)
    (h : ofMnemonic a <+: ofMnemonic e) :
    a = e ∨ (ofMnemonic a = text "SO" ∧ e = (['S', 'O', 'H'], 0x01)) := by
  have listed : ∀ a ∈ mnemonics, ∀ e ∈ mnemonics, ofMnemonic a <+: ofMnemonic e →
      a = e ∨ (ofMnemonic a = text "SO" ∧ e = (['S', 'O', 'H'], 0x01)) := by decide +kernel
  exact listed a ha e he h

/-- a mnemonic is the longest that there is unless the next code point makes another of it -/
theorem longestMnemonic_iff {e : List Char × Nat} (he : e ∈ mnemonics) {r : Text} :
    LongestMnemonic e (ofMnemonic e ++ r) ↔ ¬ Prolongs (ofMnemonic e) r.head? := by
  constructor
  · rintro hlongest (⟨_, hall, _⟩ | ⟨hSO, hH⟩)
    · obtain ⟨c, d, u, hbody, _, _, _, hoctal, _⟩ := mnemonic_lead he
      have : c.isOctal := hall c (by simp [hbody])
      simp [hoctal] at this
    · obtain ⟨u, rfl⟩ : ∃ u, r = .ofChar 'H' :: u := List.head?_eq_some_iff.1 hH
      have hSOH : ofMnemonic (['S', 'O', 'H'], 0x01) <+: ofMnemonic e ++ .ofChar 'H' :: u := ⟨u, by rw [hSO]; rfl⟩
      have hlength := hlongest.longest _ (by decide) hSOH
      rw [hSO] at hlength
      exact absurd hlength (by decide)
  · intro hnext
    refine ⟨he, List.prefix_append _ _, ?_⟩
    intro a ha hprefix
    -- two names that start the same text: one starts the other
    rcases List.prefix_or_prefix_of_prefix hprefix (List.prefix_append _ r) with hae | hea
    · exact hae.length_le
    · rcases mnemonic_prefix he ha hea with rfl | ⟨hshort, rfl⟩
      · exact Nat.le_refl _
      · rw [hshort] at hprefix hnext
        have hH : [.ofChar 'H'] <+: r := (List.prefix_append_right_inj (text "SO")).1 hprefix
        obtain ⟨u, rfl⟩ := hH
        exact absurd (Or.inr ⟨rfl, rfl⟩) hnext

theorem Form.Reads.spelled {names : CharNames} {form : Form} {t : Text} {s : Spelling}
    (h : form.Reads names t (.ok s)) : Spelled names t s := by
  cases h with
  | letter hv =>
    obtain ⟨_, _, hoctal, hS, _⟩ := letterValue?_lead hv
    exact ⟨.letter hv, _, rfl, not_prolongs_of_lead hoctal hS _⟩
  | itself hc =>
    obtain ⟨_, hoctal, hS⟩ := itself_lead hc
    exact ⟨.itself hc, _, rfl, not_prolongs_of_lead hoctal hS _⟩
  | octal hrun hv hle =>
    exact ⟨.octal hrun.filled hrun.few hrun.digits hv hle, _, rfl,
      (not_prolongs_octal_iff hrun.filled hrun.digits).2 hrun.longest⟩
  | hexadecimal hwidth hdigits hv =>
    obtain ⟨_, _, _, _, hoctal, hS⟩ := hexWidth?_lead hwidth
    exact ⟨.hexadecimal (hdigits.length.symm ▸ hwidth) hdigits.digits (ofNat?_eq_some_iff.2 hv), _, rfl,
      not_prolongs_of_lead hoctal hS _⟩
  | named hname hv => exact ⟨.named hname hv, _, rfl, not_prolongs_of_lead (by decide) (by decide) _⟩
  | mnemonic he hv =>
    obtain ⟨r, rfl⟩ := he.start
    exact ⟨.mnemonic he.listed (ofNat?_eq_some_iff.2 hv), r, rfl, (longestMnemonic_iff he.listed).1 he⟩

theorem Spelled.reads {names : CharNames} {t : Text} {s : Spelling} (h : Spelled names t s) :
    ∃ form : Form, form.Reads names t (.ok s) := by
  obtain ⟨body, value⟩ := s
  obtain ⟨hspells, r, rfl, hnext⟩ := h
  cases hspells with
  | letter hv => exact ⟨_, .letter hv⟩
  | itself hc => exact ⟨_, .itself hc⟩
  | octal hne hlength hall hv hle =>
    have hrun : OctalRun body r := ⟨hne, hlength, hall, (not_prolongs_octal_iff hne hall).1 hnext⟩
    exact ⟨_, .octal hrun hv hle⟩
  | hexadecimal hwidth hdigits hv => exact ⟨_, .hexadecimal hwidth ⟨rfl, hdigits⟩ (ofNat?_eq_some_iff.1 hv)⟩
  | named hname hv => exact ⟨_, .named hname hv⟩
  | mnemonic he hv => exact ⟨_, .mnemonic ((longestMnemonic_iff he).2 hnext) (ofNat?_eq_some_iff.1 hv)⟩

/-! ## What is read -/

theorem read_letter (names : CharNames) {l c : CodePoint} (h : letterValue? l = some c) (r : Text) :
    read names (l :: r) = .ok ⟨[l], [c]⟩ :=
  read_of_reads (.letter h)

theorem read_itself (names : CharNames) {c : CodePoint} (h : c = .hash ∨ c.isSpace) (r : Text) :
    read names (c :: r) = .ok ⟨[c], [c]⟩ :=
  read_of_reads (.itself h)

theorem read_hexadecimal {names : CharNames} {c : CodePoint} {ds : Text} {v : CodePoint}
    (hwidth : hexWidth? c = some ds.length) (hdigits : ∀ d ∈ ds, d.hexValue?.isSome)
    (hv : CodePoint.ofNat? (Text.ofDigits 16 (ds.filterMap CodePoint.hexValue?)) = some v) (r : Text) :
    read names (c :: ds ++ r) = .ok ⟨c :: ds, [v]⟩ :=
  read_of_reads (.hexadecimal hwidth ⟨rfl, hdigits⟩ (ofNat?_eq_some_iff.1 hv))

/-- **The escapes that are read.** Reading accepts exactly the spellings that start the text and are not prolonged. -/
theorem read_iff {names : CharNames} {t : Text} {s : Spelling} : read names t = .ok s ↔ Spelled names t s := by
  rw [read_eq_ok_iff]
  exact ⟨fun ⟨_, h⟩ => h.spelled, Spelled.reads⟩

theorem spelled_append_iff {names : CharNames} {body value r : Text} :
    Spelled names (body ++ r) ⟨body, value⟩ ↔ Spells names body value ∧ ¬ Prolongs body r.head? := by
  constructor
  · rintro ⟨hspells, rest, hrest, hnext⟩
    obtain rfl : r = rest := List.append_cancel_left hrest
    exact ⟨hspells, hnext⟩
  · rintro ⟨hspells, hnext⟩
    exact ⟨hspells, r, rfl, hnext⟩

/-- a text is read as a whole exactly if it is a spelling -/
theorem read_self_iff {names : CharNames} {body value : Text} :
    read names body = .ok ⟨body, value⟩ ↔ Spells names body value := by
  have h := @spelled_append_iff names body value []
  rw [List.append_nil] at h
  rw [read_iff, h]
  exact and_iff_left (not_prolongs_none body)

/-- before other text, what is read as a whole is read again exactly if it is not prolonged -/
theorem read_append_iff {names : CharNames} {body value r : Text} :
    read names (body ++ r) = .ok ⟨body, value⟩ ↔
      read names body = .ok ⟨body, value⟩ ∧ ¬ Prolongs body r.head? := by
  rw [read_iff, spelled_append_iff, read_self_iff]

/-! ## What is refused -/

theorem Refuses.start {names : CharNames} {t : Text} {r : Refusal} (h : Refuses names t r) : r.body <+: t := by
  cases h with
  | form hform =>
    cases hform with
    | octalTooLarge => exact List.prefix_append _ _
    | codeTooLarge => exact List.prefix_append _ _
    | digitsMissing => exact (List.prefix_cons_inj _).2 (List.take_prefix _ _)
    | nameUnknown => exact List.prefix_append _ _
    | nameUnencodable => exact List.prefix_append _ _
    | nameUnterminated => exact List.prefix_rfl
  | unknown => exact List.take_prefix 1 t

/-- what is at fault in a refused escape starts the text; only at the end of the text nothing follows -/
theorem read_refused {names : CharNames} {t : Text} {r : Refusal} (h : read names t = .error r) :
    r.body <+: t ∧ (r.defect = .nothingFollows ↔ t = []) := by
  by_cases hne : t = []
  · subst hne
    cases h
    exact ⟨List.nil_prefix, by simp⟩
  · have hrefuses := (read_eq_error_iff hne).1 h
    exact ⟨hrefuses.start, by simp [hrefuses.fault.1, hne]⟩

end Escape

end PercentLiteral

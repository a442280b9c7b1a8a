/-
Canonical texts: those that encoding writes.

`Sign` lists what one code point may be written as before the rest of the text, and `Canonical` puts signs side by side.
Whether a number sign is written with a backslash depends on the next code point alone, and encoding neither makes nor
loses an opening brace at the start of a text (`encode_head_iff`). So the signs before an encoded text are exactly what
one code point is written as there (`sign_iff`), and the canonical texts are the encoded ones (`canonical_iff`).

`encode_decode_iff_canonical`: a text that can be decoded is what encoding makes of the result exactly if it is canonical.
-/
import PercentLiteral.Proofs.Escape.RoundTrip
import Mathlib.Data.List.Permutation

namespace PercentLiteral.Escape

/-! ## Canonical texts -/

/-- what stands for one code point in a canonical text, before the rest of it -/
inductive Sign (rest : Text) : Text → Prop where
  | plain {c : CodePoint} :
      c ≠ .backslash → ¬ c.val < 0x20 → c.val ≠ 0x7F → ¬ (c = .hash ∧ rest.head? = some .braceOpen) → Sign rest [c]
  | letter {l : CodePoint} : l ∈ text "\\abfnrtv" → Sign rest [.backslash, l]
  /-- two digits; the codes from 0x07 to 0x0D have letters -/
  | digits {n : Nat} :
      n < 0x07 ∨ 0x0D < n ∧ n < 0x20 ∨ n = 0x7F → Sign rest (.backslash :: .ofChar 'x' :: Text.hex 2 n)
  | hash : rest.head? = some .braceOpen → Sign rest [.backslash, .hash]

/-- signs side by side -/
inductive Canonical : Text → Prop where
  | nil : Canonical []
  | sign {u rest : Text} : Sign rest u → Canonical rest → Canonical (u ++ rest)

/-! ## What one code point is written as -/

theorem find?_encodedLetters_eq_none {n : Nat} :
    encodedLetters.find? (fun e => e.1 = n) = none ↔ n ≠ 0x5C ∧ (n < 0x07 ∨ 0x0D < n) := by
  simp only [encodedLetters, List.find?_eq_none, List.forall_mem_cons, List.not_mem_nil, decide_eq_true_eq]
  constructor
  · intro h
    omega
  · intro h
    refine ⟨?_, ?_, ?_, ?_, ?_, ?_, ?_, ?_, by simp⟩ <;> omega

theorem encodedChar_letter {c : CodePoint} {e : Nat × Char}
    (h : encodedLetters.find? (fun e => e.1 = c.val) = some e) (s : Text) :
    encodedChar c s = [.backslash, .ofChar e.2] := by
  simp [encodedChar, h]

theorem encodedChar_hash {s : Text} (h : s.head? = some .braceOpen) : encodedChar .hash s = [.backslash, .hash] := by
  have hfind : encodedLetters.find? (fun e => e.1 = CodePoint.hash.val) = none := by decide
  simp [encodedChar, hfind, h]

theorem encodedChar_digits {c : CodePoint} (h : c.val < 0x07 ∨ 0x0D < c.val ∧ c.val < 0x20 ∨ c.val = 0x7F) (s : Text) :
    encodedChar c s = .backslash :: .ofChar 'x' :: Text.hex 2 c.val := by
  have hfind := find?_encodedLetters_eq_none.2 (show c.val ≠ 0x5C ∧ (c.val < 0x07 ∨ 0x0D < c.val) by omega)
  have hhash : c ≠ .hash := by
    rintro rfl
    exact absurd h (by decide)
  have hcontrol : c.val < 0x20 ∨ c.val = 0x7F := by omega
  simp [encodedChar, hfind, hhash, hcontrol]

theorem encodedChar_plain {c : CodePoint} {s : Text} (hne : c ≠ .backslash) (hcontrol : ¬ c.val < 0x20)
    (hdelete : c.val ≠ 0x7F) (hopen : ¬ (c = .hash ∧ s.head? = some .braceOpen)) : encodedChar c s = [c] := by
  have hval : c.val ≠ 0x5C := fun h => hne (CodePoint.val_inj.1 h)
  have hfind := find?_encodedLetters_eq_none.2 (show c.val ≠ 0x5C ∧ (c.val < 0x07 ∨ 0x0D < c.val) by omega)
  simp [encodedChar, hfind, hopen, hcontrol, hdelete]

/-- an encoded text begins with an opening brace exactly if the text does -/
theorem encode_head_iff {s : Text} : (encode s).head? = some .braceOpen ↔ s.head? = some .braceOpen := by
  constructor
  · exact encode_head
  · intro h
    obtain ⟨rest, rfl⟩ := List.head?_eq_some_iff.1 h
    have hbrace : encodedChar .braceOpen rest = [.braceOpen] :=
      encodedChar_plain (by decide) (by decide) (by decide) (fun hhash => absurd hhash.1 (by decide))
    rw [encode, hbrace]
    rfl

/-- **Signs.** Before an encoded text, the signs are what one code point is written as there. -/
theorem sign_iff {s u : Text} : Sign (encode s) u ↔ ∃ c, encodedChar c s = u := by
  constructor
  · intro h
    cases h with
    | @plain c hne hcontrol hdelete hopen =>
      rw [encode_head_iff] at hopen
      exact ⟨c, encodedChar_plain hne hcontrol hdelete hopen⟩
    | @letter l hl =>
      have listed : ∀ l ∈ text "\\abfnrtv", ∃ e ∈ encodedLetters,
          e.1 < 0x110000 ∧ CodePoint.ofChar e.2 = l ∧ encodedLetters.find? (fun e' => e'.1 = e.1) = some e := by decide
      obtain ⟨e, _, hlt, rfl, hfind⟩ := listed l hl
      exact ⟨⟨e.1, hlt⟩, encodedChar_letter hfind s⟩
    | @digits n hn => exact ⟨⟨n, by omega⟩, encodedChar_digits hn s⟩
    | hash hhead => exact ⟨.hash, encodedChar_hash (encode_head_iff.1 hhead)⟩
  · rintro ⟨c, rfl⟩
    cases hfind : encodedLetters.find? fun e => e.1 = c.val with
    | some e =>
      have listed : ∀ e ∈ encodedLetters, CodePoint.ofChar e.2 ∈ text "\\abfnrtv" := by decide
      rw [encodedChar_letter hfind]
      exact .letter (listed e (List.mem_of_find?_eq_some hfind))
    | none =>
      obtain ⟨hval, hletter⟩ := find?_encodedLetters_eq_none.1 hfind
      by_cases hopen : c = .hash ∧ s.head? = some .braceOpen
      · obtain ⟨rfl, hhead⟩ := hopen
        rw [encodedChar_hash hhead]
        exact .hash (encode_head_iff.2 hhead)
      · by_cases hcontrol : c.val < 0x20 ∨ c.val = 0x7F
        · have hdigits : c.val < 0x07 ∨ 0x0D < c.val ∧ c.val < 0x20 ∨ c.val = 0x7F := by omega
          rw [encodedChar_digits hdigits]
          exact .digits hdigits
        · obtain ⟨hprintable, hdelete⟩ := not_or.1 hcontrol
          have hne : c ≠ .backslash := fun h => hval (congrArg CodePoint.val h)
          rw [encodedChar_plain hne hprintable hdelete hopen]
          exact .plain hne hprintable hdelete (by rwa [encode_head_iff])

/-! ## What a text is written as -/

/-- the canonical texts are the encoded ones -/
theorem canonical_iff {t : Text} : Canonical t ↔ ∃ s, encode s = t := by
  constructor
  · intro h
    induction h with
    | nil => exact ⟨[], rfl⟩
    | sign hsign _ ih =>
      obtain ⟨s, rfl⟩ := ih
      obtain ⟨c, rfl⟩ := sign_iff.1 hsign
      exact ⟨c :: s, rfl⟩
  · rintro ⟨s, rfl⟩
    induction s with
    | nil => exact .nil
    | cons c s ih => exact .sign (sign_iff.2 ⟨c, rfl⟩) ih

/-- **Canonical texts.** What encoding writes is canonical, and all that is canonical is written so; and a text that can
be decoded is what encoding makes of the result exactly if it is canonical. -/
theorem encode_decode_iff_canonical (names : CharNames) :
    (∀ t, Canonical t ↔ ∃ s, encode s = t) ∧
      ∀ t s, decode names t = .ok s → (encode s = t ↔ Canonical t) := by
  refine ⟨fun t => canonical_iff, fun t s h => ⟨fun ht => canonical_iff.2 ⟨s, ht⟩, fun hcanonical => ?_⟩⟩
  obtain ⟨s', rfl⟩ := canonical_iff.1 hcanonical
  cases (decode_encode names s').symm.trans h
  rfl

/-- a text with all kinds of signs, and one whose number sign needs no backslash -/
theorem encode_decode_iff_canonical_signs :
    (decode .none (text "#a\\#\x7b\\x1b\\n") = .ok (text "#a#\x7b" ++ [⟨0x1B, by decide⟩, .newline]) ∧
        Canonical (text "#a\\#\x7b\\x1b\\n")) ∧
      (decode .none (text "\\#a") = .ok (text "#a") ∧ ¬ Canonical (text "\\#a")) := by
  have hsigns : decode .none (text "#a\\#\x7b\\x1b\\n") = .ok (text "#a#\x7b" ++ [⟨0x1B, by decide⟩, .newline]) := by cbv
  have hneedless : decode .none (text "\\#a") = .ok (text "#a") := by cbv
  have hiff := (encode_decode_iff_canonical .none).2
  exact ⟨⟨hsigns, (hiff _ _ hsigns).1 (by decide)⟩, hneedless, fun h => absurd ((hiff _ _ hneedless).2 h) (by decide)⟩

end PercentLiteral.Escape

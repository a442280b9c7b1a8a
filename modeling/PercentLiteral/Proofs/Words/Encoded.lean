/-
The words of an encoded text.

Of the blanks of a text, encoding writes the control characters among them as escapes and leaves the others, the
separators, as they are. So an encoded text is its runs between separators, each written as a word of the expanding
modes (`encode_parted`), and such words are read back as they are (`Scan.run_of_spaced`).

`words_of_encode`: in words, an encoded text is rendered to its runs between separators.
-/
import PercentLiteral.Proofs.Escape.Canonical
import PercentLiteral.Proofs.Words.Spelling

namespace PercentLiteral

/-- a blank that is no control character -/
def CodePoint.isSeparator (c : CodePoint) : Bool := c.isSpace && 0x20 ≤ c.val

theorem CodePoint.isSeparator_iff (c : CodePoint) :
    c.isSeparator = true ↔
      c.val = 0x20 ∨ c.val = 0x85 ∨ c.val = 0xA0 ∨ c.val = 0x1680 ∨ 0x2000 ≤ c.val ∧ c.val ≤ 0x200A ∨
        c.val = 0x2028 ∨ c.val = 0x2029 ∨ c.val = 0x202F ∨ c.val = 0x205F ∨ c.val = 0x3000 := by
  simp only [isSeparator, isSpace, Bool.and_eq_true, Bool.or_eq_true, decide_eq_true_eq, beq_iff_eq]
  omega

theorem CodePoint.isSpace_of_isSeparator {c : CodePoint} (h : c.isSeparator = true) : c.isSpace = true := by
  simp only [isSeparator, Bool.and_eq_true] at h
  exact h.1

namespace Escape

/-- of the text behind a code point, encoding asks only whether it begins with an opening brace -/
theorem encodedChar_congr (c : CodePoint) {r s : Text}
    (h : r.head? = some .braceOpen ↔ s.head? = some .braceOpen) : encodedChar c r = encodedChar c s := by
  unfold encodedChar
  simp only [h]

/-- two texts are encoded apart unless the second begins with an opening brace -/
theorem encode_append (s : Text) {rest : Text} (h : rest.head? ≠ some .braceOpen) :
    encode (s ++ rest) = encode s ++ encode rest := by
  induction s with
  | nil => rfl
  | cons c s ih =>
    have hchar : encodedChar c (s ++ rest) = encodedChar c s := by
      apply encodedChar_congr
      cases s with
      | nil => simp [h]
      | cons d s => simp
    rw [List.cons_append, encode, encode, ih, hchar, List.append_assoc]

/-- a separator is written as itself -/
theorem encodedChar_separator {c : CodePoint} (h : c.isSeparator = true) (rest : Text) : encodedChar c rest = [c] := by
  have hval := (CodePoint.isSeparator_iff c).1 h
  refine encodedChar_plain ?_ (by omega) (by omega) ?_
  · rintro rfl
    exact absurd h (by decide)
  · rintro ⟨rfl, _⟩
    exact absurd h (by decide)

theorem encode_separators {g : Text} (h : ∀ c ∈ g, c.isSeparator = true) (rest : Text) :
    encode (g ++ rest) = g ++ encode rest := by
  induction g with
  | nil => rfl
  | cons c g ih =>
    obtain ⟨hc, hg⟩ := List.forall_mem_cons.1 h
    rw [List.cons_append, encode, encodedChar_separator hc, ih hg, List.singleton_append, List.cons_append]

/-- a control character is not written as itself -/
theorem encodedChar_control {c : CodePoint} (h : c.val < 0x20) (rest : Text) : encodedChar c rest ≠ [c] := by
  unfold encodedChar
  split
  · simp
  · have hhash : c ≠ .hash := by
      rintro rfl
      exact absurd h (by decide)
    simp [hhash, h]

/-- what is no separator is written without blanks -/
theorem encodedChar_solid {c : CodePoint} (h : c.isSeparator = false) (rest : Text) :
    ∀ d ∈ encodedChar c rest, d.isSpace = false := by
  have hslash : CodePoint.backslash.isSpace = false := by decide
  rcases encodedChar_cases c rest with ⟨l, hl, he⟩ | ⟨rfl, he⟩ | ⟨_, he⟩ | ⟨_, _, he⟩
  · have hspace := (letterValue?_lead hl).2.1
    simp [he, hslash, hspace]
  · rw [he]
    decide
  · have hx : (CodePoint.ofChar 'x').isSpace = false := by decide
    simp [he, hslash, hx, hex_two, Scan.hexDigit_not_space]
  · have hcontrol : ¬ c.val < 0x20 := fun hc => encodedChar_control hc rest he
    simpa [he, CodePoint.isSeparator, Nat.not_lt.1 hcontrol] using h

/-- without separators, a text is encoded as it is written as a word -/
theorem spelling_eq_encode {w : Text} (h : ∀ c ∈ w, c.isSeparator = false) : spelling w = encode w := by
  apply Text.guarded_eq_self
  induction w with
  | nil => simp [encode]
  | cons c w ih =>
    obtain ⟨hc, hw⟩ := List.forall_mem_cons.1 h
    rw [encode]
    intro d hd
    rcases List.mem_append.1 hd with hd | hd
    · exact encodedChar_solid hc w d hd
    · exact ih hw d hd

/-- **An encoded text is its words written down**, with its separators between them. -/
theorem encode_parted {ps : List (Text × Text)} (h : Parted CodePoint.isSeparator ps) :
    encode (ps.flatMap fun p => p.1 ++ p.2) = ps.flatMap fun p => spelling p.1 ++ p.2 := by
  induction h with
  | nil => rfl
  | @cons r g ps _ hr hg hlast _ ih =>
    have hnext : (g ++ ps.flatMap fun p => p.1 ++ p.2).head? ≠ some .braceOpen := by
      cases g with
      | nil => simp [hlast rfl]
      | cons c g =>
        intro hbrace
        obtain rfl : c = .braceOpen := by simpa using hbrace
        exact absurd (hg .braceOpen List.mem_cons_self) (by decide)
    rw [List.flatMap_cons, List.append_assoc, encode_append r hnext, encode_separators hg, ih, List.flatMap_cons,
      spelling_eq_encode hr, List.append_assoc]

end Escape

/-- runs and what parts them are spaced out properly, if what parts them are blanks -/
theorem Parted.proper {blank : CodePoint → Bool} (hblank : ∀ {c}, blank c = true → c.isSpace = true) {lead : Text}
    (hlead : ∀ c ∈ lead, blank c = true) {ps : List (Text × Text)} (h : Parted blank ps) :
    Spaced.Proper ⟨lead, ps⟩ := by
  refine ⟨fun c hc => hblank (hlead c hc), ?_, ?_⟩
  · induction h with
    | nil => simp [Spaced.gaps]
    | cons _ _ hg _ _ ih => exact List.forall_mem_cons.2 ⟨fun c hc => hblank (hg c hc), ih⟩
  · induction h with
    | nil => simp [Spaced.gaps]
    | @cons r g ps _ _ _ hlast hps ih =>
      cases hps with
      | nil => simp [Spaced.gaps]
      | cons => exact List.forall_mem_cons.2 ⟨fun hnil => absurd (hlast hnil) (List.cons_ne_nil _ _), ih⟩

open Render

/-- **Words of an encoded text.** Rendered in words without an evaluator, an encoded text gives its maximal runs without
separators, which are all of it but the separators, in order. The separators are the blanks from U+0020 on. -/
theorem words_of_encode (names : CharNames) (s : Text) (σ : Type) (tracing : Tracing) (state : σ) :
    (run (render names tracing none .interpolatedWords (Escape.encode s)) state).1 =
        .ok (.words (maximalRuns CodePoint.isSeparator s)) ∧
      (maximalRuns CodePoint.isSeparator s).flatten = s.filter (fun c => !c.isSeparator) ∧
      ∀ c : CodePoint, c.isSeparator = true ↔
        c.val = 0x20 ∨ c.val = 0x85 ∨ c.val = 0xA0 ∨ c.val = 0x1680 ∨ 0x2000 ≤ c.val ∧ c.val ≤ 0x200A ∨
          c.val = 0x2028 ∨ c.val = 0x2029 ∨ c.val = 0x202F ∨ c.val = 0x205F ∨ c.val = 0x3000 := by
  refine ⟨?_, flatten_maximalRuns _ s, CodePoint.isSeparator_iff⟩
  obtain ⟨lead, ps, rfl, hlead, hps⟩ := exists_parted CodePoint.isSeparator s
  have hruns : maximalRuns CodePoint.isSeparator (lead ++ ps.flatMap fun p => p.1 ++ p.2) = ps.map Prod.fst := by
    rw [maximalRuns_blanks hlead, hps.runs]
  have hencoded : Escape.encode (lead ++ ps.flatMap fun p => p.1 ++ p.2) = (Spaced.map spelling ⟨lead, ps⟩).text := by
    rw [Escape.encode_separators hlead, Escape.encode_parted hps, Spaced.text, Spaced.map, List.flatMap_map]
  have hproper := hps.proper CodePoint.isSpace_of_isSeparator hlead
  have hne : ∀ w ∈ ps.map Prod.fst, w ≠ [] := by
    rw [← hps.runs]
    exact fun w hw => by simpa using (List.mem_filter.1 hw).2
  obtain ⟨ts, hrun, hreads⟩ := Scan.run_of_spaced (Scan.expandingRules_sound names) (Scan.expandingRules_blanks names)
    (Scan.expandingRules_spelling names) hproper hne
  have hscan : scan names .interpolatedWords (Spaced.map spelling ⟨lead, ps⟩).text = .ok ts :=
    Scan.expanding_iff_run.2 hrun
  rw [hencoded, hruns]
  exact run_render_reads rfl hscan hreads hne state

/-- a tab stays in its word, a no-break space parts two, and none is made where the text begins and ends with blanks -/
example : maximalRuns CodePoint.isSeparator (text " a\tb\u00a0#{c}\n ") = [text "a\tb", text "#{c}\n"] := by
  decide

end PercentLiteral

/-
What the two scanners read alike.

An escape of raw words is an escape of the expanding modes with the same value (`Protects.expands`). So the scanners
differ only about what raw words take for text: a lone backslash, which the expanding modes read as an escape, and an
opening mark. Where no literal of raw words holds either, their run is a run of the expanding modes too
(`Run.expands`); and no literal of the expanding modes ever does.

`scan_words_eq_expanding_iff`: hence the scans are equal exactly then, and so are the words rendered.
-/
import PercentLiteral.Proofs.Render.Resolution
import PercentLiteral.Proofs.Scan.Lookahead
import PercentLiteral.Proofs.Scan.Tiling

namespace PercentLiteral

/-- tokens whose literals hold neither a backslash nor an opening mark -/
def Unmarked (ts : List Token) : Prop := ∀ s p, .literal s p ∈ ts → .backslash ∉ s ∧ ¬ [.hash, .braceOpen] <:+: s

/-- what stands in the literals of the rest stands in those of the whole -/
theorem Unmarked.rest {c : CodePoint} {start : Int} {ts : List Token} (h : Unmarked (Token.cons c start ts)) :
    Unmarked ts := by
  intro s p hmem
  obtain ⟨s', p', ts', rfl, he⟩ | ⟨_, he⟩ := Scan.cons_cases c start ts
  · rw [he] at h
    rcases List.mem_cons.1 hmem with heq | hmem
    · cases heq
      obtain ⟨hslash, hmark⟩ := h (c :: s) start List.mem_cons_self
      exact ⟨fun hs => hslash (List.mem_cons_of_mem c hs),
        fun hinner => hmark (hinner.trans (List.suffix_cons c s).isInfix)⟩
    · exact h s p (List.mem_cons_of_mem _ hmem)
  · rw [he] at h
    exact h s p (List.mem_cons_of_mem _ hmem)

namespace Scan

/-- an escape of raw words is one of the expanding modes -/
theorem Protects.expands {names : CharNames} {start : Int} {t : Text} {tok : Token} (h : Protects start t tok) :
    Expands names start t tok := by
  cases h with
  | @escape d rest hd =>
    have hletter : Escape.letterValue? .backslash = some .backslash := by decide
    have hread : Escape.read names (d :: rest) = .ok ⟨[d], [d]⟩ := by
      by_cases hslash : d = .backslash
      · subst hslash
        exact Escape.read_letter names hletter rest
      · have hspace : d.isSpace = true := by simpa [isWordEscape, hslash] using hd
        exact Escape.read_itself names (Or.inr hspace) rest
    exact .escape hread

/-- a brace begins a literal of raw words -/
theorem Run.literal_brace {rest : Text} {start : Int} {ts : List Token}
    (h : Run wordRules start (.braceOpen :: rest) ts) : ∃ s p ts', ts = .literal (.braceOpen :: s) p :: ts' := by
  generalize ht : CodePoint.braceOpen :: rest = t at h
  cases h with
  | done => cases ht
  | @token _ tok behind ts htok _ =>
    generalize tok.raw ++ behind = u at htok ht
    cases htok
    cases ht
  | @plain _ c behind ts _ _ =>
    cases ht
    obtain ⟨s, p, ts', rfl, he⟩ | ⟨_, he⟩ := cons_cases .braceOpen start ts
    · exact ⟨s, start, ts', he⟩
    · exact ⟨[], start, ts, he⟩

/-- **A run of raw words without marks** is a run of the expanding modes. -/
theorem Run.expands {names : CharNames} {start : Int} {t : Text} {ts : List Token} (h : Run wordRules start t ts)
    (hmarks : Unmarked ts) : Run (expandingRules names) start t ts := by
  induction h with
  | done start => exact .done start
  | token htok _ ih => exact .token htok.expands (ih fun s p hmem => hmarks s p (List.mem_cons_of_mem _ hmem))
  | @plain start c rest ts _ hrun ih =>
    have hfirst : ∃ s ts', Token.cons c start ts = .literal (c :: s) start :: ts' := by
      obtain ⟨s, p, ts', _, he⟩ | ⟨_, he⟩ := cons_cases c start ts
      · exact ⟨s, ts', he⟩
      · exact ⟨[], ts, he⟩
    obtain ⟨s, ts', he⟩ := hfirst
    obtain ⟨hslash, hmark⟩ := hmarks (c :: s) start (by simp [he])
    have hopen : ¬ (c = .hash ∧ rest.head? = some .braceOpen) := by
      rintro ⟨rfl, hbrace⟩
      obtain ⟨behind, rfl⟩ := List.head?_eq_some_iff.1 hbrace
      obtain ⟨u, p, us, rfl⟩ := hrun.literal_brace
      have hs : s = .braceOpen :: u := by
        cases he
        rfl
      exact hmark ⟨[], u, by rw [hs]; rfl⟩
    have hplain : (expandingRules names).plain (c :: rest) :=
      plain_iff.2 ⟨fun hc => hslash (by simp [hc]), hopen⟩
    exact .plain hplain (ih hmarks.rest)

/-- raw words have no interpolations -/
theorem interpolations_words (start : Int) (t : Text) : interpolations (words start t) = [] := by
  rw [interpolations_eq_nil_iff]
  by_contra hany
  obtain ⟨tok, hmem, hinterpolation⟩ := List.any_eq_true.1 (by simpa using hany)
  cases tok with
  | literal s p => cases hinterpolation
  | escape r v p => cases hinterpolation
  | interpolation e p =>
    obtain ⟨q, rest, hprotects⟩ := (words_run start t).tokens _ hmem (by simp)
    cases hprotects

end Scan

/-- raw texts and raw words have no interpolations -/
theorem expands_of_interpolations {names : CharNames} {mode : Mode} {t : Text} {ts : List Token}
    (h : scan names mode t = .ok ts) (hcalls : interpolations ts ≠ []) : mode.expands = true := by
  cases mode with
  | raw =>
    cases h
    split at hcalls <;> simp at hcalls
  | rawWords =>
    cases h
    exact absurd (Scan.interpolations_words 0 t) hcalls
  | interpolated => rfl
  | interpolatedWords => rfl

open Render

/-- **The common language of the two scanners.** The expanding modes scan a text as raw words do exactly if no literal of
raw words holds a backslash or an opening mark. Both then render the same words: raw words with any evaluator or none,
and the expanding mode without one. -/
theorem scan_words_eq_expanding_iff {mode : Mode} (hmode : mode.expands = true) (names : CharNames) (t : Text) :
    ∃ ts, scan names .rawWords t = .ok ts ∧ (scan names mode t = .ok ts ↔ Unmarked ts) ∧
      (scan names mode t = .ok ts → ∀ (σ : Type) (tracing : Tracing) (ev : Option (Evaluator σ)) (state : σ),
        ∃ ws, (run (render names tracing none .interpolatedWords t) state).1 = .ok (.words ws) ∧
          (run (render names tracing ev .rawWords t) state).1 = .ok (.words ws)) := by
  have hraw : scan names .rawWords t = .ok (Scan.words 0 t) := rfl
  rw [Scan.scan_of_expands hmode]
  refine ⟨Scan.words 0 t, hraw, ⟨?_, ?_⟩, ?_⟩
  · intro h s p hmem
    exact Scan.expanding_literal (Scan.expanding_iff_run.1 h) hmem
  · intro hmarks
    exact Scan.expanding_iff_run.2 ((Scan.words_run 0 t).expands hmarks)
  · intro h σ tracing ev state
    have hexpanded : scan names .interpolatedWords t = .ok (Scan.words 0 t) := h
    have hcalls := Scan.interpolations_words 0 t
    exact ⟨_, run_render_silent hexpanded hcalls state, run_render_silent hraw hcalls state⟩

/-- a guarded blank and a doubled backslash are scanned alike; a backslash before a letter is not -/
theorem scan_words_eq_expanding_iff_guarded :
    Mode.interpolated.expands = true ∧
      scan .none .interpolated (text "a\\ b \\\\c") =
        .ok [.literal (text "a") 0, .escape (text "\\ ") (text " ") 1, .literal (text "b ") 3,
          .escape (text "\\\\") (text "\\") 5, .literal (text "c") 7] ∧
      (∃ ws, (run (render .none {} none .interpolatedWords (text "a\\ b \\\\c")) ()).1 = .ok (.words ws) ∧
        (run (render .none {} none .rawWords (text "a\\ b \\\\c")) ()).1 = .ok (.words ws)) ∧
      scan .none .interpolated (text "\\n") ≠ scan .none .rawWords (text "\\n") := by
  obtain ⟨ts, hraw, hiff, hwords⟩ := scan_words_eq_expanding_iff (rfl : Mode.interpolated.expands = true) .none
    (text "a\\ b \\\\c")
  have hknown : scan .none .rawWords (text "a\\ b \\\\c") =
      .ok [.literal (text "a") 0, .escape (text "\\ ") (text " ") 1, .literal (text "b ") 3,
        .escape (text "\\\\") (text "\\") 5, .literal (text "c") 7] := by cbv
  cases hraw.symm.trans hknown
  have hmarks : Unmarked [.literal (text "a") 0, .escape (text "\\ ") (text " ") 1, .literal (text "b ") 3,
      .escape (text "\\\\") (text "\\") 5, .literal (text "c") 7] := by
    intro s p hmem
    simp only [List.mem_cons, Token.literal.injEq, reduceCtorEq, List.not_mem_nil, or_false, false_or] at hmem
    rcases hmem with ⟨rfl, _⟩ | ⟨rfl, _⟩ | ⟨rfl, _⟩ <;> decide
  refine ⟨rfl, hiff.2 hmarks, hwords (hiff.2 hmarks) Unit {} none (), ?_⟩
  obtain ⟨us, hlone, hiff', _⟩ := scan_words_eq_expanding_iff (rfl : Mode.interpolated.expands = true) .none
    (text "\\n")
  have hliteral : scan .none .rawWords (text "\\n") = .ok [.literal (text "\\n") 0] := by cbv
  cases hlone.symm.trans hliteral
  intro hsame
  exact absurd ((hiff'.1 (hsame.trans hliteral)) _ _ List.mem_cons_self).1 (by decide)

end PercentLiteral

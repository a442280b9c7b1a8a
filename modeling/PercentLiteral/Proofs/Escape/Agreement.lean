/-
Decoding beside the scanner of the expanding modes.

Both read a text from the left with the same reader of escapes. They part at an interpolation: the scanner passes over
it as a whole, and decoding goes on inside. They meet again behind its closing brace, because a brace that belongs to an
escape is the last of its code points (`Spells.brace_last`): so what stands behind any closing brace of a text that can be
decoded can be decoded too (`Decodable.behind_brace`), and wherever the scanner arrives is a place where decoding passes
(`Run.decodable`).

`decode_agrees_with_scan`: without interpolations both have the same result or the same error, and with them the scanner
refuses no escape of a text that can be decoded.
-/
import PercentLiteral.Proofs.Escape.RoundTrip
import PercentLiteral.Proofs.Scan.Leftmost

namespace PercentLiteral

namespace Escape

/-! ## Texts that can be decoded -/

/-- a text whose escapes can be read one after the other, from the left to the end -/
inductive Decodable (names : CharNames) : Text → Prop where
  | nil : Decodable names []
  | plain {c : CodePoint} {rest : Text} : c ≠ .backslash → Decodable names rest → Decodable names (c :: rest)
  | escape {s : Spelling} {rest : Text} :
      read names (s.body ++ rest) = .ok s → Decodable names rest → Decodable names (.backslash :: (s.body ++ rest))

theorem decodable_of_decode {names : CharNames} {start : Int} {t v : Text} (h : decodeFrom names start t = .ok v) :
    Decodable names t := by
  -- by induction on the length, since an escape takes several code points at once
  induction hn : t.length using Nat.strongRecOn generalizing start t v with
  | ind n ih =>
    cases t with
    | nil => exact .nil
    | cons c rest =>
      by_cases hc : c = .backslash
      · subst hc
        cases hread : read names rest with
        | error r => simp [decodeFrom_refused hread] at h
        | ok s =>
          obtain ⟨behind, rfl⟩ := (read_starts hread).start
          rw [decodeFrom_escape hread] at h
          obtain ⟨v', hv', _⟩ := Scan.map_eq_ok_iff.1 h
          have hshorter : behind.length < n := by
            rw [← hn, List.length_cons, List.length_append]
            omega
          exact .escape hread (ih behind.length hshorter hv' rfl)
      · rw [decodeFrom_plain hc] at h
        obtain ⟨v', hv', _⟩ := Scan.map_eq_ok_iff.1 h
        exact .plain hc (ih rest.length (by simp [← hn]) hv' rfl)

/-- what can be decoded begins with text or with an escape, and goes on so that it can be decoded -/
theorem Decodable.step {names : CharNames} {c : CodePoint} {rest : Text} (h : Decodable names (c :: rest)) :
    (c ≠ .backslash ∧ Decodable names rest) ∨
      (c = .backslash ∧ ∃ s behind, rest = s.body ++ behind ∧ read names rest = .ok s ∧ Decodable names behind) := by
  generalize ht : c :: rest = t at h
  cases h with
  | nil => cases ht
  | plain hc hrest =>
    cases ht
    exact Or.inl ⟨hc, hrest⟩
  | @escape s behind hread hbehind =>
    obtain ⟨rfl, rfl⟩ := List.cons.inj ht
    exact Or.inr ⟨rfl, s, behind, rfl, hread, hbehind⟩

/-- a closing brace that belongs to an escape ends it -/
theorem Spells.brace_last {names : CharNames} {body value : Text} (h : Spells names body value) :
    .braceClose ∉ body.dropLast := by
  intro hmem
  cases h with
  | letter => cases hmem
  | itself => cases hmem
  | octal _ _ hall =>
    have hoctal := hall _ (List.mem_of_mem_dropLast hmem)
    exact absurd hoctal (by decide)
  | @hexadecimal c ds v hwidth hdigits =>
    rcases List.mem_cons.1 (List.mem_of_mem_dropLast hmem) with rfl | hdigit
    · exact absurd hwidth (by simp [show hexWidth? .braceClose = none by decide])
    · exact absurd (hdigits _ hdigit) (by decide)
  | @named name v hname =>
    have hdrop : (ofName name).dropLast = .ofChar 'N' :: .braceOpen :: name := by
      rw [ofName, List.dropLast_concat]
    have hlead : CodePoint.braceClose ≠ .ofChar 'N' ∧ CodePoint.braceClose ≠ .braceOpen := by decide
    rw [hdrop] at hmem
    simp [hlead, hname] at hmem
  | @mnemonic e v he =>
    have listed : ∀ e ∈ mnemonics, CodePoint.braceClose ∉ e.1.map CodePoint.ofChar := by decide
    exact listed e he (List.mem_of_mem_dropLast hmem)

/-- **Closing braces are boundaries.** What stands behind a closing brace can be decoded if the whole text can. -/
theorem Decodable.behind_brace {names : CharNames} {p r : Text} (h : Decodable names (p ++ .braceClose :: r)) :
    Decodable names r := by
  generalize ht : p ++ .braceClose :: r = t at h
  induction h generalizing p with
  | nil => simp at ht
  | @plain c rest _ hrest ih =>
    cases p with
    | nil =>
      obtain ⟨_, rfl⟩ := List.cons.inj ht
      exact hrest
    | cons d p => exact ih (List.cons.inj ht).2
  | @escape s rest hread hrest ih =>
    cases p with
    | nil => cases ht
    | cons d p =>
      rcases List.append_eq_append_iff.1 (List.cons.inj ht).2 with ⟨u, hbody, hbrace⟩ | ⟨u, _, hbehind⟩
      · -- the brace ends the escape, or is the first code point behind it
        rcases List.cons_eq_append_iff.1 hbrace with ⟨_, hbehind⟩ | ⟨u', rfl, hr⟩
        · exact ih (p := []) hbehind.symm
        · have hlast := (read_iff.1 hread).spells.brace_last
          have hend : u' = [] := by
            by_contra hne
            rw [hbody, List.dropLast_append_of_ne_nil (List.cons_ne_nil _ _), List.dropLast_cons_of_ne_nil hne] at hlast
            simp at hlast
          rw [hr, hend]
          exact hrest
      · exact ih hbehind.symm

end Escape

/-! ## Where the scanner arrives -/

/-- **The scanner arrives where decoding passes.** Behind a run in a text that can be decoded, up to a mark, the rest can
be decoded. -/
theorem Scan.Run.decodable {names : CharNames} {start : Int} {p q : Text} {ts : List Token}
    (h : Scan.Run (Scan.expandingRules names) start p ts) (hq : ∀ c ∈ q.head?, c = .backslash ∨ c = .hash)
    (hdecodable : Escape.Decodable names (p ++ q)) : Escape.Decodable names q := by
  induction h with
  | done start => exact hdecodable
  | @token start tok rest ts htok _ ih =>
    refine ih ?_
    have hbefore : Scan.Expands names start (tok.raw ++ (rest ++ q)) tok :=
      htok.append fun _ => Scan.not_prolongedBy_head tok hq
    generalize ht : tok.raw ++ (rest ++ q) = t at hbefore
    rw [List.append_assoc, ht] at hdecodable
    cases hbefore with
    | @escape r s hs =>
      obtain rfl : s.body ++ (rest ++ q) = r := List.cons.inj ht |>.2
      rcases hdecodable.step with ⟨hplain, _⟩ | ⟨_, s', behind, hsplit, hread, hbehind⟩
      · exact absurd rfl hplain
      · cases hs.symm.trans hread
        rwa [List.append_cancel_left hsplit]
    | @interpolation r e _ =>
      have hsplit : .hash :: .braceOpen :: e ++ .braceClose :: (rest ++ q) = CodePoint.hash :: .braceOpen :: r := by
        simpa [Token.raw] using ht
      rw [← hsplit] at hdecodable
      exact hdecodable.behind_brace
  | @plain start c rest ts hplain _ ih =>
    refine ih ?_
    rcases hdecodable.step with ⟨_, hrest⟩ | ⟨hc, _⟩
    · exact hrest
    · exact absurd hc (by simpa using hplain.1)

open Render

/-- **Decoding agrees with the scanner.** In an expanding mode: if a text has tokens and no interpolation among them, it
is decoded to what it is rendered to without an evaluator. If an escape is refused, the text before it has tokens, and if
no interpolation is among these, decoding has the same error. And if a text can be decoded, the scanner gives its tokens,
or finds an interpolation that nothing closes, but refuses no escape. -/
theorem decode_agrees_with_scan {mode : Mode} (hmode : mode.expands = true) (names : CharNames) (t : Text) :
    (∀ ts, scan names mode t = .ok ts → interpolations ts = [] →
        ∃ s, Escape.decode names t = .ok s ∧ ∀ (σ : Type) (tracing : Tracing) (state : σ),
          (run (render names tracing none .interpolated t) state).1 = .ok (.text s)) ∧
      (∀ e, scan names mode t = .error (.template e) →
        (∃ d, e.fault = .invalidEscape d) ∨ (∃ d, e.fault = .malformedEscape d) →
          ∃ ts, scan names mode (t.take e.offset.toNat) = .ok ts ∧
            (interpolations ts = [] → Escape.decode names t = .error (.template e))) ∧
      ∀ s, Escape.decode names t = .ok s →
        (∃ ts, scan names mode t = .ok ts) ∨
          ∃ e d, scan names mode t = .error (.template e) ∧ e.fault = .unterminatedInterpolation d := by
  simp only [Scan.scan_of_expands hmode]
  refine ⟨?_, ?_, ?_⟩
  · intro ts h hcalls
    have hscan : scan names .interpolated t = .ok ts := h
    refine ⟨fill [] (ts.flatMap Token.atoms), decode_of_run (Scan.expanding_iff_run.1 h) hcalls, ?_⟩
    intro σ tracing state
    exact run_render_silent hscan hcalls state
  · intro e h hkind
    obtain ⟨p, q, ts, rfl, hrun, hfails⟩ := Scan.run_of_error h
    generalize he : ReadError.template e = e' at hfails
    cases hfails with
    | @escape rest r hread =>
      have hoffset : ((0 : Int) + p.length).toNat = p.length := by omega
      rw [(Scan.toError_of_read hread he.symm).1, hoffset, List.take_left]
      refine ⟨ts, Scan.expanding_iff_run.2 hrun, fun hcalls => ?_⟩
      rw [Escape.decode, decode_append_of_run hrun hcalls (by simp), Escape.decodeFrom_refused hread]
      rfl
    | interpolation =>
      cases he
      simp [Interpolation.unterminated] at hkind
  · intro s h
    cases hscan : Scan.expanding names 0 t with
    | ok ts => exact Or.inl ⟨ts, rfl⟩
    | error e =>
      right
      obtain ⟨p, q, ts, rfl, hrun, hfails⟩ := Scan.run_of_error hscan
      cases hfails with
      | @escape rest r hread =>
        have hrest := hrun.decodable (by simp) (Escape.decodable_of_decode h)
        rcases hrest.step with ⟨hplain, _⟩ | ⟨_, s', behind, _, hok, _⟩
        · exact absurd rfl hplain
        · cases hread.symm.trans hok
      | interpolation => exact ⟨_, _, rfl, rfl⟩

/-- a text that is decoded, one refused at its second escape, and one that is decoded though its mark opens nothing -/
theorem decode_agrees_with_scan_marks :
    Mode.interpolated.expands = true ∧
      (∃ s, Escape.decode .none (text "#a\\t") = .ok s ∧
        (run (render .none {} none .interpolated (text "#a\\t")) ()).1 = .ok (.text s)) ∧
      Escape.decode .none (text "\\n\\q#\x7b") = .error (.template ⟨.invalidEscape none, text "\\q", 2⟩) ∧
      ∃ e d, scan .none .interpolated (text "#\x7b\\x7d") = .error (.template e) ∧
        e.fault = .unterminatedInterpolation d := by
  have hmode : Mode.interpolated.expands = true := rfl
  refine ⟨hmode, ?_, ?_, ?_⟩
  · have hscan : scan .none .interpolated (text "#a\\t") =
        .ok [.literal (text "#a") 0, .escape (text "\\t") (text "\t") 2] := by cbv
    obtain ⟨s, hs, hrender⟩ := (decode_agrees_with_scan hmode .none _).1 _ hscan (by decide)
    exact ⟨s, hs, hrender Unit {} ()⟩
  · have hscan : scan .none .interpolated (text "\\n\\q#\x7b") =
        .error (.template ⟨.invalidEscape none, text "\\q", 2⟩) := by cbv
    have hbefore : scan .none .interpolated ((text "\\n\\q#\x7b").take 2) =
        .ok [.escape (text "\\n") (text "\n") 0] := by cbv
    obtain ⟨ts, hts, hdecode⟩ := (decode_agrees_with_scan hmode .none _).2.1 _ hscan (Or.inl ⟨none, rfl⟩)
    cases hts.symm.trans hbefore
    exact hdecode (by decide)
  · have hdecode : Escape.decode .none (text "#\x7b\\x7d") = .ok (text "#\x7b\x7d") := by cbv
    have hnone : (scan .none .interpolated (text "#\x7b\\x7d")).toOption = none := by cbv
    rcases (decode_agrees_with_scan hmode .none _).2.2 _ hdecode with ⟨ts, hts⟩ | herror
    · rw [hts] at hnone
      cases hnone
    · exact herror

end PercentLiteral

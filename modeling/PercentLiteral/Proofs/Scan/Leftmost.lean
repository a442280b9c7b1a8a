/-
Where scanning fails.

A text of the expanding modes that has no tokens is cut in two by its error: the part before the offset has tokens, and
at the offset stands an escape that is refused or an interpolation that nothing closes. The part before is scanned as it
was in the whole text, since a text may be cut anywhere (`Expands.cut`, `plain_cut`), and it stays scanned so in front of
what is refused, which begins with a mark that belongs to no token before it (`Expands.extend`, `plain_extend`).

- `expanding_error_iff`: the errors of a text are those of its leftmost refusal;
- `Fails.pinpoints`: an error points at what is refused, with its offset, its snippet and its kind.

`scan_error_leftmost`: both, in the words of the readers of escapes and interpolations.
-/
import PercentLiteral.Proofs.Scan.Lookahead
import PercentLiteral.Proofs.Scan.Tiling

namespace PercentLiteral

/-- an error that points at an offset of a text: its snippet is there, and its kind is told by what is there -/
structure Pinpoints (t : Text) (o : Nat) (e : TemplateError) : Prop where
  offset : e.offset = o
  inside : o < t.length
  filled : e.snippet ≠ []
  slice : e.snippet = t.slice o (o + e.snippet.length)
  opened : (∃ d, e.fault = .unterminatedInterpolation d) ↔ Interpolation.opens (t.drop o)
  whole : Interpolation.opens (t.drop o) → e.snippet = t.drop o
  backslash : ¬ Interpolation.opens (t.drop o) → t[o]? = some .backslash
  trailing : ¬ Interpolation.opens (t.drop o) → ((∃ d, e.fault = .malformedEscape d) ↔ o = t.length - 1)
  invalid : ¬ Interpolation.opens (t.drop o) → o ≠ t.length - 1 → ∃ d, e.fault = .invalidEscape d

/-- whether the reader of escapes or that of interpolations, asked at its mark, refuses what stands at an offset -/
def RefusedAt (names : CharNames) (t : Text) (o : Nat) (e : ReadError) : Prop :=
  (t[o]? = some .backslash ∧ Escape.match? names t o = .error e) ∨
    (Interpolation.opens (t.drop o) ∧ ∃ e', Interpolation.extract t o = .error (.template e') ∧ e = .template e')

namespace Scan

/-! ## The leftmost refusal -/

/-- what is refused begins with a mark -/
theorem Fails.mark {names : CharNames} {start : Int} {q : Text} {e : ReadError} (h : Fails names start q e) :
    ∃ c r, q = c :: r ∧ (c = .backslash ∨ c = .hash) := by
  cases h with
  | escape => exact ⟨_, _, rfl, Or.inl rfl⟩
  | interpolation => exact ⟨_, _, rfl, Or.inr rfl⟩

/-- a text without tokens begins with a run, and what stands behind it is refused -/
theorem run_of_error {names : CharNames} {start : Int} {t : Text} {e : ReadError}
    (h : expanding names start t = .error e) :
    ∃ p q ts, t = p ++ q ∧ Run (expandingRules names) start p ts ∧ Fails names (start + p.length) q e := by
  -- by induction on the length, since a token takes several code points at once
  induction hn : t.length using Nat.strongRecOn generalizing start t with
  | ind n ih =>
    cases t with
    | nil => cases (expanding_nil names start).symm.trans h
    | cons c rest =>
      rcases expanding_step names start c rest with ⟨tok, behind, ht, htok⟩ | hplain | ⟨e', he'⟩
      · rw [ht] at htok h ⊢
        rw [expanding_token htok, map_eq_error_iff] at h
        have hne := List.length_pos_iff.2 ((expandingRules_sound names).filled htok)
        have hlt : behind.length < n := by
          rw [← hn, ht, List.length_append]
          omega
        obtain ⟨p, q, ts, rfl, hrun, hfails⟩ := ih behind.length hlt h rfl
        refine ⟨tok.raw ++ p, q, tok :: ts, by simp, .token htok.cut hrun, ?_⟩
        rwa [List.length_append, Int.natCast_add, ← Int.add_assoc]
      · rw [expanding_plain hplain, map_eq_error_iff] at h
        obtain ⟨p, q, ts, rfl, hrun, hfails⟩ := ih rest.length (by simp [← hn]) h rfl
        refine ⟨c :: p, q, Token.cons c start ts, rfl, .plain (plain_cut hplain) hrun, ?_⟩
        rwa [offset_cons]
      · cases (expanding_fails he').symm.trans h
        exact ⟨[], c :: rest, [], rfl, .done start, by simpa using he'⟩

/-- a run in front of what is refused is gone through again, up to the refusal -/
theorem error_of_run {names : CharNames} {start : Int} {p q : Text} {ts : List Token} {e : ReadError}
    (h : Run (expandingRules names) start p ts) (hfails : Fails names (start + p.length) q e) :
    expanding names start (p ++ q) = .error e := by
  obtain ⟨c, r, rfl, hc⟩ := hfails.mark
  induction h with
  | done start => exact expanding_fails (by simpa using hfails)
  | @token start tok rest ts htok _ ih =>
    rw [List.length_append, Int.natCast_add, ← Int.add_assoc] at hfails
    rw [List.append_assoc, expanding_token (htok.extend hc), ih hfails]
    rfl
  | @plain start d rest ts hplain _ ih =>
    rw [offset_cons] at hfails
    rw [List.cons_append, expanding_plain (plain_extend hplain hc), ih hfails]
    rfl

/-- **The leftmost refusal.** A text is refused exactly as what stands behind some part of it that has tokens. -/
theorem expanding_error_iff {names : CharNames} {start : Int} {t : Text} {e : ReadError} :
    expanding names start t = .error e ↔
      ∃ p q ts, t = p ++ q ∧ expanding names start p = .ok ts ∧ Fails names (start + p.length) q e := by
  simp only [expanding_iff_run]
  constructor
  · exact run_of_error
  · rintro ⟨p, q, ts, rfl, hrun, hfails⟩
    exact error_of_run hrun hfails

/-! ## What an error points at -/

/-- the error of a refused escape is about code points from the backslash on, and its kind tells whether any follow -/
theorem toError_of_read {names : CharNames} {rest : Text} {r : Escape.Refusal} {start : Int} {e : TemplateError}
    (h : Escape.read names rest = .error r) (he : r.toError .backslash start = .template e) :
    e.offset = start ∧ e.snippet ≠ [] ∧ e.snippet <+: .backslash :: rest ∧
      ((rest = [] ∧ ∃ d, e.fault = .malformedEscape d) ∨ (rest ≠ [] ∧ ∃ d, e.fault = .invalidEscape d)) := by
  obtain ⟨hbody, hdefect⟩ := Escape.read_refused h
  obtain ⟨body, defect⟩ := r
  have hprefix : CodePoint.backslash :: body <+: .backslash :: rest := (List.prefix_cons_inj _).2 hbody
  cases defect with
  | nothingFollows =>
    cases he
    exact ⟨rfl, by simp [Escape.Refusal.snippet], by simp [Escape.Refusal.snippet], Or.inl ⟨hdefect.1 rfl, _, rfl⟩⟩
  | nameUnencodable => cases he
  | _ =>
    cases he
    exact ⟨rfl, List.cons_ne_nil _ _, hprefix, Or.inr ⟨by simpa using hdefect, _, rfl⟩⟩

/-- an error points at what is refused -/
theorem Fails.pinpoints {names : CharNames} {p q : Text} {e : TemplateError}
    (h : Fails names p.length q (.template e)) : Pinpoints (p ++ q) p.length e := by
  generalize he : ReadError.template e = e' at h
  cases h with
  | @escape rest r hr =>
    obtain ⟨hoffset, hne, hprefix, hkind⟩ := toError_of_read hr he.symm
    have hopens : Interpolation.opens (.backslash :: rest) = false := by
      by_contra hopen
      obtain ⟨body, hbody⟩ := Interpolation.opens_iff.1 (by simpa using hopen)
      cases hbody
    have hlast : p.length = (p ++ CodePoint.backslash :: rest).length - 1 ↔ rest = [] := by
      rw [← List.length_eq_zero_iff, List.length_append, List.length_cons]
      omega
    refine ⟨hoffset, by simp, hne, (Text.slice_of_prefix hprefix).symm, ?_, by simp [hopens], by simp, ?_, ?_⟩
    · rcases hkind with ⟨_, d, hd⟩ | ⟨_, d, hd⟩ <;> simp [hd, hopens]
    · rcases hkind with ⟨hrest, d, hd⟩ | ⟨hrest, d, hd⟩ <;> simp [hd, hrest]
    · intro _ hinner
      rcases hkind with ⟨hrest, _⟩ | ⟨_, hd⟩
      · exact absurd (hlast.2 hrest) hinner
      · exact hd
  | @interpolation rest hbody =>
    cases he
    have hopens : Interpolation.opens ((p ++ .hash :: .braceOpen :: rest).drop p.length) = true := by
      rw [List.drop_left]
      exact Interpolation.opens_iff.2 ⟨rest, rfl⟩
    have hslice := Text.slice_of_prefix (p := p) (List.prefix_rfl : .hash :: .braceOpen :: rest <+: _)
    refine ⟨rfl, by simp, by simp [Interpolation.unterminated], hslice.symm, ?_, ?_, ?_, ?_, ?_⟩
    · exact iff_of_true ⟨_, rfl⟩ hopens
    · intro _
      rw [List.drop_left]
      rfl
    all_goals exact fun hnot => absurd hopens hnot

/-- what is refused is refused by the reader that its mark calls for -/
theorem fails_iff_refusedAt {names : CharNames} {t : Text} {o : Nat} {e : ReadError} :
    Fails names o (t.drop o) e ↔ RefusedAt names t o e := by
  have hhead : t[o]? = (t.drop o).head? := by rw [List.head?_drop]
  rw [RefusedAt, hhead, Escape.match?, Interpolation.extract]
  generalize t.drop o = q
  constructor
  · intro h
    cases h with
    | escape hr => exact Or.inl ⟨rfl, by simp [hr]⟩
    | interpolation hbody =>
      exact Or.inr ⟨by simp [Interpolation.opens], _, by simp [Interpolation.opens, Interpolation.read, hbody,
        Except.mapError], rfl⟩
  · rintro (⟨hmark, hmatch⟩ | ⟨hopens, e', hextract, rfl⟩)
    · obtain ⟨rest, rfl⟩ := List.head?_eq_some_iff.1 hmark
      cases hread : Escape.read names rest with
      | ok s => simp [hread] at hmatch
      | error r =>
        simp only [hread] at hmatch
        cases hmatch
        exact .escape hread
    · obtain ⟨rest, rfl⟩ := Interpolation.opens_iff.1 hopens
      cases hbody : Interpolation.body? 0 rest with
      | some x => simp [hopens, Interpolation.read, hbody, Except.mapError] at hextract
      | none =>
        simp only [hopens, if_true, Interpolation.read, List.drop_succ_cons, List.drop_zero, hbody,
          Except.mapError] at hextract
        cases hextract
        exact .interpolation hbody

end Scan

/-- **Errors point at the leftmost defect.** In an expanding mode, a text that cannot be read has tokens up to some
offset, and what stands there is refused; an error of the template points at that offset. Conversely, if a text has
tokens up to an offset and what stands there is refused by the reader of escapes or of interpolations, that is the error
of the text. -/
theorem scan_error_leftmost {mode : Mode} (hmode : mode.expands = true) (names : CharNames) (t : Text)
    (e : ReadError) :
    (scan names mode t = .error e →
      ∃ o : Nat, (∀ e', e = .template e' → Pinpoints t o e') ∧ (∃ ts, scan names mode (t.take o) = .ok ts) ∧
        RefusedAt names t o e) ∧
      ∀ o : Nat, (∃ ts, scan names mode (t.take o) = .ok ts) → RefusedAt names t o e →
        scan names mode t = .error e := by
  simp only [Scan.scan_of_expands hmode]
  constructor
  · intro h
    obtain ⟨p, q, ts, rfl, hts, hfails⟩ := Scan.expanding_error_iff.1 h
    rw [Int.zero_add] at hfails
    refine ⟨p.length, ?_, ⟨ts, by rwa [List.take_left]⟩, Scan.fails_iff_refusedAt.1 ?_⟩
    · rintro e' rfl
      exact hfails.pinpoints
    · rwa [List.drop_left]
  · rintro o ⟨ts, hts⟩ hrefused
    have hfails := Scan.fails_iff_refusedAt.2 hrefused
    obtain ⟨c, r, hq, _⟩ := hfails.mark
    have hlength : (t.take o).length = o := by
      have hinside : (t.drop o).length = (c :: r).length := by rw [hq]
      rw [List.length_drop, List.length_cons] at hinside
      rw [List.length_take]
      omega
    refine Scan.expanding_error_iff.2 ⟨t.take o, t.drop o, ts, (List.take_append_drop o t).symm, hts, ?_⟩
    rwa [hlength, Int.zero_add]

/-- too few digits before a mark: the error is at the backslash, and the mark is in its snippet -/
theorem scan_error_leftmost_digits :
    Mode.interpolated.expands = true ∧
      RefusedAt .none (text "\\1#{a}\\u12#\x7b") 6
        (.template ⟨.invalidEscape (some (text "expected 4 hex digits")), text "\\u12#\x7b", 6⟩) ∧
      scan .none .interpolated (text "\\1#{a}\\u12#\x7b") =
        .error (.template ⟨.invalidEscape (some (text "expected 4 hex digits")), text "\\u12#\x7b", 6⟩) ∧
      Pinpoints (text "\\1#{a}\\u12#\x7b") 6
        ⟨.invalidEscape (some (text "expected 4 hex digits")), text "\\u12#\x7b", 6⟩ := by
  have hprefix : scan .none .interpolated ((text "\\1#{a}\\u12#\x7b").take 6) =
      .ok [.escape (text "\\1") [⟨1, by decide⟩] 0, .interpolation (text "a") 2] := by cbv
  have hrefused : RefusedAt .none (text "\\1#{a}\\u12#\x7b") 6
      (.template ⟨.invalidEscape (some (text "expected 4 hex digits")), text "\\u12#\x7b", 6⟩) :=
    Or.inl ⟨by decide, by cbv⟩
  have hscan := (scan_error_leftmost rfl .none (text "\\1#{a}\\u12#\x7b") _).2 6 ⟨_, hprefix⟩ hrefused
  obtain ⟨o, hpoints, _⟩ := (scan_error_leftmost rfl .none _ _).1 hscan
  have hpoints := hpoints _ rfl
  obtain rfl : o = 6 := by
    have hoffset : (6 : Int) = o := hpoints.offset
    omega
  exact ⟨rfl, hrefused, hscan, hpoints⟩

end PercentLiteral

/-
Runs of a scanner, apart from the way in which the tokens are computed.

A scanner is known by its rules: which tokens it recognizes at the start of a text, and at the start of which texts it
recognizes none. `Run` follows the rules from the left to the end of the text. Whatever holds of all runs holds of both
scanners, so the invariants of scanning are proved here once, by induction on the run:
- `Run.literal_plain`: whatever stands in a literal, the scanner found nothing there, up to the end of the text;
- `Run.tokens`: all other tokens were recognized.

`expanding_iff_run`: the scanner of the expanding modes succeeds exactly with the tokens of a run of its rules.
`words_iff_run`: so does the scanner of raw words, which cannot fail.
-/
import PercentLiteral.Scan

namespace PercentLiteral.Scan

/-! ## Rules and runs -/

/-- what a scanner recognizes: tokens at the start of a text, and texts that start with none -/
structure Rules where
  token : Int → Text → Token → Prop
  plain : Text → Prop

/-- what is recognized at an offset is no literal, is not empty, and starts there -/
structure Rules.Sound (R : Rules) : Prop where
  not_literal : ∀ {start t tok}, R.token start t tok → ∀ s p, tok ≠ .literal s p
  filled : ∀ {start t tok}, R.token start t tok → tok.raw ≠ []
  start : ∀ {start t tok}, R.token start t tok → tok.start = start

/-- a run over a text that begins at an offset, and the tokens it leaves -/
inductive Run (R : Rules) : Int → Text → List Token → Prop where
  | done (start : Int) : Run R start [] []
  | token {start : Int} {tok : Token} {rest : Text} {ts : List Token} :
      R.token start (tok.raw ++ rest) tok → Run R (start + tok.raw.length) rest ts →
      Run R start (tok.raw ++ rest) (tok :: ts)
  | plain {start : Int} {c : CodePoint} {rest : Text} {ts : List Token} :
      R.plain (c :: rest) → Run R (start + 1) rest ts → Run R start (c :: rest) (Token.cons c start ts)

/-- putting a code point before tokens prolongs the literal they begin with, or begins a new one -/
theorem cons_cases (c : CodePoint) (start : Int) (ts : List Token) :
    (∃ s p ts', ts = .literal s p :: ts' ∧ Token.cons c start ts = .literal (c :: s) start :: ts') ∨
      ((∀ s p ts', ts ≠ .literal s p :: ts') ∧ Token.cons c start ts = .literal [c] start :: ts) := by
  cases ts with
  | nil => exact Or.inr ⟨by simp, rfl⟩
  | cons tok ts =>
    cases tok with
    | literal s p => exact Or.inl ⟨s, p, ts, rfl, rfl⟩
    | escape r v p => exact Or.inr ⟨by simp, rfl⟩
    | interpolation e p => exact Or.inr ⟨by simp, rfl⟩

/-- a token that is no literal is left as it is by a code point before it -/
theorem mem_cons_iff {c : CodePoint} {start : Int} {ts : List Token} {tok : Token}
    (h : ∀ s p, tok ≠ .literal s p) : tok ∈ Token.cons c start ts ↔ tok ∈ ts := by
  obtain ⟨s, p, ts', rfl, he⟩ | ⟨_, he⟩ := cons_cases c start ts
  · simp [he, h]
  · simp [he, h]

/-- the tokens of a run that are no literals were recognized by the rules -/
theorem Run.tokens {R : Rules} {start : Int} {t : Text} {ts : List Token} (h : Run R start t ts) :
    ∀ tok ∈ ts, (∀ s p, tok ≠ .literal s p) → ∃ p rest, R.token p (tok.raw ++ rest) tok := by
  induction h with
  | done start => simp
  | @token start tok rest ts htok _ ih =>
    intro tok' hmem hlit
    rcases List.mem_cons.1 hmem with rfl | hmem
    · exact ⟨start, rest, htok⟩
    · exact ih tok' hmem hlit
  | plain _ _ ih =>
    intro tok hmem hlit
    exact ih tok ((mem_cons_iff hlit).1 hmem) hlit

/-- a run over a text that goes on with a literal: the literal starts the text -/
theorem Run.literal_prefix {R : Rules} (hR : R.Sound) {start : Int} {t s : Text} {p : Int} {ts : List Token}
    (h : Run R start t (.literal s p :: ts)) : s <+: t := by
  generalize hl : Token.literal s p :: ts = l at h
  induction h generalizing s p ts with
  | done start => cases hl
  | token htok _ _ =>
    cases hl
    exact absurd rfl (hR.not_literal htok s p)
  | @plain start c rest ts₀ _ _ ih =>
    obtain ⟨s', p', ts', rfl, he⟩ | ⟨_, he⟩ := cons_cases c start ts₀
    · rw [he] at hl
      cases hl
      exact (List.prefix_cons_inj c).2 (ih rfl)
    · rw [he] at hl
      cases hl
      exact (List.prefix_cons_inj c).2 (List.nil_prefix)

/-- nothing was recognized at any place of a literal, with all that follows it in the text -/
theorem Run.literal_plain {R : Rules} (hR : R.Sound) {start : Int} {t : Text} {ts : List Token}
    (h : Run R start t ts) :
    ∀ s p, .literal s p ∈ ts → ∀ u, u ≠ [] → u <:+ s → ∃ rest, R.plain (u ++ rest) := by
  induction h with
  | done start => simp
  | token htok _ ih =>
    intro s p hmem
    rcases List.mem_cons.1 hmem with heq | hmem
    · exact absurd heq.symm (hR.not_literal htok s p)
    · exact ih s p hmem
  | @plain start c rest ts hplain hrun ih =>
    intro s p hmem u hne hu
    obtain ⟨s', p', ts', rfl, he⟩ | ⟨_, he⟩ := cons_cases c start ts
    · rw [he, List.mem_cons] at hmem
      rcases hmem with heq | hmem
      · cases heq
        rcases List.suffix_cons_iff.1 hu with rfl | hu
        · obtain ⟨behind, rfl⟩ := hrun.literal_prefix hR
          exact ⟨behind, hplain⟩
        · exact ih s' p' List.mem_cons_self u hne hu
      · exact ih s p (List.mem_cons_of_mem _ hmem) u hne hu
    · rw [he, List.mem_cons] at hmem
      rcases hmem with heq | hmem
      · cases heq
        rcases List.suffix_cons_iff.1 hu with rfl | hu
        · exact ⟨rest, hplain⟩
        · exact absurd (List.suffix_nil.1 hu) hne
      · exact ih s p hmem u hne hu

/-! ## The expanding modes -/

theorem map_eq_ok_iff {ε α β : Type} {f : α → β} {x : Except ε α} {b : β} :
    x.map f = .ok b ↔ ∃ a, x = .ok a ∧ f a = b := by
  cases x <;> simp [Except.map]

theorem map_eq_error_iff {ε α β : Type} {f : α → β} {x : Except ε α} {e : ε} : x.map f = .error e ↔ x = .error e := by
  cases x <;> simp [Except.map]

/-- both expanding modes scan alike -/
theorem scan_of_expands {mode : Mode} (h : mode.expands = true) (names : CharNames) (t : Text) :
    scan names mode t = expanding names 0 t := by
  cases mode with
  | raw => cases h
  | interpolated => rfl
  | rawWords => cases h
  | interpolatedWords => rfl

/-- the tokens of the expanding modes: escapes that can be read, and interpolations that are closed -/
inductive Expands (names : CharNames) (start : Int) : Text → Token → Prop where
  | escape {rest : Text} {s : Escape.Spelling} :
      Escape.read names rest = .ok s → Expands names start (.backslash :: rest) (s.toToken .backslash start)
  | interpolation {rest e : Text} :
      Interpolation.body? 0 rest = some e →
      Expands names start (.hash :: .braceOpen :: rest) (.interpolation e start)

/-- the errors of the expanding modes: an escape that is refused, or an interpolation that nothing closes -/
inductive Fails (names : CharNames) (start : Int) : Text → ReadError → Prop where
  | escape {rest : Text} {r : Escape.Refusal} :
      Escape.read names rest = .error r → Fails names start (.backslash :: rest) (r.toError .backslash start)
  | interpolation {rest : Text} :
      Interpolation.body? 0 rest = none →
      Fails names start (.hash :: .braceOpen :: rest)
        (.template (Interpolation.unterminated (.hash :: .braceOpen :: rest) start))

/-- the rules of the expanding modes: text is what starts neither with a backslash nor with an opening mark -/
def expandingRules (names : CharNames) : Rules where
  token := Expands names
  plain t := t.head? ≠ some .backslash ∧ Interpolation.opens t = false

theorem expandingRules_sound (names : CharNames) : (expandingRules names).Sound where
  not_literal := by
    rintro start t tok (_ | _) s p <;> exact Token.noConfusion
  filled := by
    rintro start t tok (_ | _) <;> simp [Token.raw, Escape.Spelling.toToken]
  start := by
    rintro start t tok (_ | _) <;> rfl

/-- a token of the expanding modes starts the text at which it is recognized -/
theorem Expands.raw_prefix {names : CharNames} {start : Int} {t : Text} {tok : Token}
    (h : Expands names start t tok) : tok.raw <+: t := by
  cases h with
  | escape h => exact List.prefix_cons_inj _ |>.2 (Escape.read_starts h).start
  | interpolation h => exact List.prefix_cons_inj _ |>.2 (List.prefix_cons_inj _ |>.2 (Interpolation.body?_prefix h))

/-- at a code point a token is recognized, or there is none, or the text is refused -/
theorem expanding_step (names : CharNames) (start : Int) (c : CodePoint) (rest : Text) :
    (∃ tok behind, c :: rest = tok.raw ++ behind ∧ Expands names start (c :: rest) tok) ∨
      (expandingRules names).plain (c :: rest) ∨ ∃ e, Fails names start (c :: rest) e := by
  have found : ∀ {tok}, Expands names start (c :: rest) tok →
      ∃ tok behind, c :: rest = tok.raw ++ behind ∧ Expands names start (c :: rest) tok := by
    intro tok htok
    obtain ⟨behind, hbehind⟩ := htok.raw_prefix
    exact ⟨tok, behind, hbehind.symm, htok⟩
  by_cases hc : c = .backslash
  · subst hc
    cases hread : Escape.read names rest with
    | ok s => exact Or.inl (found (.escape hread))
    | error r => exact Or.inr (Or.inr ⟨_, .escape hread⟩)
  · by_cases hopen : Interpolation.opens (c :: rest) = true
    · obtain ⟨body, hbody⟩ := Interpolation.opens_iff.1 hopen
      obtain ⟨rfl, rfl⟩ := List.cons.inj hbody
      cases he : Interpolation.body? 0 body with
      | some e => exact Or.inl (found (.interpolation he))
      | none => exact Or.inr (Or.inr ⟨_, .interpolation he⟩)
    · exact Or.inr (Or.inl ⟨by simpa using hc, by simpa using hopen⟩)

@[simp] theorem expanding_nil (names : CharNames) (start : Int) : expanding names start [] = .ok [] := by
  rw [expanding]

/-- a recognized token is followed by the tokens of what stands behind it -/
theorem expanding_token {names : CharNames} {start : Int} {tok : Token} {rest : Text}
    (h : Expands names start (tok.raw ++ rest) tok) :
    expanding names start (tok.raw ++ rest) = (expanding names (start + tok.raw.length) rest).map (tok :: ·) := by
  generalize ht : tok.raw ++ rest = t at h
  cases h with
  | @escape r s hs =>
    obtain rfl : s.body ++ rest = r := List.cons.inj ht |>.2
    rw [expanding, if_pos rfl, hs]
    simp only [Escape.Spelling.toToken, Token.raw, List.drop_left, List.length_cons]
    congr 2
    omega
  | @interpolation r e he =>
    have hr : e ++ .braceClose :: rest = r := by
      simpa [Token.raw] using ht
    rw [expanding, if_neg (by decide), if_pos (by simp [Interpolation.opens])]
    simp only [List.drop_succ_cons, List.drop_zero, he, Token.raw]
    have hdrop : r.drop (e.length + 1) = rest := by
      rw [← hr]
      simp [List.drop_append]
    rw [hdrop]
    congr 2
    simp
    omega

/-- a code point that begins nothing is put before the tokens of the rest -/
theorem expanding_plain {names : CharNames} {start : Int} {c : CodePoint} {rest : Text}
    (h : (expandingRules names).plain (c :: rest)) :
    expanding names start (c :: rest) = (expanding names (start + 1) rest).map (Token.cons c start) := by
  have hc : c ≠ .backslash := by simpa using h.1
  rw [expanding, if_neg hc, h.2]
  simp

/-- a refused text has no tokens -/
theorem expanding_fails {names : CharNames} {start : Int} {t : Text} {e : ReadError} (h : Fails names start t e) :
    expanding names start t = .error e := by
  cases h with
  | escape h => rw [expanding, if_pos rfl, h]
  | interpolation h =>
    rw [expanding, if_neg (by decide), if_pos (by simp [Interpolation.opens])]
    simp only [List.drop_succ_cons, List.drop_zero, h]

/-- **Scanning is a run.** The scanner of the expanding modes succeeds exactly with the tokens of a run of its rules. -/
theorem expanding_iff_run {names : CharNames} {start : Int} {t : Text} {ts : List Token} :
    expanding names start t = .ok ts ↔ Run (expandingRules names) start t ts := by
  constructor
  · -- by induction on the length, since a token takes several code points at once
    induction hn : t.length using Nat.strongRecOn generalizing start t ts with
    | ind n ih =>
      intro h
      cases t with
      | nil =>
        cases (expanding_nil names start).symm.trans h
        exact .done start
      | cons c rest =>
        rcases expanding_step names start c rest with ⟨tok, behind, ht, htok⟩ | hplain | ⟨e, he⟩
        · rw [ht] at htok h ⊢
          rw [expanding_token htok] at h
          obtain ⟨ts', hts', rfl⟩ := map_eq_ok_iff.1 h
          refine .token htok (ih behind.length ?_ rfl hts')
          have hne := List.length_pos_iff.2 ((expandingRules_sound names).filled htok)
          rw [← hn, ht, List.length_append]
          omega
        · rw [expanding_plain hplain] at h
          obtain ⟨ts', hts', rfl⟩ := map_eq_ok_iff.1 h
          exact .plain hplain (ih rest.length (by simp [← hn]) rfl hts')
        · cases (expanding_fails he).symm.trans h
  · intro h
    induction h with
    | done start => exact expanding_nil names start
    | token htok _ ih => rw [expanding_token htok, ih]; rfl
    | plain hplain _ ih => rw [expanding_plain hplain, ih]; rfl

/-! ## Raw words -/

/-- the tokens of raw words: a backslash before a backslash or a blank -/
inductive Protects (start : Int) : Text → Token → Prop where
  | escape {d : CodePoint} {rest : Text} :
      isWordEscape d = true → Protects start (.backslash :: d :: rest) (.escape [.backslash, d] [d] start)

/-- the rules of raw words: any other backslash is text -/
def wordRules : Rules where
  token := Protects
  plain t := ∀ d rest, t = .backslash :: d :: rest → isWordEscape d = false

theorem wordRules_sound : wordRules.Sound where
  not_literal := by
    rintro start t tok ⟨_⟩ s p
    exact Token.noConfusion
  filled := by
    rintro start t tok ⟨_⟩
    simp [Token.raw]
  start := by
    rintro start t tok ⟨_⟩
    rfl

/-- the tokens of raw words are those of a run -/
theorem words_run (start : Int) (t : Text) : Run wordRules start t (words start t) := by
  fun_induction words start t with
  | case1 start => exact .done start
  | case2 start c => exact .plain (by simp [wordRules]) (.done (start + 1))
  | case3 start c d rest h ih =>
    obtain ⟨rfl, hd⟩ := h
    exact @Run.token wordRules start (.escape [.backslash, d] [d] start) rest _ (.escape hd) ih
  | case4 start c d rest h ih =>
    refine .plain ?_ ih
    rintro d' rest' heq
    cases heq
    simpa using h

/-- a code point that begins no escape of raw words is put before the tokens of the rest -/
theorem words_plain {start : Int} {c : CodePoint} {rest : Text} (h : wordRules.plain (c :: rest)) :
    words start (c :: rest) = Token.cons c start (words (start + 1) rest) := by
  cases rest with
  | nil => rfl
  | cons d rest =>
    have hnot : ¬ (c = .backslash ∧ isWordEscape d = true) := by
      rintro ⟨rfl, hd⟩
      simp [h d rest rfl] at hd
    rw [words, if_neg hnot]

/-- the scanner of raw words gives the tokens of a run of its rules, and there is one run only -/
theorem words_iff_run {start : Int} {t : Text} {ts : List Token} : words start t = ts ↔ Run wordRules start t ts := by
  constructor
  · rintro rfl
    exact words_run start t
  · intro h
    induction h with
    | done start => rfl
    | @token start tok rest ts htok _ ih =>
      generalize ht : tok.raw ++ rest = t at htok
      cases htok with
      | @escape d behind hd =>
        obtain rfl : rest = behind := by simpa [Token.raw] using ht
        have ih : words (start + 2) rest = ts := ih
        rw [words, if_pos ⟨rfl, hd⟩, ih]
    | plain hplain _ ih => rw [words_plain hplain, ih]

end PercentLiteral.Scan

/-
Encoding and reading back.

`encodedChar_cases` says what one code point is written as: a letter, a number sign that would open an interpolation,
two digits, or itself. Each spelling is read back as that code point whatever follows it, so the scanner finds in an
encoded text no interpolation, and tokens that denote the text (`encode_scans`). Decoding is scanning as long as there
is no interpolation, to the end of a text (`decode_of_run`) or up to a mark in it (`decode_append_of_run`).

`encode_round_trip`: an encoded text decodes to the text, and renders to it without an evaluator.
-/
import PercentLiteral.Escape.Coding
import PercentLiteral.Proofs.Render.Resolution
import PercentLiteral.Proofs.Scan.Lookahead

namespace PercentLiteral

/-! ## What is read behind a backslash -/

namespace Escape

theorem hexValue?_hexDigit (d : Nat) : (CodePoint.hexDigit d).hexValue? = some (d % 16) := by
  unfold CodePoint.hexValue? CodePoint.hexDigit
  by_cases hd : d % 16 < 10
  · simp only [hd, if_true]
    rw [if_pos (by omega), Nat.add_sub_cancel_left]
  · simp only [hd, if_false]
    rw [if_neg (by omega), if_neg (by omega), if_pos (by omega)]
    congr 1
    omega

theorem hex_two (n : Nat) : Text.hex 2 n = [CodePoint.hexDigit (n / 16), CodePoint.hexDigit n] := rfl

/-- two digits behind the letter for them are read as the code they spell -/
theorem read_hex_two (names : CharNames) {c : CodePoint} (h : c.val < 0x100) (r : Text) :
    read names (.ofChar 'x' :: Text.hex 2 c.val ++ r) = .ok ⟨.ofChar 'x' :: Text.hex 2 c.val, [c]⟩ := by
  have hwidth : hexWidth? (.ofChar 'x') = some 2 := by decide
  have hcode : Text.ofDigits 16 [c.val / 16 % 16, c.val % 16] = c.val := by
    simp only [Text.ofDigits, List.foldl_cons, List.foldl_nil]
    omega
  refine read_hexadecimal (by rw [hwidth, hex_two]; rfl) ?_ ?_ r
  · simp [hex_two, hexValue?_hexDigit]
  · simp [hex_two, hexValue?_hexDigit, hcode, CodePoint.ofNat?, c.isLt]

/-! ## What a code point is written as -/

/-- a code point is written as a letter, an escaped number sign, two digits, or itself -/
theorem encodedChar_cases (c : CodePoint) (rest : Text) :
    (∃ l, letterValue? l = some c ∧ encodedChar c rest = [.backslash, l]) ∨
      (c = .hash ∧ encodedChar c rest = [.backslash, .hash]) ∨
      (c.val < 0x100 ∧ encodedChar c rest = .backslash :: .ofChar 'x' :: Text.hex 2 c.val) ∨
      (c ≠ .backslash ∧ ¬ (c = .hash ∧ rest.head? = some .braceOpen) ∧ encodedChar c rest = [c]) := by
  have listed : ∀ e ∈ encodedLetters, letterValue? (.ofChar e.2) = CodePoint.ofNat? e.1 := by decide
  unfold encodedChar
  cases hfind : encodedLetters.find? fun e => e.1 = c.val with
  | some e =>
    refine Or.inl ⟨.ofChar e.2, ?_, rfl⟩
    have hcode : e.1 = c.val := by simpa using List.find?_some hfind
    rw [listed e (List.mem_of_find?_eq_some hfind), hcode]
    simp [CodePoint.ofNat?, c.isLt]
  | none =>
    have hne : c ≠ .backslash := by
      rintro rfl
      exact absurd hfind (by decide)
    by_cases hhash : c = .hash ∧ rest.head? = some .braceOpen
    · exact Or.inr (Or.inl ⟨hhash.1, by simp [hhash]⟩)
    · by_cases hcontrol : c.val < 0x20 ∨ c.val = 0x7F
      · exact Or.inr (Or.inr (Or.inl ⟨by omega, by simp [hhash, hcontrol]⟩))
      · exact Or.inr (Or.inr (Or.inr ⟨hne, hhash, by simp [hhash, hcontrol]⟩))

/-- an encoded text begins with an opening brace only if the text does -/
theorem encode_head {s : Text} (h : (encode s).head? = some .braceOpen) : s.head? = some .braceOpen := by
  cases s with
  | nil => simp [encode] at h
  | cons c rest =>
    rw [encode] at h
    rcases encodedChar_cases c rest with ⟨l, _, he⟩ | ⟨_, he⟩ | ⟨_, he⟩ | ⟨_, _, he⟩
    · rw [he] at h
      exact absurd h (by simp; decide)
    · rw [he] at h
      exact absurd h (by simp; decide)
    · rw [he] at h
      exact absurd h (by simp; decide)
    · rw [he] at h
      simpa using h

end Escape

/-! ## Tokens that denote a text -/

/-- a code point before tokens is one more atom before theirs -/
theorem Token.cons_atoms (c : CodePoint) (start : Int) (ts : List Token) :
    (Token.cons c start ts).flatMap Token.atoms = .char c :: ts.flatMap Token.atoms := by
  obtain ⟨s, p, ts', rfl, he⟩ | ⟨_, he⟩ := Scan.cons_cases c start ts
  · simp [he, Token.atoms]
  · simp [he, Token.atoms]

/-- tokens without interpolations that denote a text -/
structure Denotes (ts : List Token) (s : Text) : Prop where
  calls : interpolations ts = []
  text : fill [] (ts.flatMap Token.atoms) = s

theorem Denotes.plain {ts : List Token} {s : Text} (h : Denotes ts s) (c : CodePoint) (start : Int) :
    Denotes (Token.cons c start ts) (c :: s) where
  calls := by
    rw [interpolations, Token.cons_atoms]
    exact h.calls
  text := by rw [Token.cons_atoms, fill, h.text]

theorem Denotes.escape {ts : List Token} {s : Text} (h : Denotes ts s) (r v : Text) (start : Int) :
    Denotes (.escape r v start :: ts) (v ++ s) where
  calls := h.calls
  text := by
    rw [← h.text]
    rfl

/-- **Encoded texts scan back.** The scanner finds no interpolation in an encoded text, and tokens that denote it. -/
theorem encode_scans (names : CharNames) (start : Int) (s : Text) :
    ∃ ts, Scan.expanding names start (Escape.encode s) = .ok ts ∧ Denotes ts s := by
  induction s generalizing start with
  | nil => exact ⟨[], Scan.expanding_nil names start, rfl, rfl⟩
  | cons c rest ih =>
    have escaped : ∀ body, Escape.encodedChar c rest = .backslash :: body →
        Escape.read names (body ++ Escape.encode rest) = .ok ⟨body, [c]⟩ →
        ∃ ts, Scan.expanding names start (Escape.encode (c :: rest)) = .ok ts ∧ Denotes ts (c :: rest) := by
      intro body hbody hread
      obtain ⟨ts, hts, hdenotes⟩ := ih (start + (CodePoint.backslash :: body).length)
      refine ⟨.escape (.backslash :: body) [c] start :: ts, ?_, hdenotes.escape _ _ _⟩
      have hscan : Scan.expanding names start
          ((Token.escape (.backslash :: body) [c] start).raw ++ Escape.encode rest) = _ :=
        Scan.expanding_token (.escape hread)
      rw [Escape.encode, hbody]
      exact hscan.trans (by rw [Token.raw, hts]; rfl)
    rcases Escape.encodedChar_cases c rest with ⟨l, hl, he⟩ | ⟨rfl, he⟩ | ⟨hc, he⟩ | ⟨hne, hopen, he⟩
    · exact escaped [l] he (Escape.read_letter names hl _)
    · exact escaped [.hash] he (Escape.read_itself names (Or.inl rfl) _)
    · exact escaped _ he (Escape.read_hex_two names hc _)
    · obtain ⟨ts, hts, hdenotes⟩ := ih (start + 1)
      refine ⟨Token.cons c start ts, ?_, hdenotes.plain c start⟩
      have hplain : (Scan.expandingRules names).plain (c :: Escape.encode rest) := by
        refine ⟨by simpa using hne, ?_⟩
        by_contra hmark
        obtain ⟨body, hbody⟩ := Interpolation.opens_iff.1 (by simpa using hmark)
        obtain ⟨hhash, hrest⟩ := List.cons.inj hbody
        exact hopen ⟨hhash, Escape.encode_head (by simp [hrest])⟩
      rw [Escape.encode, he, List.singleton_append, Scan.expanding_plain hplain, hts]
      rfl

/-! ## Decoding -/

namespace Escape

variable {names : CharNames} {start : Int} {rest : Text}

@[simp] theorem decodeFrom_nil (names : CharNames) (start : Int) : decodeFrom names start [] = .ok [] := by
  rw [decodeFrom]

theorem decodeFrom_plain {c : CodePoint} (h : c ≠ .backslash) :
    decodeFrom names start (c :: rest) = (decodeFrom names (start + 1) rest).map (c :: ·) := by
  rw [decodeFrom, if_neg h]

theorem decodeFrom_escape {s : Spelling} (h : read names (s.body ++ rest) = .ok s) :
    decodeFrom names start (.backslash :: (s.body ++ rest)) =
      (decodeFrom names (start + (s.toToken .backslash start).raw.length) rest).map (s.value ++ ·) := by
  have hoffset : start + (s.toToken .backslash start).raw.length = start + 1 + s.body.length := by
    simp only [Spelling.toToken, Token.raw, List.length_cons]
    omega
  rw [decodeFrom, if_pos rfl, h, hoffset]
  simp only [List.drop_left]

theorem decodeFrom_refused {r : Refusal} (h : read names rest = .error r) :
    decodeFrom names start (.backslash :: rest) = .error (r.toError .backslash start) := by
  rw [decodeFrom, if_pos rfl, h]

end Escape

/-- two texts put before a decoded one are one text put before it -/
theorem map_append_map (x : Except ReadError Text) (a b : Text) :
    (x.map (b ++ ·)).map (a ++ ·) = x.map (a ++ b ++ ·) := by
  cases x <;> simp [Except.map]

/-- **Decoding follows the scanner** where there are no interpolations, up to the end of the text or to a mark. -/
theorem decode_append_of_run {names : CharNames} {start : Int} {p q : Text} {ts : List Token}
    (h : Scan.Run (Scan.expandingRules names) start p ts) (hcalls : interpolations ts = [])
    (hq : ∀ c ∈ q.head?, c = .backslash ∨ c = .hash) :
    Escape.decodeFrom names start (p ++ q) =
      (Escape.decodeFrom names (start + p.length) q).map (fill [] (ts.flatMap Token.atoms) ++ ·) := by
  induction h with
  | done start =>
    cases hdecode : Escape.decodeFrom names start q <;> simp [hdecode, Except.map]
  | @token start tok rest ts htok _ ih =>
    have hbefore : Scan.Expands names start (tok.raw ++ (rest ++ q)) tok :=
      htok.append fun _ => Scan.not_prolongedBy_head tok hq
    generalize ht : tok.raw ++ (rest ++ q) = t at hbefore
    cases hbefore with
    | @escape r s hs =>
      obtain rfl : s.body ++ (rest ++ q) = r := List.cons.inj ht |>.2
      rw [List.append_assoc, ht, Escape.decodeFrom_escape hs, ih hcalls, map_append_map, List.length_append,
        Int.natCast_add, Int.add_assoc]
      rfl
    | interpolation h => cases hcalls
  | @plain start c rest ts hplain _ ih =>
    have hne : c ≠ .backslash := by simpa using hplain.1
    rw [interpolations, Token.cons_atoms] at hcalls
    rw [List.cons_append, Escape.decodeFrom_plain hne, ih hcalls, Token.cons_atoms, Scan.offset_cons]
    exact map_append_map _ [c] _

/-- without interpolations, a text that has tokens is decoded to what they denote -/
theorem decode_of_run {names : CharNames} {start : Int} {t : Text} {ts : List Token}
    (h : Scan.Run (Scan.expandingRules names) start t ts) (hcalls : interpolations ts = []) :
    Escape.decodeFrom names start t = .ok (fill [] (ts.flatMap Token.atoms)) := by
  have hdecode := decode_append_of_run (q := []) h hcalls (by simp)
  simpa [Except.map] using hdecode

theorem decode_encode (names : CharNames) (s : Text) : Escape.decode names (Escape.encode s) = .ok s := by
  obtain ⟨ts, hts, hdenotes⟩ := encode_scans names 0 s
  rw [Escape.decode, decode_of_run (Scan.expanding_iff_run.1 hts) hdenotes.calls, hdenotes.text]

/-- **Encoding round trip.** For every text, the encoded text decodes to it; and rendering the encoded text with escapes
and interpolations expanded succeeds without an evaluator and gives it, whatever is traced. -/
theorem encode_round_trip (names : CharNames) (s : Text) :
    Escape.decode names (Escape.encode s) = .ok s ∧
      ∀ (σ : Type) (tracing : Tracing) (state : σ),
        (Render.run (Render.render names tracing none .interpolated (Escape.encode s)) state).1 = .ok (.text s) := by
  refine ⟨decode_encode names s, ?_⟩
  intro σ tracing state
  obtain ⟨ts, hts, hdenotes⟩ := encode_scans names 0 s
  have hscan : scan names .interpolated (Escape.encode s) = .ok ts := hts
  have hrender : (Render.run (Render.render names tracing none .interpolated (Escape.encode s)) state).1 = _ ∧ _ :=
    Render.run_render hscan (fun _ => hdenotes.calls) state
  rw [hrender.1, hdenotes.calls]
  simp [Render.run_eq_exec, Except.map, Render.finish, Mode.splits, hdenotes.text]

end PercentLiteral

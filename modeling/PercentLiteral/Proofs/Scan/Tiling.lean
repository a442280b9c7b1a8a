/-
The tokens of a template tile it.

`Tiles` says that tokens lie side by side in a text, each at its place and none of them empty. `Run.tiles`: the tokens
of any scanner with sound rules do. From this follow, for all modes at once, the parts of `Tiling`: the raw texts make
up the template, a token starts where the one before it stops, and each raw text is the slice that its offsets cut out.

`Run.apart`: no two literals are neighbours. What a literal may hold depends on the mode: `expanding_literal` and
`words_literal`.

`scan_lossless`: all of this for every text, every mode and every table of names.
-/
import PercentLiteral.Proofs.Scan.Run
import Mathlib.Data.List.Chain
import Mathlib.Data.List.Permutation

namespace PercentLiteral

/-- the part of a text from an offset up to another -/
def Text.slice (i j : Int) (t : Text) : Text := (t.take j.toNat).drop i.toNat

/-- what a text has behind some part of it is the slice from there on -/
theorem Text.slice_of_prefix {p q s : Text} (h : s <+: q) : (p ++ q).slice p.length (p.length + s.length) = s := by
  obtain ⟨r, rfl⟩ := h
  have hstop : ((p.length : Int) + s.length).toNat = (p ++ s).length := by
    rw [List.length_append]
    omega
  rw [Text.slice, Int.toNat_natCast, hstop, ← List.append_assoc, List.take_left, List.drop_left]

/-- whether a token is a literal -/
def Token.isLiteral : Token → Bool
  | literal _ _ => true
  | _ => false

/-- tokens that make up a text without loss, and leave no two literals side by side -/
structure Tiling (t : Text) (ts : List Token) : Prop where
  concat : ts.flatMap Token.raw = t
  first : ∀ tok ∈ ts.head?, tok.start = 0
  meet : ts.IsChain fun a b => a.stop = b.start
  last : ∀ tok ∈ ts.getLast?, tok.stop = t.length
  slice : ∀ tok ∈ ts, 0 ≤ tok.start ∧ t.slice tok.start tok.stop = tok.raw
  filled : ∀ tok ∈ ts, tok.raw ≠ []
  apart : ts.IsChain fun a b => ¬ (a.isLiteral ∧ b.isLiteral)

namespace Scan

/-! ## Tokens side by side -/

/-- tokens that lie side by side in a text that begins at an offset -/
inductive Tiles : Int → Text → List Token → Prop where
  | nil (start : Int) : Tiles start [] []
  | cons {start : Int} {tok : Token} {rest : Text} {ts : List Token} :
      tok.start = start → tok.raw ≠ [] → Tiles (start + tok.raw.length) rest ts →
      Tiles start (tok.raw ++ rest) (tok :: ts)

theorem Tiles.concat {start : Int} {t : Text} {ts : List Token} (h : Tiles start t ts) : ts.flatMap Token.raw = t := by
  induction h with
  | nil start => rfl
  | cons _ _ _ ih => rw [List.flatMap_cons, ih]

theorem Tiles.filled {start : Int} {t : Text} {ts : List Token} (h : Tiles start t ts) :
    ∀ tok ∈ ts, tok.raw ≠ [] := by
  induction h with
  | nil start => simp
  | cons _ hne _ ih => exact List.forall_mem_cons.2 ⟨hne, ih⟩

theorem Tiles.first {start : Int} {t : Text} {ts : List Token} (h : Tiles start t ts) :
    ∀ tok ∈ ts.head?, tok.start = start := by
  cases h with
  | nil => simp
  | cons hs _ _ => simpa using hs

theorem Tiles.meet {start : Int} {t : Text} {ts : List Token} (h : Tiles start t ts) :
    ts.IsChain fun a b => a.stop = b.start := by
  induction h with
  | nil start => exact .nil
  | @cons start tok rest ts hs _ htiles ih =>
    refine List.isChain_cons.2 ⟨fun next hnext => ?_, ih⟩
    rw [htiles.first next hnext, Token.stop, hs]

theorem Tiles.last {start : Int} {t : Text} {ts : List Token} (h : Tiles start t ts) :
    ∀ tok ∈ ts.getLast?, tok.stop = start + t.length := by
  induction h with
  | nil start => simp
  | @cons start tok rest ts hs _ htiles ih =>
    intro last hlast
    rcases ts with _ | ⟨next, ts⟩
    · cases htiles
      cases hlast
      simp [Token.stop, hs]
    · rw [List.getLast?_cons_cons] at hlast
      rw [ih last hlast, List.length_append]
      omega

/-- each token has its raw text at its place in the whole text -/
theorem Tiles.place {start : Int} {t : Text} {ts : List Token} (h : Tiles start t ts) :
    ∀ tok ∈ ts, ∃ before behind, t = before ++ tok.raw ++ behind ∧ tok.start = start + before.length := by
  induction h with
  | nil start => simp
  | @cons start tok rest ts hs _ _ ih =>
    refine List.forall_mem_cons.2 ⟨⟨[], rest, rfl, by simpa using hs⟩, fun later hlater => ?_⟩
    obtain ⟨before, behind, rfl, hstart⟩ := ih later hlater
    refine ⟨tok.raw ++ before, behind, by simp, ?_⟩
    rw [hstart, List.length_append]
    omega

theorem Tiles.slice {t : Text} {ts : List Token} (h : Tiles 0 t ts) :
    ∀ tok ∈ ts, 0 ≤ tok.start ∧ t.slice tok.start tok.stop = tok.raw := by
  intro tok hmem
  obtain ⟨before, behind, rfl, hstart⟩ := h.place tok hmem
  refine ⟨by omega, ?_⟩
  rw [Token.stop, hstart, Int.zero_add, List.append_assoc]
  exact Text.slice_of_prefix (List.prefix_append _ _)

/-- nothing tiles an empty text but no tokens -/
theorem Tiles.tokens_nil {start : Int} {ts : List Token} (h : Tiles start [] ts) : ts = [] := by
  by_contra hne
  obtain ⟨tok, ts, rfl⟩ := List.exists_cons_of_ne_nil hne
  have hfilled : tok.raw ≠ [] := h.filled tok List.mem_cons_self
  have hempty : tok.raw = [] := List.flatMap_eq_nil_iff.1 h.concat tok List.mem_cons_self
  exact hfilled hempty

/-- tokens side by side, and others that begin where they stop -/
theorem Tiles.append {start : Int} {u v : Text} {ts us : List Token} (h : Tiles start u ts)
    (hv : Tiles (start + u.length) v us) : Tiles start (u ++ v) (ts ++ us) := by
  induction h with
  | nil start => simpa using hv
  | @cons start tok rest ts hs hne _ ih =>
    rw [List.append_assoc]
    refine .cons hs hne (ih ?_)
    rwa [List.length_append, Int.natCast_add, ← Int.add_assoc] at hv

/-- a row of tiles is cut between any two of them -/
theorem Tiles.append_inv {start : Int} {t : Text} {ts us : List Token} (h : Tiles start t (ts ++ us)) :
    ∃ u v, t = u ++ v ∧ Tiles start u ts ∧ Tiles (start + u.length) v us := by
  induction ts generalizing start t with
  | nil => exact ⟨[], t, rfl, .nil start, by simpa using h⟩
  | cons tok ts ih =>
    cases h with
    | @cons _ _ rest _ hs hne htiles =>
      obtain ⟨u, v, rfl, hu, hv⟩ := ih htiles
      refine ⟨tok.raw ++ u, v, by rw [List.append_assoc], .cons hs hne hu, ?_⟩
      rwa [List.length_append, Int.natCast_add, ← Int.add_assoc]

/-- a code point before tiles makes tiles again, whether or not it joins a literal -/
theorem Tiles.put {start : Int} {c : CodePoint} {t : Text} {ts : List Token} (h : Tiles (start + 1) t ts) :
    Tiles start (c :: t) (Token.cons c start ts) := by
  obtain ⟨s, p, ts', rfl, he⟩ | ⟨_, he⟩ := cons_cases c start ts
  · rw [he]
    generalize hl : Token.literal s p :: ts' = l at h
    cases h with
    | nil => cases hl
    | @cons _ tok rest ts hs hne htiles =>
      cases hl
      refine @Tiles.cons start (.literal (c :: s) start) rest ts' rfl (List.cons_ne_nil c s) ?_
      convert htiles using 1
      simp only [Token.raw, List.length_cons]
      omega
  · rw [he]
    exact @Tiles.cons start (.literal [c] start) t ts rfl (List.cons_ne_nil c []) h

/-- the tokens of a run lie side by side -/
theorem Run.tiles {R : Rules} (hR : R.Sound) {start : Int} {t : Text} {ts : List Token} (h : Run R start t ts) :
    Tiles start t ts := by
  induction h with
  | done start => exact .nil start
  | token htok _ ih => exact .cons (hR.start htok) (hR.filled htok) ih
  | plain _ _ ih => exact ih.put

/-- an empty text has no tokens -/
theorem Run.tokens_nil {R : Rules} (hR : R.Sound) {start : Int} {ts : List Token} (h : Run R start [] ts) : ts = [] :=
  (h.tiles hR).tokens_nil

/-! ## Literals -/

/-- the tokens of a run have no two literals side by side -/
theorem Run.apart {R : Rules} (hR : R.Sound) {start : Int} {t : Text} {ts : List Token} (h : Run R start t ts) :
    ts.IsChain fun a b => ¬ (a.isLiteral ∧ b.isLiteral) := by
  induction h with
  | done start => exact .nil
  | @token start tok rest ts htok _ ih =>
    refine List.isChain_cons.2 ⟨?_, ih⟩
    rintro next _ ⟨hlit, _⟩
    cases tok with
    | literal s p => exact hR.not_literal htok s p rfl
    | escape r v p => cases hlit
    | interpolation e p => cases hlit
  | @plain start c rest ts _ _ ih =>
    obtain ⟨s, p, ts', rfl, he⟩ | ⟨hne, he⟩ := cons_cases c start ts
    · rw [he]
      exact List.isChain_cons.2 (List.isChain_cons.1 ih)
    · rw [he]
      refine List.isChain_cons.2 ⟨?_, ih⟩
      rintro next hnext ⟨_, hlit⟩
      obtain ⟨ts', rfl⟩ := List.head?_eq_some_iff.1 hnext
      cases next with
      | literal s p => exact hne s p ts' rfl
      | escape r v p => cases hlit
      | interpolation e p => cases hlit

/-- a literal of the expanding modes holds no backslash and no opening mark -/
theorem expanding_literal {names : CharNames} {start : Int} {t : Text} {ts : List Token}
    (h : Run (expandingRules names) start t ts) {s : Text} {p : Int} (hmem : .literal s p ∈ ts) :
    .backslash ∉ s ∧ ¬ [.hash, .braceOpen] <:+: s := by
  have hplain := h.literal_plain (expandingRules_sound names) s p hmem
  constructor
  · intro hs
    obtain ⟨before, behind, rfl⟩ := List.append_of_mem hs
    obtain ⟨rest, hrest⟩ := hplain (.backslash :: behind) (by simp) (List.suffix_append _ _)
    exact hrest.1 rfl
  · rintro ⟨before, behind, rfl⟩
    obtain ⟨rest, hrest⟩ := hplain ([.hash, .braceOpen] ++ behind) (by simp)
      (by rw [List.append_assoc]; exact List.suffix_append _ _)
    exact absurd hrest.2 (by simp [Interpolation.opens])

/-- a literal of raw words holds no backslash before a backslash or a blank -/
theorem words_literal {start : Int} {t : Text} {ts : List Token} (h : Run wordRules start t ts) {s : Text} {p : Int}
    (hmem : .literal s p ∈ ts) {c : CodePoint} (hc : c = .backslash ∨ c.isSpace) : ¬ [.backslash, c] <:+: s := by
  rintro ⟨before, behind, rfl⟩
  obtain ⟨rest, hrest⟩ := h.literal_plain wordRules_sound _ p hmem ([.backslash, c] ++ behind) (by simp)
    (by rw [List.append_assoc]; exact List.suffix_append _ _)
  have hescape : isWordEscape c = false := hrest c (behind ++ rest) rfl
  simp only [isWordEscape, Bool.or_eq_false_iff, decide_eq_false_iff_not] at hescape
  rcases hc with hc | hc
  · exact hescape.1 hc
  · exact absurd hc (by simp [hescape.2])

/-- tokens that lie side by side in a text are a tiling of it if its literals lie apart -/
theorem Tiles.tiling {t : Text} {ts : List Token} (h : Tiles 0 t ts)
    (hapart : ts.IsChain fun a b => ¬ (a.isLiteral ∧ b.isLiteral)) : Tiling t ts where
  concat := h.concat
  first := h.first
  meet := h.meet
  last := by simpa using h.last
  slice := h.slice
  filled := h.filled
  apart := hapart

theorem Run.tiling {R : Rules} (hR : R.Sound) {t : Text} {ts : List Token} (h : Run R 0 t ts) : Tiling t ts :=
  (h.tiles hR).tiling (h.apart hR)

theorem raw_tiles (t : Text) : Tiles 0 t (if t = [] then [] else [.literal t 0]) := by
  split
  · subst t
    exact .nil 0
  · rename_i hne
    simpa [Token.raw] using @Tiles.cons 0 (.literal t 0) [] [] rfl hne (.nil _)

theorem raw_tiling (t : Text) : Tiling t (if t = [] then [] else [.literal t 0]) := by
  refine (raw_tiles t).tiling ?_
  split
  · exact .nil
  · exact .singleton _

/-- the tokens of a template lie side by side in it, whatever the mode -/
theorem tiles_of_scan {names : CharNames} {mode : Mode} {t : Text} {ts : List Token} (h : scan names mode t = .ok ts) :
    Tiles 0 t ts := by
  cases mode with
  | raw =>
    cases h
    exact raw_tiles t
  | rawWords =>
    cases h
    exact (words_run 0 t).tiles wordRules_sound
  | interpolated => exact (expanding_iff_run.1 h).tiles (expandingRules_sound names)
  | interpolatedWords => exact (expanding_iff_run.1 h).tiles (expandingRules_sound names)

end Scan

/-- **Scanning loses nothing.** In every mode, whenever a text has tokens: their raw texts make it up; the first starts
at zero, each starts where the one before it stops, and the last stops where the text does; each raw text is the slice
between its token's offsets, and is not empty; no two literals are neighbours. In the expanding modes a literal holds no
backslash and no opening mark, and in raw words no backslash before a backslash or a blank. The empty text has no
tokens. -/
theorem scan_lossless (names : CharNames) (mode : Mode) (t : Text) :
    (∀ ts, scan names mode t = .ok ts →
      Tiling t ts ∧
        (mode.expands → ∀ s p, .literal s p ∈ ts → .backslash ∉ s ∧ ¬ [.hash, .braceOpen] <:+: s) ∧
        (mode = .rawWords → ∀ s p, .literal s p ∈ ts →
          ∀ c, c = .backslash ∨ c.isSpace → ¬ [.backslash, c] <:+: s)) ∧
      scan names mode [] = .ok [] := by
  by_cases hexpands : mode.expands = true
  · rw [Scan.scan_of_expands hexpands, Scan.scan_of_expands hexpands]
    constructor
    · intro ts h
      have hrun := Scan.expanding_iff_run.1 h
      refine ⟨hrun.tiling (Scan.expandingRules_sound names), ?_, ?_⟩
      · intro _ s p hmem
        exact Scan.expanding_literal hrun hmem
      · rintro rfl
        cases hexpands
    · exact Scan.expanding_nil names 0
  · cases mode with
    | raw =>
      constructor
      · intro ts h
        cases h
        exact ⟨Scan.raw_tiling t, fun h => absurd h hexpands, by simp⟩
      · rfl
    | rawWords =>
      constructor
      · intro ts h
        cases h
        have hrun := Scan.words_run 0 t
        refine ⟨hrun.tiling Scan.wordRules_sound, fun h => absurd h hexpands, ?_⟩
        intro _ s p hmem c hc
        exact Scan.words_literal hrun hmem hc
      · rfl
    | interpolated => exact absurd rfl hexpands
    | interpolatedWords => exact absurd rfl hexpands

/-- a template with a live and an escaped mark, and braces inside an expression -/
theorem scan_lossless_marks :
    scan .none .interpolated (text "a\\#{x}#{f({1})}\\n") =
        .ok [.literal (text "a") 0, .escape (text "\\#") (text "#") 1, .literal (text "{x}") 3,
          .interpolation (text "f({1})") 6, .escape (text "\\n") (text "\n") 15] ∧
      Tiling (text "a\\#{x}#{f({1})}\\n")
        [.literal (text "a") 0, .escape (text "\\#") (text "#") 1, .literal (text "{x}") 3,
          .interpolation (text "f({1})") 6, .escape (text "\\n") (text "\n") 15] ∧
      .backslash ∉ text "{x}" := by
  have h : scan .none .interpolated (text "a\\#{x}#{f({1})}\\n") =
      .ok [.literal (text "a") 0, .escape (text "\\#") (text "#") 1, .literal (text "{x}") 3,
        .interpolation (text "f({1})") 6, .escape (text "\\n") (text "\n") 15] := by cbv
  obtain ⟨htiling, hlit, _⟩ := (scan_lossless .none .interpolated _).1 _ h
  exact ⟨h, htiling, (hlit rfl (text "{x}") 3 (by decide)).1⟩

end PercentLiteral

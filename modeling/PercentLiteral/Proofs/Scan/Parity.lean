/-
The parity of backslashes.

Whether a blank separates words, and whether a number sign before a brace opens an interpolation, can be told from the
text in front of it: it does exactly if it stands behind an even number of backslashes. Behind an odd number it belongs
to an escape. This holds though the scanner reads from the left and keeps no count: it is aligned at every border
between cells, so all that is left is to look at the one cell in which a place lies (`words_place`, `expanding_place`).

`backslash_parity`: the rule for raw words, where every other code point lies in exactly one word and nothing fails,
and for the expanding modes outside interpolations and character names.
-/
import PercentLiteral.Proofs.Escape.Grammar
import PercentLiteral.Proofs.Scan.Alignment
import PercentLiteral.Proofs.Scan.Sublanguage

namespace PercentLiteral

namespace Scan

/-! ## Raw words -/

theorem wordRules_pairs : wordRules.Pairs (isWordEscape · = true) where
  backslash := by decide
  plain := by
    intro d rest h htakes
    simp [h d rest rfl] at htakes
  token := by
    rintro start t tok ⟨_⟩
    rename_i d _ _
    by_cases hd : d = .backslash
    · exact Or.inl (by simp [Token.raw, hd])
    · exact Or.inr ⟨[.backslash], d, rfl, hd⟩

/-- in raw words the cell at a place is a gap exactly if a blank stands there behind an even number of backslashes -/
theorem words_place {t : Text} {cells : List Token} {i : Nat} {before rest : Text} {cell : Token}
    (h : Place wordRules (isWordEscape · = true) t cells i before cell rest) {c : CodePoint} (hc : t[i]? = some c) :
    cell.isGap = true ↔ c.isSpace = true ∧ Even (slashes (t.take i)) := by
  obtain ⟨k, rfl, hget⟩ := h.get hc
  rcases h.found with htok | ⟨c', rfl, hplain⟩
  · have haligned := h.aligned
    have hsecond : ∀ body, cell.raw = .backslash :: body → t.take (before.length + 1) = before ++ [.backslash] :=
      fun _ hraw => h.take_second hraw
    generalize cell.raw ++ rest = u at htok haligned
    obtain ⟨hd⟩ := htok
    rename_i d behind
    refine iff_of_false (by simp [Token.isGap]) ?_
    rintro ⟨hspace, heven⟩
    rcases k with _ | _ | k
    · obtain rfl : CodePoint.backslash = c := by simpa [Token.raw] using hget
      exact absurd hspace (by decide)
    · have hpaired : Even (slashes before) := haligned .backslash rfl wordRules_pairs.backslash
      rw [hsecond [c] (by simpa [Token.raw] using hget), slashes_backslash, Nat.even_add_one] at heven
      exact heven hpaired
    · simp [Token.raw] at hget
  · rcases k with _ | k
    · obtain rfl : c' = c := by simpa [Token.raw] using hget
      rw [Nat.add_zero, h.take_first]
      constructor
      · intro hgap
        have hspace : c'.isSpace = true := by simpa [Token.isGap] using hgap
        exact ⟨hspace, h.aligned c' rfl (by simp [isWordEscape, hspace])⟩
      · intro hblank
        simp [Token.isGap, hblank.1]
    · simp [Token.raw] at hget

/-- **Separators of raw words.** A blank separates words exactly if it stands behind an even number of backslashes; any
other code point lies in exactly one word. -/
theorem words_parity {t : Text} {i : Nat} {c : CodePoint} (hc : t[i]? = some c) :
    (c.isSpace = true → ((¬ ∃ w ∈ splitWords (words 0 t), Word.Covers w i) ↔ Even (slashes (t.take i)))) ∧
      (c.isSpace = false → ∃! k : Nat, ∃ w, (splitWords (words 0 t))[k]? = some w ∧ Word.Covers w i) := by
  have hrun := words_run 0 t
  have htiles := hrun.tiles wordRules_sound
  obtain ⟨hi, -⟩ := List.getElem?_eq_some_iff.1 hc
  obtain ⟨before, cell, rest, hplace⟩ :=
    (hrun.steps wordRules_sound).place wordRules_sound wordRules_pairs htiles.cells hi
  obtain ⟨done, later, hcells⟩ := hplace.cells
  have hgap := words_place hplace hc
  constructor
  · intro hspace
    rw [covered_iff htiles hcells hplace.covers, Bool.not_eq_false, hgap]
    exact and_iff_right hspace
  · intro hspace
    refine word_unique htiles ((covered_iff htiles hcells hplace.covers).2 ?_)
    rw [← Bool.not_eq_true, hgap]
    simp [hspace]

/-! ## The expanding modes -/

theorem expandingRules_pairs (names : CharNames) : (expandingRules names).Pairs (fun _ => True) where
  backslash := trivial
  plain := by
    intro d rest h
    exact absurd rfl h.1
  token := by
    rintro start t tok (⟨hread⟩ | ⟨hbody⟩)
    · rename_i s
      have hspelled := Escape.read_iff.1 hread
      rcases hspelled.spells.backslash with hone | hnone
      · exact Or.inl (by simp [Escape.Spelling.toToken, Token.raw, hone])
      · rcases List.eq_nil_or_concat s.body with hnil | ⟨r, c, hconcat⟩
        · exact absurd hnil (Escape.read_starts hread).body
        · refine Or.inr ⟨.backslash :: r, c, by simp [Escape.Spelling.toToken, Token.raw, hconcat], ?_⟩
          rintro rfl
          exact hnone (by simp [hconcat])
    · rename_i e
      exact Or.inr ⟨.hash :: .braceOpen :: e, .braceClose, rfl, by decide⟩

/-- an escape that writes a number sign or a blank behind its backslash is that backslash and the mark, unless it names a
character -/
theorem escape_of_mark {names : CharNames} {t : Text} {s : Escape.Spelling} (hread : Escape.read names t = .ok s) {k : Nat}
    {c : CodePoint} (hbody : s.body[k]? = some c) (hmark : c = .hash ∨ c.isSpace)
    (hname : ¬ text "\\N\x7b" <+: CodePoint.backslash :: s.body) : k = 0 ∧ s.body = [c] ∧ s.value = [c] := by
  have hspells := (Escape.read_iff.1 hread).spells
  rcases hspells.mark (List.mem_of_getElem? hbody) hmark with ⟨hone, hvalue⟩ | ⟨name, hnamed⟩
  · refine ⟨?_, hone, hvalue⟩
    rw [hone] at hbody
    by_contra hk
    obtain ⟨k, rfl⟩ := Nat.exists_eq_succ_of_ne_zero hk
    simp at hbody
  · have hhead : text "\\N\x7b" = [.backslash, .ofChar 'N', .braceOpen] := by decide
    refine absurd ⟨name ++ [.braceClose], ?_⟩ hname
    simp [hhead, hnamed, Escape.ofName]

/-- outside interpolations and character names, the cell at a number sign or a blank behind an odd number of backslashes
is its escape, and behind an even number it begins there -/
theorem expanding_place {names : CharNames} {t : Text} {cells : List Token} {i : Nat} {before rest : Text}
    {cell : Token} (h : Place (expandingRules names) (fun _ => True) t cells i before cell rest) {c : CodePoint}
    (hc : t[i]? = some c) (hmark : c = .hash ∨ c.isSpace) (hinside : cell.isInterpolation = true → cell.start = i)
    (hname : ¬ text "\\N\x7b" <+: cell.raw) :
    (¬ Even (slashes (t.take i)) ∧ cell = .escape [.backslash, c] [c] ((i : Int) - 1)) ∨
      (Even (slashes (t.take i)) ∧ cell.start = i ∧
        (cell.isInterpolation = true ∨ (cell.isLiteral = true ∧ Interpolation.opens (t.drop i) = false))) := by
  obtain ⟨k, rfl, hget⟩ := h.get hc
  have hpaired : ∀ d r, cell.raw = d :: r → Even (slashes before) := by
    intro d r hraw
    exact h.aligned d (by simp [hraw]) trivial
  have hbackslash : c ≠ .backslash := by
    rintro rfl
    exact absurd hmark (by decide)
  rcases h.found with htok | ⟨c', rfl, hplain⟩
  · generalize cell.raw ++ rest = u at htok
    cases htok with
    | @escape behind s hread =>
      left
      rcases k with _ | k
      · exact absurd (by simpa [Escape.Spelling.toToken, Token.raw] using hget.symm) hbackslash
      · have hbody : s.body[k]? = some c := by simpa [Escape.Spelling.toToken, Token.raw] using hget
        obtain ⟨rfl, hone, hvalue⟩ := escape_of_mark hread hbody hmark hname
        rw [Nat.zero_add, h.take_second rfl, slashes_backslash, Nat.even_add_one, not_not]
        refine ⟨hpaired _ _ rfl, ?_⟩
        simp [Escape.Spelling.toToken, hone, hvalue]
    | @interpolation behind e hbody =>
      right
      obtain rfl : k = 0 := by
        have hstart : (before.length : Int) = (before.length + k : Nat) := hinside rfl
        omega
      rw [Nat.add_zero, h.take_first]
      exact ⟨hpaired _ _ rfl, rfl, Or.inl rfl⟩
  · right
    rcases k with _ | k
    · obtain rfl : c' = c := by simpa [Token.raw] using hget
      have hdrop : t.drop before.length = c' :: rest := by
        rw [h.split, List.drop_left]
        rfl
      rw [Nat.add_zero, h.take_first, hdrop]
      exact ⟨hpaired _ _ rfl, rfl, Or.inr ⟨rfl, hplain.2⟩⟩
    · simp [Token.raw] at hget

/-- a place that lies in no interpolation, unless it begins one, and in no name of a character -/
def Outside (ts : List Token) (i : Nat) : Prop :=
  ∀ tok ∈ ts, tok.Covers i → (tok.isInterpolation = true → tok.start = i) ∧ ¬ text "\\N\x7b" <+: tok.raw

instance (ts : List Token) (i : Nat) : Decidable (Outside ts i) := inferInstanceAs (Decidable (∀ tok ∈ ts, _ → _ ∧ _))

/-- the cell at a place outside is outside as well -/
theorem Outside.cell {ts done later : List Token} {cell : Token} {i : Nat} (h : Outside ts i)
    (hcells : ts.flatMap Token.cells = done ++ cell :: later) (hcovers : cell.Covers i) :
    (cell.isInterpolation = true → cell.start = i) ∧ ¬ text "\\N\x7b" <+: cell.raw := by
  have hmem : cell ∈ ts.flatMap Token.cells := by simp [hcells]
  obtain ⟨tok, htok, hcell⟩ := List.mem_flatMap.1 hmem
  cases tok with
  | literal s p =>
    obtain ⟨c, q, rfl⟩ := Token.eq_of_mem_characters hcell
    refine ⟨by simp [Token.isInterpolation], ?_⟩
    intro hname
    have hlength : 3 ≤ 1 := hname.length_le
    omega
  | escape r v p =>
    obtain rfl : cell = .escape r v p := List.mem_singleton.1 hcell
    exact h _ htok hcovers
  | interpolation e p =>
    obtain rfl : cell = .interpolation e p := List.mem_singleton.1 hcell
    exact h _ htok hcovers

/-- the cell at a number sign or a blank outside, in a template that has tokens -/
theorem expanding_mark {names : CharNames} {t : Text} {ts : List Token} (h : Run (expandingRules names) 0 t ts) {i : Nat}
    (hout : Outside ts i) {c : CodePoint} (hc : t[i]? = some c) (hmark : c = .hash ∨ c.isSpace) :
    ∃ (done : List Token) (cell : Token) (later : List Token),
      ts.flatMap Token.cells = done ++ cell :: later ∧ cell.Covers i ∧
      ((¬ Even (slashes (t.take i)) ∧ cell = .escape [.backslash, c] [c] ((i : Int) - 1)) ∨
        (Even (slashes (t.take i)) ∧ cell.start = i ∧
          (cell.isInterpolation = true ∨ (cell.isLiteral = true ∧ Interpolation.opens (t.drop i) = false)))) := by
  have hsound := expandingRules_sound names
  obtain ⟨hi, -⟩ := List.getElem?_eq_some_iff.1 hc
  obtain ⟨before, cell, rest, hplace⟩ :=
    (h.steps hsound).place hsound (expandingRules_pairs names) (h.tiles hsound).cells hi
  obtain ⟨done, later, hcells⟩ := hplace.cells
  obtain ⟨hinside, hname⟩ := hout.cell hcells hplace.covers
  exact ⟨done, cell, later, hcells, hplace.covers, expanding_place hplace hc hmark hinside hname⟩

/-- **Blanks of the expanding modes.** Outside interpolations and character names a blank is text exactly behind an even
number of backslashes; behind an odd number it belongs to its escape. -/
theorem expanding_blank {names : CharNames} {t : Text} {ts : List Token} (h : Run (expandingRules names) 0 t ts) {i : Nat}
    (hout : Outside ts i) {c : CodePoint} (hc : t[i]? = some c) (hspace : c.isSpace = true) :
    ((∃ tok ∈ ts, tok.isLiteral = true ∧ tok.Covers i) ↔ Even (slashes (t.take i))) ∧
      (¬ Even (slashes (t.take i)) → .escape [.backslash, c] [c] ((i : Int) - 1) ∈ ts) := by
  have htiles := h.tiles (expandingRules_sound names)
  obtain ⟨done, cell, later, hcells, hcovers, ⟨hodd, rfl⟩ | ⟨heven, hstart, hcell⟩⟩ :=
    expanding_mark h hout hc (Or.inr hspace)
  · rw [literal_iff htiles hcells hcovers]
    refine ⟨iff_of_false (by simp [Token.isLiteral]) hodd, ?_⟩
    intro _
    exact (Token.mem_cells_iff rfl).1 (by simp [hcells])
  · refine ⟨?_, fun hodd => absurd heven hodd⟩
    rw [literal_iff htiles hcells hcovers]
    refine iff_of_true ?_ heven
    rcases hcell with hinterpolation | ⟨hliteral, _⟩
    · -- an interpolation would begin with a number sign
      cases cell with
      | literal s p => rfl
      | escape r v p => cases hinterpolation
      | interpolation e p =>
        have hmem : .interpolation e p ∈ ts := (Token.mem_cells_iff rfl).1 (by simp [hcells])
        obtain ⟨before, behind, rfl, hplace⟩ := htiles.place _ hmem
        obtain rfl : i = before.length := by
          have hi : (i : Int) = 0 + before.length := hstart.symm.trans hplace
          omega
        obtain rfl : CodePoint.hash = c := by simpa [Token.raw] using hc
        exact absurd hspace (by decide)
    · exact hliteral

/-- **Opening marks of the expanding modes.** Outside interpolations and character names a mark opens an interpolation
exactly behind an even number of backslashes; behind an odd number the number sign belongs to its escape. -/
theorem expanding_opening {names : CharNames} {t : Text} {ts : List Token} (h : Run (expandingRules names) 0 t ts)
    {i : Nat} (hout : Outside ts i) (hopens : [.hash, .braceOpen] <+: t.drop i) :
    ((∃ e, .interpolation e i ∈ ts) ↔ Even (slashes (t.take i))) ∧
      (¬ Even (slashes (t.take i)) → .escape [.backslash, .hash] [.hash] ((i : Int) - 1) ∈ ts) := by
  have htiles := h.tiles (expandingRules_sound names)
  obtain ⟨rest, hrest⟩ := hopens
  have hc : t[i]? = some .hash := by
    rw [← List.head?_drop, ← hrest]
    rfl
  have hopens : Interpolation.opens (t.drop i) = true := Interpolation.opens_iff.2 ⟨rest, hrest.symm⟩
  have hcovers_self : ∀ e : Text, (Token.interpolation e i).Covers i := by
    intro e
    simp only [Token.Covers, Token.stop, Token.start, Token.raw, List.length_append, List.length_cons]
    omega
  obtain ⟨done, cell, later, hcells, hcovers, ⟨hodd, rfl⟩ | ⟨heven, hstart, hcell⟩⟩ :=
    expanding_mark h hout hc (Or.inl rfl)
  · constructor
    · refine iff_of_false ?_ hodd
      rintro ⟨e, hmem⟩
      cases eq_cell htiles hcells hcovers hmem rfl (hcovers_self e)
    · intro _
      exact (Token.mem_cells_iff rfl).1 (by simp [hcells])
  · refine ⟨iff_of_true ?_ heven, fun hodd => absurd heven hodd⟩
    rcases hcell with hinterpolation | ⟨_, hclosed⟩
    · cases cell with
      | literal s p => cases hinterpolation
      | escape r v p => cases hinterpolation
      | interpolation e p =>
        obtain rfl : p = i := hstart
        exact ⟨e, (Token.mem_cells_iff rfl).1 (by simp [hcells])⟩
    · simp [hopens] at hclosed

end Scan

open Render

/-- **The parity of backslashes.** In raw words, which every text has, a blank separates words exactly behind an even
number of backslashes, every other code point lies in exactly one word, and rendering gives words with any evaluator or
none. In the expanding modes, at a place outside interpolations and character names, a blank is text and an opening mark
opens an interpolation exactly behind an even number of backslashes; behind an odd number they belong to an escape. -/
theorem backslash_parity (names : CharNames) (t : Text) :
    (∃ ts, scan names .rawWords t = .ok ts ∧ ∀ i c, t[i]? = some c →
      (c.isSpace = true → ((¬ ∃ w ∈ splitWords ts, Word.Covers w i) ↔ Even (slashes (t.take i)))) ∧
      (c.isSpace = false → ∃! k : Nat, ∃ w, (splitWords ts)[k]? = some w ∧ Word.Covers w i)) ∧
    (∀ (σ : Type) (tracing : Tracing) (ev : Option (Evaluator σ)) (state : σ),
      ∃ ws, (run (render names tracing ev .rawWords t) state).1 = .ok (.words ws)) ∧
    ∀ mode : Mode, mode.expands = true → ∀ ts, scan names mode t = .ok ts → ∀ i, Scan.Outside ts i →
      (∀ c, t[i]? = some c → c.isSpace = true →
        ((∃ tok ∈ ts, tok.isLiteral = true ∧ tok.Covers i) ↔ Even (slashes (t.take i))) ∧
        (¬ Even (slashes (t.take i)) → .escape [.backslash, c] [c] ((i : Int) - 1) ∈ ts)) ∧
      ([.hash, .braceOpen] <+: t.drop i →
        ((∃ e, .interpolation e i ∈ ts) ↔ Even (slashes (t.take i))) ∧
        (¬ Even (slashes (t.take i)) → .escape [.backslash, .hash] [.hash] ((i : Int) - 1) ∈ ts)) := by
  refine ⟨⟨Scan.words 0 t, rfl, fun i c => Scan.words_parity⟩, ?_, ?_⟩
  · intro σ tracing ev state
    have hscan : scan names .rawWords t = .ok (Scan.words 0 t) := rfl
    exact ⟨_, run_render_silent hscan (Scan.interpolations_words 0 t) state⟩
  · intro mode hmode ts hscan i hout
    rw [Scan.scan_of_expands hmode] at hscan
    have hrun := Scan.expanding_iff_run.1 hscan
    constructor
    · intro c hc hspace
      exact Scan.expanding_blank hrun hout hc hspace
    · intro hopens
      exact Scan.expanding_opening hrun hout hopens

/-- two backslashes, one and one, before two blanks and an opening mark -/
theorem backslash_parity_runs :
    (¬ ∃ w ∈ splitWords (Scan.words 0 (text "\\\\ \\ \\#\x7b")), Word.Covers w 2) ∧
      (∃ w ∈ splitWords (Scan.words 0 (text "\\\\ \\ \\#\x7b")), Word.Covers w 4) ∧
      ∃ ts, scan .none .interpolated (text "\\\\ \\ \\#\x7b") = .ok ts ∧
        .escape (text "\\#") (text "#") 5 ∈ ts ∧ ¬ ∃ e, Token.interpolation e 6 ∈ ts := by
  have hscan : scan .none .interpolated (text "\\\\ \\ \\#\x7b") =
      .ok [.escape (text "\\\\") (text "\\") 0, .literal (text " ") 2, .escape (text "\\ ") (text " ") 3,
        .escape (text "\\#") (text "#") 5, .literal (text "\x7b") 7] := by cbv
  obtain ⟨⟨ts, hwords, hplaces⟩, _, hexpanding⟩ := backslash_parity .none (text "\\\\ \\ \\#\x7b")
  cases hwords
  have hblank : CodePoint.space.isSpace = true := by decide
  have hsecond := (hplaces 2 .space (by decide)).1 hblank
  have hfourth := (hplaces 4 .space (by decide)).1 hblank
  obtain ⟨_, hopening⟩ := hexpanding .interpolated rfl _ hscan 6 (by decide)
  obtain ⟨hopens, hescape⟩ := hopening (by decide)
  refine ⟨hsecond.2 (by decide), ?_, _, hscan, hescape (by decide), ?_⟩
  · by_contra hnone
    exact absurd (hfourth.1 hnone) (by decide)
  · intro hopened
    exact absurd (hopens.1 hopened) (by decide)

end PercentLiteral

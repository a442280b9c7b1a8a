/-
Token lists that can be read back.

`Printable` says which token lists the expanding modes can have: each token is one by itself (`Token.Proper`), no token
continues into its neighbour (`Token.Fuses`), and each starts where the one before it stops (`Placed`). It speaks of the
tokens alone and not of a scanner. Of neighbours it excludes two literals, an octal number of less than three digits
before an octal digit, and \SO before an H; any other two tokens may stand side by side.

- `Run.printable`: the tokens of a run are printable;
- `run_of_printable`: printed, printable tokens have a run that ends with them.

`scan_eq_ok_iff_printable`: hence scanning undoes printing, and what is scanned is printable.
-/
import PercentLiteral.Proofs.Scan.Lookahead
import PercentLiteral.Proofs.Scan.Tiling

namespace PercentLiteral

/-! ## Printable tokens -/

namespace Token

/-- whether a token is one by itself: a literal that is not empty and holds no mark, a backslash sequence that is read
back as it is, or an expression whose braces match -/
def Proper (names : CharNames) : Token → Prop
  | literal s _ => s ≠ [] ∧ .backslash ∉ s ∧ ¬ [.hash, .braceOpen] <:+: s
  | escape raw value _ => raw.head? = some .backslash ∧ Escape.match? names raw 0 = .ok (.escape raw value 0)
  | interpolation e _ => Interpolation.Balanced e

/-- whether the text of a token would be read as part of the token before it -/
def Fuses : Token → Token → Prop
  | literal _ _, literal _ _ => True
  | escape raw _ _, literal s _ => Escape.Prolongs (raw.drop 1) s.head?
  | _, _ => False

end Token

/-- tokens that follow each other from an offset on -/
def Placed : (start : Int) → List Token → Prop
  | _, [] => True
  | start, tok :: ts => tok.start = start ∧ Placed tok.stop ts

/-- tokens that their printed text determines -/
structure Printable (names : CharNames) (start : Int) (ts : List Token) : Prop where
  proper : ∀ tok ∈ ts, tok.Proper names
  apart : ts.IsChain fun a b => ¬ a.Fuses b
  placed : Placed start ts

namespace Scan

/-- the tokens that are read back are those that are recognized alone -/
theorem proper_iff_expands {names : CharNames} {start : Int} {tok : Token} (hlit : ∀ s p, tok ≠ .literal s p)
    (hstart : tok.start = start) : tok.Proper names ↔ Expands names start tok.raw tok := by
  cases tok with
  | literal s p => exact absurd rfl (hlit s p)
  | escape raw value p =>
    obtain rfl : p = start := hstart
    constructor
    · rintro ⟨hraw, hmatch⟩
      obtain ⟨body, rfl⟩ := List.head?_eq_some_iff.1 hraw
      have hread : Escape.read names body = .ok ⟨body, value⟩ := by
        simp only [Escape.match?, List.drop_zero] at hmatch
        split at hmatch
        · rename_i s hs
          obtain ⟨b, v⟩ := s
          cases hmatch
          exact hs
        · cases hmatch
      exact .escape hread
    · intro h
      generalize hr : Token.raw (.escape raw value p) = r at h
      generalize ht : Token.escape raw value p = t at h
      cases h with
      | @escape body s hs =>
        cases ht
        obtain rfl : s.body = body := List.cons.inj hr |>.2
        exact ⟨rfl, by simp [Escape.match?, hs, Escape.Spelling.toToken]⟩
      | interpolation => cases ht
  | interpolation e p =>
    obtain rfl : p = start := hstart
    constructor
    · intro h
      exact .interpolation (Interpolation.body?_balanced h [])
    · intro h
      generalize hr : Token.raw (.interpolation e p) = r at h
      generalize ht : Token.interpolation e p = t at h
      cases h with
      | escape => cases ht
      | interpolation he =>
        cases ht
        exact (Interpolation.body?_iff.1 he).1

theorem fuses_literal_iff {tok : Token} (hlit : ∀ s p, tok ≠ .literal s p) (s : Text) (p : Int) :
    tok.Fuses (.literal s p) ↔ tok.ProlongedBy s.head? := by
  cases tok with
  | literal s p => exact absurd rfl (hlit s p)
  | escape r v p => exact Iff.rfl
  | interpolation e p => exact Iff.rfl

/-! ## What is scanned is printable -/

theorem Tiles.placed {start : Int} {t : Text} {ts : List Token} (h : Tiles start t ts) : Placed start ts := by
  induction h with
  | nil start => trivial
  | @cons start tok rest ts hs _ _ ih =>
    refine ⟨hs, ?_⟩
    rw [Token.stop, hs]
    exact ih

theorem Run.proper {names : CharNames} {start : Int} {t : Text} {ts : List Token}
    (h : Run (expandingRules names) start t ts) : ∀ tok ∈ ts, tok.Proper names := by
  have hsound := expandingRules_sound names
  intro tok hmem
  cases tok with
  | literal s p => exact ⟨(h.tiles hsound).filled _ hmem, expanding_literal h hmem⟩
  | escape r v p =>
    obtain ⟨q, rest, hexpands⟩ := h.tokens _ hmem (by simp)
    exact (proper_iff_expands (by simp) (hsound.start hexpands)).2 (expands_append_iff.1 hexpands).1
  | interpolation e p =>
    obtain ⟨q, rest, hexpands⟩ := h.tokens _ hmem (by simp)
    exact (proper_iff_expands (by simp) (hsound.start hexpands)).2 (expands_append_iff.1 hexpands).1

/-- no token of a run continues into the next -/
theorem Run.unfused {names : CharNames} {start : Int} {t : Text} {ts : List Token}
    (h : Run (expandingRules names) start t ts) : ts.IsChain fun a b => ¬ a.Fuses b := by
  have hsound := expandingRules_sound names
  induction h with
  | done start => exact .nil
  | @token start tok rest ts htok hrun ih =>
    refine List.isChain_cons.2 ⟨?_, ih⟩
    intro next hnext hfuses
    obtain ⟨ts', rfl⟩ := List.head?_eq_some_iff.1 hnext
    have hlit := hsound.not_literal htok
    cases next with
    | literal s p =>
      -- a literal behind the token begins the text behind it
      obtain ⟨behind, rfl⟩ := hrun.literal_prefix hsound
      have hne : s ≠ [] := (hrun.tiles hsound).filled _ List.mem_cons_self
      have hhead : (s ++ behind).head? = s.head? := List.head?_append_of_ne_nil s hne
      have hnot := (expands_append_iff.1 htok).2
      rw [hhead] at hnot
      exact hnot ((fuses_literal_iff hlit s p).1 hfuses)
    | escape r v p => cases tok <;> exact hfuses
    | interpolation e p => cases tok <;> exact hfuses
  | @plain start c rest ts _ _ ih =>
    obtain ⟨s, p, ts', rfl, he⟩ | ⟨hne, he⟩ := cons_cases c start ts
    · rw [he]
      obtain ⟨hfirst, hrest⟩ := List.isChain_cons.1 ih
      refine List.isChain_cons.2 ⟨fun next hnext => ?_, hrest⟩
      have := hfirst next hnext
      cases next <;> exact this
    · rw [he]
      refine List.isChain_cons.2 ⟨?_, ih⟩
      intro next hnext
      obtain ⟨ts', rfl⟩ := List.head?_eq_some_iff.1 hnext
      cases next with
      | literal s p => exact absurd rfl (hne s p ts')
      | escape r v p => exact id
      | interpolation e p => exact id

theorem Run.printable {names : CharNames} {start : Int} {t : Text} {ts : List Token}
    (h : Run (expandingRules names) start t ts) : Printable names start ts :=
  ⟨h.proper, h.unfused, (h.tiles (expandingRules_sound names)).placed⟩

/-! ## What is printable is scanned -/

/-- a literal before a text that begins with no literal is scanned as one -/
theorem run_literal {names : CharNames} {start : Int} {s rest : Text} {ts : List Token} (hne : s ≠ [])
    (hslash : .backslash ∉ s) (hmark : ¬ [.hash, .braceOpen] <:+: s) (hnext : rest.head? ≠ some .braceOpen)
    (hts : ∀ u p ts', ts ≠ .literal u p :: ts') (h : Run (expandingRules names) (start + s.length) rest ts) :
    Run (expandingRules names) start (s ++ rest) (.literal s start :: ts) := by
  induction s generalizing start with
  | nil => exact absurd rfl hne
  | cons c s ih =>
    have hplain : (expandingRules names).plain (c :: (s ++ rest)) := by
      refine plain_iff.2 ⟨fun hc => hslash (by simp [hc]), ?_⟩
      rintro ⟨rfl, hbrace⟩
      cases s with
      | nil => exact hnext hbrace
      | cons d s =>
        obtain rfl : d = .braceOpen := by simpa using hbrace
        exact hmark ⟨[], s, rfl⟩
    cases s with
    | nil =>
      have hrun := Run.plain hplain h
      obtain ⟨u, p, ts', rfl, _⟩ | ⟨_, he⟩ := cons_cases c start ts
      · exact absurd rfl (hts u p ts')
      · exact he ▸ hrun
    | cons d s =>
      rw [offset_cons] at h
      have hrun := ih (List.cons_ne_nil d s) (fun hmem => hslash (List.mem_cons_of_mem c hmem))
        (fun hinner => hmark (hinner.trans (List.suffix_cons c _).isInfix)) h
      exact Run.plain hplain hrun

/-- what begins a printed text: the literal that the tokens begin with, or a mark -/
theorem head?_printed {names : CharNames} {ts : List Token} (h : ∀ tok ∈ ts, tok.Proper names) :
    (∃ s p ts', ts = .literal s p :: ts' ∧ (ts.flatMap Token.raw).head? = s.head?) ∨
      (∀ s p ts', ts ≠ .literal s p :: ts') ∧
        ∀ c ∈ (ts.flatMap Token.raw).head?, c = .backslash ∨ c = .hash := by
  cases ts with
  | nil => exact Or.inr ⟨by simp, by simp⟩
  | cons tok ts =>
    have hproper := h tok List.mem_cons_self
    cases tok with
    | literal s p =>
      refine Or.inl ⟨s, p, ts, rfl, ?_⟩
      exact List.head?_append_of_ne_nil s hproper.1
    | escape r v p =>
      obtain ⟨body, rfl⟩ := List.head?_eq_some_iff.1 hproper.1
      exact Or.inr ⟨by simp, by simp [Token.raw]⟩
    | interpolation e p => exact Or.inr ⟨by simp, by simp [Token.raw]⟩

/-- the text behind a token does not prolong it, if the tokens behind it do not -/
theorem not_prolongedBy_printed {names : CharNames} {tok : Token} {ts : List Token}
    (hlit : ∀ s p, tok ≠ .literal s p) (hproper : ∀ t ∈ ts, t.Proper names)
    (hapart : ∀ next ∈ ts.head?, ¬ tok.Fuses next) : ¬ tok.ProlongedBy (ts.flatMap Token.raw).head? := by
  rcases head?_printed hproper with ⟨s, p, ts', rfl, hhead⟩ | ⟨_, hmark⟩
  · rw [hhead, ← fuses_literal_iff hlit s p]
    exact hapart _ rfl
  · exact not_prolongedBy_head tok hmark

theorem run_of_printable {names : CharNames} {start : Int} {ts : List Token} (h : Printable names start ts) :
    Run (expandingRules names) start (ts.flatMap Token.raw) ts := by
  induction ts generalizing start with
  | nil => exact .done start
  | cons tok ts ih =>
    obtain ⟨hproper, hapart, hstart, hplaced⟩ := h
    obtain ⟨hself, hrest⟩ := List.forall_mem_cons.1 hproper
    obtain ⟨hfirst, hchain⟩ := List.isChain_cons.1 hapart
    have hrun : Run (expandingRules names) (start + tok.raw.length) (ts.flatMap Token.raw) ts := by
      rw [Token.stop, hstart] at hplaced
      exact ih ⟨hrest, hchain, hplaced⟩
    rw [List.flatMap_cons]
    cases tok with
    | literal s p =>
      obtain rfl : p = start := hstart
      obtain ⟨hne, hslash, hmark⟩ := hself
      rcases head?_printed hrest with ⟨u, q, ts', rfl, _⟩ | ⟨hts, hnext⟩
      · exact absurd trivial (hfirst _ rfl)
      · refine run_literal hne hslash hmark ?_ hts hrun
        intro hbrace
        exact absurd (hnext _ hbrace) (by decide)
    | escape r v p =>
      have halone := (proper_iff_expands (by simp) hstart).1 hself
      exact .token (expands_append_iff.2 ⟨halone, not_prolongedBy_printed (by simp) hrest hfirst⟩) hrun
    | interpolation e p =>
      have halone := (proper_iff_expands (by simp) hstart).1 hself
      exact .token (expands_append_iff.2 ⟨halone, not_prolongedBy_printed (by simp) hrest hfirst⟩) hrun

end Scan

/-- **Scanning undoes printing.** In an expanding mode a text has certain tokens exactly if these are printable and the
text is what they print: each token is one by itself, no token continues into the next, and the starts follow each other
from zero. So printable tokens are read back from their text as they were, whatever they are, and every list that is
scanned is printable. -/
theorem scan_eq_ok_iff_printable {mode : Mode} (hmode : mode.expands = true) (names : CharNames) (t : Text)
    (ts : List Token) : scan names mode t = .ok ts ↔ Printable names 0 ts ∧ ts.flatMap Token.raw = t := by
  rw [Scan.scan_of_expands hmode, Scan.expanding_iff_run]
  constructor
  · intro h
    exact ⟨h.printable, (h.tiles (Scan.expandingRules_sound names)).concat⟩
  · rintro ⟨hprintable, rfl⟩
    exact Scan.run_of_printable hprintable

/-- tokens on the edge: a short number before a nine, \SO before an I, and a number sign before a mark -/
theorem scan_eq_ok_iff_printable_edges :
    Mode.interpolatedWords.expands = true ∧
      scan .none .interpolatedWords (text "\\19\\SOI##{x{}}\\USH") =
        .ok [.escape (text "\\1") [⟨1, by decide⟩] 0, .literal (text "9") 2, .escape (text "\\SO") [⟨14, by decide⟩] 3,
          .literal (text "I#") 6, .interpolation (text "x{}") 8, .escape (text "\\US") [⟨31, by decide⟩] 14,
          .literal (text "H") 17] ∧
      Printable .none 0
        [.escape (text "\\1") [⟨1, by decide⟩] 0, .literal (text "9") 2, .escape (text "\\SO") [⟨14, by decide⟩] 3,
          .literal (text "I#") 6, .interpolation (text "x{}") 8, .escape (text "\\US") [⟨31, by decide⟩] 14,
          .literal (text "H") 17] := by
  have h : scan .none .interpolatedWords (text "\\19\\SOI##{x{}}\\USH") =
      .ok [.escape (text "\\1") [⟨1, by decide⟩] 0, .literal (text "9") 2, .escape (text "\\SO") [⟨14, by decide⟩] 3,
        .literal (text "I#") 6, .interpolation (text "x{}") 8, .escape (text "\\US") [⟨31, by decide⟩] 14,
        .literal (text "H") 17] := by cbv
  exact ⟨rfl, h, ((scan_eq_ok_iff_printable rfl .none _ _).1 h).1⟩

end PercentLiteral

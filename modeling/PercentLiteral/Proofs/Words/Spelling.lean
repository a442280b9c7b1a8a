/-
Every list of words can be written.

In raw words a word is written with its backslashes doubled and a backslash before each of its blanks
(`rawSpelling`). In the expanding modes it is encoded, and a backslash is put before each blank that encoding leaves
(`spelling`). Any blanks may stand around words written so.

`Writes` says of such a text that a scanner takes it, before the text behind it, for one code point of the word after the
other, either as text or as an escape. So its tokens have no blank among their atoms and denote the word
(`Writes.run`), and words written side by side with blanks between them are the runs of the whole (`run_of_spaced`).

`words_of_spelling`: both modes give back the words that were written.
-/
import PercentLiteral.Proofs.Escape.RoundTrip
import PercentLiteral.Proofs.Scan.Tiling
import PercentLiteral.Proofs.Words.Runs

namespace PercentLiteral

/-! ## Spellings -/

/-- the text with a backslash before every code point of a kind -/
def Text.guarded (kind : CodePoint → Bool) (t : Text) : Text :=
  t.flatMap fun c => if kind c then [.backslash, c] else [c]

/-- a word of raw words as it is written: a backslash before each backslash and each blank -/
def rawSpelling (w : Text) : Text := w.guarded fun c => c = .backslash || c.isSpace

/-- a word of the expanding modes as it is written: encoded, and a backslash before each blank that is left -/
def spelling (w : Text) : Text := (Escape.encode w).guarded CodePoint.isSpace

theorem Text.guarded_cons_of_pos {kind : CodePoint → Bool} {c : CodePoint} (h : kind c = true) (t : Text) :
    Text.guarded kind (c :: t) = .backslash :: c :: Text.guarded kind t := by
  simp [Text.guarded, h]

theorem Text.guarded_cons_of_neg {kind : CodePoint → Bool} {c : CodePoint} (h : kind c = false) (t : Text) :
    Text.guarded kind (c :: t) = c :: Text.guarded kind t := by
  simp [Text.guarded, h]

theorem Text.guarded_append (kind : CodePoint → Bool) (t u : Text) :
    Text.guarded kind (t ++ u) = Text.guarded kind t ++ Text.guarded kind u :=
  List.flatMap_append

theorem Text.guarded_eq_self {kind : CodePoint → Bool} {t : Text} (h : ∀ c ∈ t, kind c = false) :
    Text.guarded kind t = t := by
  induction t with
  | nil => rfl
  | cons c t ih =>
    obtain ⟨hc, ht⟩ := List.forall_mem_cons.1 h
    rw [Text.guarded_cons_of_neg hc, ih ht]

namespace Scan

/-! ## Texts that write a word -/

/-- a text that writes a word before other text: code point by code point, as text or as an escape wherever it stands -/
inductive Writes (R : Rules) (rest : Text) : Text → Text → Prop where
  | nil : Writes R rest [] []
  | plain {c : CodePoint} {u w : Text} :
      R.plain (c :: (u ++ rest)) → c.isSpace = false → Writes R rest u w → Writes R rest (c :: u) (c :: w)
  | escape {r u w : Text} {c : CodePoint} :
      (∀ start, R.token start (r ++ (u ++ rest)) (.escape r [c] start)) → Writes R rest u w →
        Writes R rest (r ++ u) (c :: w)

/-- atoms that hold no blank and no interpolation, and denote a text -/
structure Solid (as : List Atom) (w : Text) : Prop where
  solid : ∀ a ∈ as, a.isBlank = false
  calls : calls as = []
  text : fill [] as = w

/-- what writes a word is scanned to tokens that denote it -/
theorem Writes.run {R : Rules} {rest u w : Text} (h : Writes R rest u w) {start : Int} {ts : List Token}
    (hts : Run R (start + u.length) rest ts) :
    ∃ us as, Run R start (u ++ rest) us ∧ us.flatMap Token.atoms = as ++ ts.flatMap Token.atoms ∧ Solid as w := by
  induction h generalizing start with
  | nil => exact ⟨ts, [], by simpa using hts, rfl, by simp, rfl, rfl⟩
  | @plain c u w hplain hc _ ih =>
    rw [offset_cons] at hts
    obtain ⟨us, as, hrun, hatoms, hsolid, hcalls, htext⟩ := ih hts
    refine ⟨Token.cons c start us, .char c :: as, .plain hplain hrun, ?_, ?_, hcalls, ?_⟩
    · rw [Token.cons_atoms, hatoms, List.cons_append]
    · exact List.forall_mem_cons.2 ⟨hc, hsolid⟩
    · rw [fill, htext]
  | @escape r u w c htoken _ ih =>
    rw [List.length_append, Int.natCast_add, ← Int.add_assoc] at hts
    obtain ⟨us, as, hrun, hatoms, hsolid, hcalls, htext⟩ := ih hts
    have htok : R.token start ((Token.escape r [c] start).raw ++ (u ++ rest)) (.escape r [c] start) := htoken start
    refine ⟨.escape r [c] start :: us, .escape r [c] start :: as, ?_, ?_, ?_, hcalls, ?_⟩
    · rw [List.append_assoc]
      exact .token htok hrun
    · rw [List.flatMap_cons, hatoms]
      rfl
    · exact List.forall_mem_cons.2 ⟨rfl, hsolid⟩
    · rw [fill, htext]
      rfl

/-- rules for which a blank is always text -/
def Rules.Blanks (R : Rules) : Prop := ∀ {c rest}, c.isSpace = true → R.plain (c :: rest)

theorem run_blanks {R : Rules} (hR : R.Blanks) {g rest : Text} (hg : ∀ c ∈ g, c.isSpace = true) {start : Int}
    {ts : List Token} (hts : Run R (start + g.length) rest ts) :
    ∃ us, Run R start (g ++ rest) us ∧ us.flatMap Token.atoms = g.map .char ++ ts.flatMap Token.atoms := by
  induction g generalizing start with
  | nil => exact ⟨ts, by simpa using hts, rfl⟩
  | cons c g ih =>
    obtain ⟨hc, hg⟩ := List.forall_mem_cons.1 hg
    rw [offset_cons] at hts
    obtain ⟨us, hrun, hatoms⟩ := ih hg hts
    refine ⟨Token.cons c start us, .plain (hR hc) hrun, ?_⟩
    rw [Token.cons_atoms, hatoms]
    rfl

/-- tokens without interpolations, whose runs denote these words -/
structure Reads (ts : List Token) (ws : List Text) : Prop where
  calls : interpolations ts = []
  words : (maximalRuns Atom.isBlank (ts.flatMap Token.atoms)).map (fill []) = ws

/-- a way to write words before anything but an opening brace -/
def Rules.Spelling (R : Rules) (spell : Text → Text) : Prop :=
  ∀ w rest, rest.head? ≠ some .braceOpen → Writes R rest (spell w) w

/-- words that are written one behind the other, each with its blanks, are read back -/
theorem run_of_parts {R : Rules} (hsound : R.Sound) (hblanks : R.Blanks) {spell : Text → Text}
    (hspell : R.Spelling spell) {ps : List (Text × Text)} {lead : Text} (h : Spaced.Proper ⟨lead, ps⟩)
    (hne : ∀ p ∈ ps, p.1 ≠ []) (start : Int) :
    ∃ ts, Run R start (ps.flatMap fun p => spell p.1 ++ p.2) ts ∧ Reads ts (ps.map Prod.fst) := by
  induction ps generalizing lead start with
  | nil => exact ⟨[], .done start, rfl, by simp⟩
  | cons p ps ih =>
    obtain ⟨w, g⟩ := p
    obtain ⟨hbehind, hlast⟩ := h.behind
    obtain ⟨hw, hrest⟩ := List.forall_mem_cons.1 hne
    have hg : ∀ c ∈ g, c.isSpace = true := hbehind.lead
    have hnext : (g ++ ps.flatMap fun p => spell p.1 ++ p.2).head? ≠ some .braceOpen := by
      cases g with
      | nil => simp [hlast rfl]
      | cons c g =>
        intro hbrace
        obtain rfl : c = .braceOpen := by simpa using hbrace
        exact absurd (hg .braceOpen List.mem_cons_self) (by decide)
    obtain ⟨ts, hts, hcalls, hwords⟩ := ih hbehind hrest (start + (spell w).length + g.length)
    obtain ⟨us, hus, hblank⟩ := run_blanks hblanks hg hts
    obtain ⟨vs, as, hvs, hatoms, hsolid, hsilent, htext⟩ := (hspell w _ hnext).run hus
    have has : as ≠ [] := by
      rintro rfl
      exact hw htext.symm
    have hend : g.map Atom.char = [] → ts.flatMap Token.atoms = [] := by
      intro hnil
      obtain rfl := hlast (List.map_eq_nil_iff.1 hnil)
      rw [hts.tokens_nil hsound]
      rfl
    refine ⟨vs, ?_, ?_, ?_⟩
    · rw [List.flatMap_cons, List.append_assoc]
      exact hvs
    · rw [interpolations, hatoms, hblank, calls_append, calls_append, calls_map_char, hsilent]
      exact hcalls
    · rw [hatoms, hblank, maximalRuns_run has hsolid (isBlank_map_char hg) hend, List.map_cons, htext, hwords]
      rfl

/-- **Written words are read back**, whatever blanks stand around them. -/
theorem run_of_spaced {R : Rules} (hsound : R.Sound) (hblanks : R.Blanks) {spell : Text → Text}
    (hspell : R.Spelling spell) {k : Spaced Text} (h : k.Proper) (hne : ∀ w ∈ k.items, w ≠ []) :
    ∃ ts, Run R 0 (k.map spell).text ts ∧ Reads ts k.items := by
  obtain ⟨lead, ps⟩ := k
  have hparts : ∀ p ∈ ps, p.1 ≠ [] := fun p hp => hne p.1 (List.mem_map_of_mem hp)
  obtain ⟨ts, hts, hcalls, hwords⟩ := run_of_parts hsound hblanks hspell h hparts (0 + lead.length)
  obtain ⟨us, hus, hatoms⟩ := run_blanks hblanks h.lead hts
  refine ⟨us, ?_, ?_, ?_⟩
  · rw [Spaced.text, Spaced.map, List.flatMap_map]
    exact hus
  · rw [interpolations, hatoms, calls_append, calls_map_char]
    exact hcalls
  · rw [hatoms, maximalRuns_blanks (isBlank_map_char h.lead), hwords]
    rfl

/-! ## The two spellings -/

theorem wordRules_blanks : wordRules.Blanks := by
  rintro c rest hc d rest' heq
  obtain ⟨rfl, _⟩ := List.cons.inj heq
  exact absurd hc (by decide)

theorem wordRules_spelling : wordRules.Spelling rawSpelling := by
  intro w rest _
  induction w with
  | nil => exact .nil
  | cons c w ih =>
    cases hc : (decide (c = .backslash) || c.isSpace) with
    | true =>
      rw [rawSpelling, Text.guarded_cons_of_pos hc]
      exact .escape (r := [.backslash, c]) (fun start => .escape hc) ih
    | false =>
      obtain ⟨hslash, hspace⟩ : c ≠ .backslash ∧ c.isSpace = false := by simpa using hc
      rw [rawSpelling, Text.guarded_cons_of_neg hc]
      refine .plain ?_ hspace ih
      intro d behind heq
      exact absurd (List.cons.inj heq).1 hslash

theorem expandingRules_blanks (names : CharNames) : (expandingRules names).Blanks := by
  intro c rest hc
  refine plain_iff.2 ⟨?_, ?_⟩
  · rintro rfl
    exact absurd hc (by decide)
  · rintro ⟨rfl, _⟩
    exact absurd hc (by decide)

/-- guarding puts nothing but a backslash in front, so it makes no opening brace -/
theorem guarded_head {kind : CodePoint → Bool} {t rest : Text} (hrest : rest.head? ≠ some .braceOpen)
    (h : (Text.guarded kind t ++ rest).head? = some .braceOpen) : t.head? = some .braceOpen := by
  cases t with
  | nil => exact absurd h hrest
  | cons c t =>
    cases hc : kind c with
    | true =>
      rw [Text.guarded_cons_of_pos hc] at h
      have hslash : CodePoint.backslash = .braceOpen := Option.some.inj h
      exact absurd hslash (by decide)
    | false =>
      rw [Text.guarded_cons_of_neg hc] at h
      exact h

theorem hexDigit_not_space (n : Nat) : (CodePoint.hexDigit n).isSpace = false := by
  have digits : ∀ d < 16, (CodePoint.hexDigit d).isSpace = false := by decide
  have hmod : CodePoint.hexDigit n = CodePoint.hexDigit (n % 16) := by simp [CodePoint.hexDigit]
  rw [hmod]
  exact digits _ (Nat.mod_lt n (by decide))

theorem expandingRules_spelling (names : CharNames) : (expandingRules names).Spelling spelling := by
  intro w rest hrest
  induction w with
  | nil => exact .nil
  | cons c w ih =>
    -- an escape that encoding writes holds no blank, so it stays as it is
    have escaped : ∀ body, Escape.encodedChar c w = .backslash :: body → (∀ d ∈ body, d.isSpace = false) →
        (∀ r, Escape.read names (body ++ r) = .ok ⟨body, [c]⟩) →
        Writes (expandingRules names) rest (spelling (c :: w)) (c :: w) := by
      intro body hbody hsolid hread
      have hblanks : ∀ d ∈ CodePoint.backslash :: body, d.isSpace = false :=
        List.forall_mem_cons.2 ⟨by decide, hsolid⟩
      rw [spelling, Escape.encode, hbody, Text.guarded_append, Text.guarded_eq_self hblanks]
      exact .escape (fun start => .escape (hread _)) ih
    rcases Escape.encodedChar_cases c w with ⟨l, hl, he⟩ | ⟨rfl, he⟩ | ⟨hc, he⟩ | ⟨hne, hopen, he⟩
    · have hspace := (Escape.letterValue?_lead hl).2.1
      exact escaped [l] he (by simpa using hspace) (Escape.read_letter names hl)
    · exact escaped [.hash] he (by decide) (Escape.read_itself names (Or.inl rfl))
    · have hx : (CodePoint.ofChar 'x').isSpace = false := by decide
      refine escaped _ he ?_ (Escape.read_hex_two names hc)
      simp [Escape.hex_two, hx, hexDigit_not_space]
    · rw [spelling, Escape.encode, he, List.singleton_append]
      cases hspace : c.isSpace with
      | true =>
        rw [Text.guarded_cons_of_pos hspace]
        exact .escape (r := [.backslash, c]) (fun start => .escape (Escape.read_itself names (Or.inr hspace) _)) ih
      | false =>
        rw [Text.guarded_cons_of_neg hspace]
        refine .plain (plain_iff.2 ⟨hne, ?_⟩) hspace ih
        rintro ⟨hhash, hbrace⟩
        exact hopen ⟨hhash, Escape.encode_head (guarded_head hrest hbrace)⟩

end Scan

open Render

/-- the words of a template whose tokens read them -/
theorem run_render_reads {σ : Type} {names : CharNames} {tracing : Tracing} {ev : Option (Evaluator σ)} {mode : Mode}
    {t : Text} {ts : List Token} {ws : List Text} (hmode : mode.splits = true) (h : scan names mode t = .ok ts)
    (hreads : Scan.Reads ts ws) (hne : ∀ w ∈ ws, w ≠ []) (state : σ) :
    (run (render names tracing ev mode t) state).1 = .ok (.words ws) := by
  have hall : ws.filter (· ≠ []) = ws := List.filter_eq_self.2 fun w hw => by simpa using hne w hw
  rw [run_render_silent h hreads.calls, finish_words hmode, hreads.words, hall]

/-- **Every list of words can be written.** Take any words that are not empty, and any blanks around them, with some
between neighbours. Written for raw words, they are what the text is rendered to in raw words, with any evaluator or
none; written for the expanding modes, they are what it is rendered to in words without an evaluator. -/
theorem words_of_spelling (names : CharNames) (k : Spaced Text) (hproper : k.Proper) (hne : ∀ w ∈ k.items, w ≠ [])
    (σ : Type) (tracing : Tracing) (state : σ) :
    (∀ ev, (run (render names tracing ev .rawWords (k.map rawSpelling).text) state).1 = .ok (.words k.items)) ∧
      (run (render names tracing none .interpolatedWords (k.map spelling).text) state).1 = .ok (.words k.items) := by
  constructor
  · intro ev
    obtain ⟨ts, hrun, hreads⟩ :=
      Scan.run_of_spaced Scan.wordRules_sound Scan.wordRules_blanks Scan.wordRules_spelling hproper hne
    have hscan : scan names .rawWords (k.map rawSpelling).text = .ok ts :=
      congrArg Except.ok (Scan.words_iff_run.2 hrun)
    exact run_render_reads rfl hscan hreads hne state
  · obtain ⟨ts, hrun, hreads⟩ := Scan.run_of_spaced (Scan.expandingRules_sound names)
      (Scan.expandingRules_blanks names) (Scan.expandingRules_spelling names) hproper hne
    have hscan : scan names .interpolatedWords (k.map spelling).text = .ok ts := Scan.expanding_iff_run.2 hrun
    exact run_render_reads rfl hscan hreads hne state

/-- three words: a blank in the first, a number sign at the end of the second, an opening brace and a line break in the
third; no blank stands at the end -/
theorem words_of_spelling_hard :
    Spaced.Proper ⟨text " ", [(text "a b", text " "), (text "\\#", text "\t"), (text "\x7b\n", [])]⟩ ∧
      (∀ w ∈ [text "a b", text "\\#", text "\x7b\n"], w ≠ []) ∧
      (run (render .none {} none .rawWords (text " a\\ b \\\\#\t\x7b\\\n")) ()).1 =
        .ok (.words [text "a b", text "\\#", text "\x7b\n"]) ∧
      (run (render .none {} none .interpolatedWords (text " a\\ b \\\\#\t\x7b\\n")) ()).1 =
        .ok (.words [text "a b", text "\\#", text "\x7b\n"]) := by
  have hproper : Spaced.Proper
      ⟨text " ", [(text "a b", text " "), (text "\\#", text "\t"), (text "\x7b\n", [])]⟩ :=
    ⟨by decide, by decide, by decide⟩
  have hne : ∀ w ∈ [text "a b", text "\\#", text "\x7b\n"], w ≠ [] := by decide
  obtain ⟨hraw, hexpanded⟩ := words_of_spelling .none _ hproper hne Unit {} ()
  exact ⟨hproper, hne, hraw none, hexpanded⟩

end PercentLiteral

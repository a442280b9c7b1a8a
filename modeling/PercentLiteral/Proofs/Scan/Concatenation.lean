/-
Texts one behind the other.

A scanner does not look back, and ahead it looks by one code point. So it scans a text behind another as it scans it
alone, unless that one code point is read together with the end of the first text: `Token.Clings` says when. The tokens
of both texts are then those of the first and those of the second, moved, and two literals that meet are one
(`Token.meld`).

- `Run.shift`: a run does not depend on the offset from which it counts;
- `Run.append`: two runs make one over both texts (`Rules.Local` is what this needs of the rules);
- `expanding_append_error`: an error in the second text is the error of both.

`scan_append`: hence in every mode the scan of both texts is made of the scans of each.
-/
import PercentLiteral.Proofs.Scan.Leftmost

namespace PercentLiteral

/-! ## Tokens of two texts -/

namespace Token

/-- the token behind so many more code points -/
def shift (n : Int) : Token → Token
  | literal t s => literal t (s + n)
  | escape r v s => escape r v (s + n)
  | interpolation e s => interpolation e (s + n)

/-- the tokens of a text and those of the text behind it; a literal at the end and one at the start become one -/
def meld : List Token → List Token → List Token
  | [], us => us
  | [literal s p], literal u _ :: us => literal (s ++ u) p :: us
  | tok :: ts, us => tok :: meld ts us

/-- whether the end of a last token and the code point behind it are read together: in the expanding modes a number sign
before a brace, an octal number of one or two digits before a digit, and \SO before an H; in raw words a backslash that
is text before a backslash or a blank; and in a raw text nothing -/
def Clings (mode : Mode) (tok : Token) (next : Option CodePoint) : Prop :=
  match tok with
  | literal s _ =>
    (mode.expands ∧ s.getLast? = some .hash ∧ next = some .braceOpen) ∨
      (mode = .rawWords ∧ s.getLast? = some .backslash ∧ ∃ c ∈ next, c = .backslash ∨ c.isSpace)
  | escape raw _ _ => mode.expands ∧ Escape.Prolongs (raw.drop 1) next
  | interpolation _ _ => False

instance (mode : Mode) (tok : Token) (next : Option CodePoint) : Decidable (tok.Clings mode next) :=
  match tok with
  | literal _ _ => inferInstanceAs (Decidable (_ ∨ _))
  | escape _ _ _ => inferInstanceAs (Decidable (_ ∧ _))
  | interpolation _ _ => inferInstanceAs (Decidable False)

end Token

/-- the error behind so many more code points -/
def TemplateError.shift (n : Int) (e : TemplateError) : TemplateError := { e with offset := e.offset + n }

/-- an error of reading behind so many more code points; a failure is nowhere in the text -/
def ReadError.shift (n : Int) : ReadError → ReadError
  | template e => template (e.shift n)
  | failure f => failure f

namespace Scan

theorem meld_token {tok : Token} (h : ∀ s p, tok ≠ .literal s p) (ts us : List Token) :
    Token.meld (tok :: ts) us = tok :: Token.meld ts us := by
  cases tok with
  | literal s p => exact absurd rfl (h s p)
  | escape r v p => rfl
  | interpolation e p => rfl

theorem not_clings_none (mode : Mode) (tok : Token) : ¬ tok.Clings mode none := by
  cases tok with
  | literal s p => simp [Token.Clings]
  | escape r v p => exact fun h => Escape.not_prolongs_none _ h.2
  | interpolation e p => exact id

/-- only the last code point of a literal matters to what follows it -/
theorem clings_prolong {mode : Mode} {c : CodePoint} {s : Text} {start p : Int} {next : Option CodePoint} (hne : s ≠ [])
    (h : (Token.literal s p).Clings mode next) : (Token.literal (c :: s) start).Clings mode next := by
  have hlast : (c :: s).getLast? = s.getLast? := List.getLast?_cons_of_ne_nil hne
  simpa only [Token.Clings, hlast] using h

/-- a code point before the first tokens is one before all tokens -/
theorem meld_cons (c : CodePoint) (start : Int) (ts us : List Token) :
    Token.meld (Token.cons c start ts) us = Token.cons c start (Token.meld ts us) := by
  rcases ts with _ | ⟨tok, _ | ⟨tok', ts⟩⟩
  · rcases us with _ | ⟨_ | _ | _, us⟩ <;> rfl
  · rcases tok with _ | _ | _ <;> rcases us with _ | ⟨_ | _ | _, us⟩ <;> rfl
  · cases tok <;> rfl

theorem shift_cons (n : Int) (c : CodePoint) (start : Int) (ts : List Token) :
    (Token.cons c start ts).map (Token.shift n) = Token.cons c (start + n) (ts.map (Token.shift n)) := by
  rcases ts with _ | ⟨_ | _ | _, ts⟩ <;> rfl

theorem raw_shift (n : Int) (tok : Token) : (tok.shift n).raw = tok.raw := by
  cases tok <;> rfl

/-! ## Runs over two texts -/

/-- rules that count offsets without heeding them -/
def Rules.Movable (R : Rules) : Prop :=
  ∀ {start t tok}, R.token start t tok → ∀ n, R.token (start + n) t (tok.shift n)

/-- a run from an offset is one from any other, with its tokens moved -/
theorem Run.shift {R : Rules} (hR : R.Movable) {start : Int} {t : Text} {ts : List Token} (h : Run R start t ts)
    (n : Int) : Run R (start + n) t (ts.map (Token.shift n)) := by
  induction h with
  | done start => exact .done (start + n)
  | @token start tok rest ts htok _ ih =>
    have hmoved := hR htok n
    have hoffset : start + tok.raw.length + n = start + n + (tok.shift n).raw.length := by
      rw [raw_shift]
      omega
    rw [hoffset] at ih
    rw [← raw_shift n tok] at hmoved ⊢
    exact .token hmoved ih
  | @plain start c rest ts hplain _ ih =>
    have hoffset : start + 1 + n = start + n + 1 := by omega
    rw [hoffset] at ih
    rw [shift_cons]
    exact .plain hplain ih

/-- rules of a mode that look ahead by one code point, and only where a last token clings to it -/
structure Rules.Local (R : Rules) (mode : Mode) : Prop where
  token : ∀ {start tok p q}, R.token start (tok.raw ++ p) tok → (p = [] → ¬ tok.Clings mode q.head?) →
    R.token start (tok.raw ++ (p ++ q)) tok
  plain : ∀ {start c p q}, R.plain (c :: p) → (p = [] → ¬ (Token.literal [c] start).Clings mode q.head?) →
    R.plain (c :: (p ++ q))

/-- **Runs one behind the other.** If the last token of a run does not cling to the text behind it, a run over that text
goes on with it. -/
theorem Run.append {R : Rules} (hR : R.Sound) {mode : Mode} (hlocal : R.Local mode)
    {start : Int} {a b : Text} {ts us : List Token} (h : Run R start a ts) (hb : Run R (start + a.length) b us)
    (hseam : ∀ tok ∈ ts.getLast?, ¬ tok.Clings mode b.head?) : Run R start (a ++ b) (Token.meld ts us) := by
  induction h with
  | done start => simpa [Token.meld] using hb
  | @token start tok rest ts htok hrun ih =>
    have hrest : ∀ tok ∈ ts.getLast?, ¬ tok.Clings mode b.head? :=
      fun last hlast => hseam last (List.mem_getLast?_cons hlast)
    have hlast : rest = [] → ¬ tok.Clings mode b.head? := by
      rintro rfl
      obtain rfl := hrun.tokens_nil hR
      exact hseam tok rfl
    rw [List.length_append, Int.natCast_add, ← Int.add_assoc] at hb
    rw [meld_token (hR.not_literal htok), List.append_assoc]
    exact .token (hlocal.token htok hlast) (ih hb hrest)
  | @plain start c rest ts hplain hrun ih =>
    have hrest : ∀ tok ∈ ts.getLast?, ¬ tok.Clings mode b.head? := by
      intro last hlast hclings
      obtain ⟨s, p, ts', rfl, he⟩ | ⟨_, he⟩ := cons_cases c start ts
      · rw [he] at hseam
        cases ts' with
        | nil =>
          cases hlast
          have hne : s ≠ [] := (hrun.tiles hR).filled (.literal s p) List.mem_cons_self
          exact hseam _ rfl (clings_prolong hne hclings)
        | cons next ts' =>
          rw [List.getLast?_cons_cons] at hseam hlast
          exact hseam last hlast hclings
      · rw [he] at hseam
        exact hseam last (List.mem_getLast?_cons hlast) hclings
    have hlast : rest = [] → ¬ (Token.literal [c] start).Clings mode b.head? := by
      rintro rfl
      obtain rfl := hrun.tokens_nil hR
      exact hseam _ rfl
    rw [offset_cons] at hb
    rw [meld_cons]
    exact .plain (hlocal.plain hplain hlast) (ih hb hrest)

/-! ## The expanding modes -/

theorem expandingRules_movable (names : CharNames) : (expandingRules names).Movable := by
  intro start t tok h n
  cases h with
  | escape h => exact .escape h
  | interpolation h => exact .interpolation h

theorem Fails.shift {names : CharNames} {start : Int} {t : Text} {e : ReadError} (h : Fails names start t e)
    (n : Int) : Fails names (start + n) t (e.shift n) := by
  cases h with
  | @escape rest r h =>
    have hmoved : (r.toError .backslash start).shift n = r.toError .backslash (start + n) := by
      obtain ⟨body, _ | _ | _ | _ | _ | _ | _ | _⟩ := r <;> rfl
    rw [hmoved]
    exact .escape h
  | interpolation h => exact .interpolation h

theorem expandingRules_local (names : CharNames) {mode : Mode} (hmode : mode.expands = true) :
    (expandingRules names).Local mode := by
  constructor
  · intro start tok p q htok hlast
    refine Expands.append htok fun hp hprolonged => hlast hp ?_
    cases tok with
    | literal s p => exact hprolonged.elim
    | escape r v p => exact ⟨hmode, hprolonged⟩
    | interpolation e p => exact hprolonged
  · intro start c p q hplain hlast
    refine plain_append hplain fun hp hopens => hlast hp ?_
    exact Or.inl ⟨hmode, congrArg some hopens.1, hopens.2⟩

/-- the tokens of a text behind another are moved, and go on from those of the other -/
theorem expanding_append {names : CharNames} {mode : Mode} (hmode : mode.expands = true) {a b : Text}
    {ts us : List Token} (ha : Run (expandingRules names) 0 a ts) (hb : Run (expandingRules names) 0 b us)
    (hseam : ∀ tok ∈ ts.getLast?, ¬ tok.Clings mode b.head?) :
    Run (expandingRules names) 0 (a ++ b) (Token.meld ts (us.map (Token.shift a.length))) :=
  ha.append (expandingRules_sound names) (expandingRules_local names hmode)
    (hb.shift (expandingRules_movable names) a.length) hseam

/-- an error in a text is the error of both where another text is put before it -/
theorem expanding_append_error {names : CharNames} {mode : Mode} (hmode : mode.expands = true) {a b : Text}
    {ts : List Token} {e : ReadError} (ha : Run (expandingRules names) 0 a ts)
    (hb : expanding names 0 b = .error e) (hseam : ∀ tok ∈ ts.getLast?, ¬ tok.Clings mode b.head?) :
    expanding names 0 (a ++ b) = .error (e.shift a.length) := by
  -- what is refused in the second text has a run before it, which goes on from that of the first text
  obtain ⟨p, q, us, rfl, hrun, hfails⟩ := run_of_error hb
  have hshort : ∀ tok ∈ ts.getLast?, ¬ tok.Clings mode p.head? := by
    intro tok htok
    cases p with
    | nil => exact not_clings_none mode tok
    | cons c p => exact hseam tok htok
  have hboth := expanding_append hmode ha hrun hshort
  have hmoved := hfails.shift a.length
  have hoffset : (0 : Int) + p.length + a.length = 0 + (a ++ p).length := by
    rw [List.length_append]
    omega
  rw [hoffset] at hmoved
  rw [← List.append_assoc]
  exact error_of_run hboth hmoved

/-! ## Raw words -/

theorem wordRules_movable : wordRules.Movable := by
  rintro start t tok ⟨h⟩ n
  exact .escape h

theorem wordRules_local : wordRules.Local .rawWords := by
  constructor
  · intro start tok p q htok _
    generalize ht : tok.raw ++ p = t at htok
    cases htok with
    | @escape d rest hd => exact .escape hd
  · intro start c p q hplain hlast d rest ht
    cases p with
    | nil =>
      obtain ⟨rfl, rfl⟩ := List.cons.inj ht
      by_contra hescape
      have hd : d = .backslash ∨ d.isSpace := by
        simpa only [isWordEscape, Bool.not_eq_false, Bool.or_eq_true, decide_eq_true_eq] using hescape
      exact hlast rfl (Or.inr ⟨rfl, rfl, d, rfl, hd⟩)
    | cons d' p =>
      obtain ⟨rfl, hbehind⟩ := List.cons.inj ht
      obtain ⟨rfl, _⟩ := List.cons.inj hbehind
      exact hplain d' p rfl

end Scan

/-- **Scanning goes on from text to text.** In every mode, if a text has tokens and the last of them does not cling to
the text behind it, then both together have the tokens of the first and the tokens of the second, each moved by the
length of the first, with two literals that meet made one; and if the second has an error, both together have that error,
moved by the same length. -/
theorem scan_append (names : CharNames) (mode : Mode) (a b : Text) (ts : List Token) (h : scan names mode a = .ok ts)
    (hseam : ∀ tok ∈ ts.getLast?, ¬ tok.Clings mode b.head?) :
    (∀ us, scan names mode b = .ok us →
        scan names mode (a ++ b) = .ok (Token.meld ts (us.map (Token.shift a.length)))) ∧
      ∀ e, scan names mode b = .error e → scan names mode (a ++ b) = .error (e.shift a.length) := by
  by_cases hexpands : mode.expands = true
  · simp only [Scan.scan_of_expands hexpands, Scan.expanding_iff_run] at h ⊢
    constructor
    · intro us hb
      exact Scan.expanding_append hexpands h hb hseam
    · intro e hb
      exact Scan.expanding_append_error hexpands h hb hseam
  · cases mode with
    | raw =>
      cases h
      refine ⟨?_, fun e he => by cases he⟩
      intro us hb
      cases hb
      by_cases ha : a = [] <;> by_cases hb : b = [] <;> simp [scan, ha, hb, Token.meld, Token.shift]
    | rawWords =>
      cases h
      refine ⟨?_, fun e he => by cases he⟩
      intro us hb
      cases hb
      have hmoved := (Scan.words_run 0 b).shift Scan.wordRules_movable a.length
      have hboth := (Scan.words_run 0 a).append Scan.wordRules_sound Scan.wordRules_local hmoved hseam
      exact congrArg Except.ok (Scan.words_iff_run.2 hboth)
    | interpolated => exact absurd rfl hexpands
    | interpolatedWords => exact absurd rfl hexpands

/-- a number sign before a brace that does not open: the literals become one, and tokens and errors are moved -/
theorem scan_append_closing :
    scan .none .interpolated (text "\\7#") = .ok [.escape (text "\\7") [⟨7, by decide⟩] 0, .literal (text "#") 2] ∧
      ¬ Token.Clings .interpolated (.literal (text "#") 2) (some .braceClose) ∧
      scan .none .interpolated (text "\\7#" ++ text "\x7d#{x}") =
        .ok [.escape (text "\\7") [⟨7, by decide⟩] 0, .literal (text "#\x7d") 2, .interpolation (text "x") 4] ∧
      scan .none .interpolated (text "\\7#" ++ text "\x7d\\x1") =
        .error (.template ⟨.invalidEscape (some (text "expected 2 hex digits")), text "\\x1", 4⟩) := by
  have ha : scan .none .interpolated (text "\\7#") =
      .ok [.escape (text "\\7") [⟨7, by decide⟩] 0, .literal (text "#") 2] := by cbv
  have hb : scan .none .interpolated (text "\x7d#{x}") =
      .ok [.literal (text "\x7d") 0, .interpolation (text "x") 1] := by cbv
  have herror : scan .none .interpolated (text "\x7d\\x1") =
      .error (.template ⟨.invalidEscape (some (text "expected 2 hex digits")), text "\\x1", 1⟩) := by cbv
  exact ⟨ha, by decide, (scan_append .none .interpolated _ (text "\x7d#{x}") _ ha (by decide)).1 _ hb,
    (scan_append .none .interpolated _ (text "\x7d\\x1") _ ha (by decide)).2 _ herror⟩

end PercentLiteral

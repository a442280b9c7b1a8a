/-
Lines and columns.

The lines of a text are its parts between line feeds, and `Text.lineStart` is where a line begins. `Text.Marks` says that
a line and a column mark an offset: as many line feeds stand before it as lines before its own, and the column counts
from where its line begins, up to the end of the line.

- `Text.marks_after`: the line and the column behind some text mark its length, by induction on the text;
- `Text.Marks.lt`: greater offsets have greater marks, line before column;
- `atMark_of_scan_error`, `atMark_of_render_error`: the errors of scanning and of evaluating point at a backslash or a
  number sign.

`location_faithful`: so the place of an offset is faithful, and that of an error shows its mark.
-/
import PercentLiteral.Proofs.Render.Calls
import PercentLiteral.Proofs.Scan.Leftmost
import PercentLiteral.Proofs.Scan.Sublanguage

namespace PercentLiteral

/-! ## Lines -/

namespace Text

/-- the lines of a text, without the line feeds that end them -/
def lines (t : Text) : List Text := t.splitOn .newline

/-- the offset at which a line begins, behind the lines before it and their line feeds; lines are counted from zero -/
def lineStart (t : Text) (n : Nat) : Nat := ((t.lines.take n).flatMap fun l => l ++ [.newline]).length

/-- the code point at a line and a column, both counted from one -/
def charAt? (t : Text) (line column : Nat) : Option CodePoint := t.lines[line - 1]?.bind fun l => l[column - 1]?

/-- a line and a column, both counted from one, that mark an offset of a text -/
structure Marks (t : Text) (line column o : Nat) : Prop where
  line_pos : 1 ≤ line
  column_pos : 1 ≤ column
  newlines : line - 1 = (t.take o).count .newline
  offset : o = t.lineStart (line - 1) + (column - 1)
  inside : ∃ l, t.lines[line - 1]? = some l ∧ column ≤ l.length + 1
  char : ∀ c, t[o]? = some c → c ≠ .newline → t.charAt? line column = some c

theorem exists_lines_eq_cons (t : Text) : ∃ l ls, t.lines = l :: ls := by
  apply List.exists_cons_of_ne_nil
  exact List.splitOn_ne_nil CodePoint.newline t

/-- a line feed in front makes an empty first line -/
theorem lines_newline (t : Text) : lines (.newline :: t) = [] :: t.lines := by
  simp [lines, List.splitOn_cons_eq_if_modifyHead]

/-- any other code point in front prolongs the first line -/
theorem lines_other {c : CodePoint} (hc : c ≠ .newline) (t : Text) : lines (c :: t) = t.lines.modifyHead (c :: ·) := by
  simp [lines, List.splitOn_cons_eq_if_modifyHead, hc]

@[simp] theorem lineStart_zero (t : Text) : t.lineStart 0 = 0 := rfl

theorem lineStart_newline (t : Text) (n : Nat) : lineStart (.newline :: t) (n + 1) = t.lineStart n + 1 := by
  rw [lineStart, lines_newline, lineStart, List.take_succ_cons, List.flatMap_cons, List.nil_append,
    List.singleton_append, List.length_cons]

theorem lineStart_other {c : CodePoint} (hc : c ≠ .newline) (t : Text) (n : Nat) :
    lineStart (c :: t) (n + 1) = t.lineStart (n + 1) + 1 := by
  obtain ⟨l, ls, hlines⟩ := exists_lines_eq_cons t
  rw [lineStart, lines_other hc, lineStart, hlines]
  rw [List.modifyHead_cons, List.take_succ_cons, List.take_succ_cons, List.flatMap_cons, List.flatMap_cons,
    List.cons_append, List.cons_append, List.length_cons]

/-! ## Marks -/

/-- how many code points stand behind the last line feed -/
def trailing (t : Text) : Nat := (t.reverse.takeWhile (· ≠ .newline)).length

theorem trailing_newline (t : Text) : trailing (.newline :: t) = t.trailing := by
  rw [trailing, trailing, List.reverse_cons, List.takeWhile_append]
  split <;> simp_all

/-- in front of the last line feed, nothing changes what is behind it -/
theorem trailing_other {c : CodePoint} (hc : c ≠ .newline) (t : Text) :
    trailing (c :: t) = if t.count .newline = 0 then t.trailing + 1 else t.trailing := by
  have hwhole : (t.reverse.takeWhile (· ≠ .newline)).length = t.reverse.length ↔ t.count .newline = 0 := by
    have hself : t.reverse.takeWhile (· ≠ .newline) = t.reverse ↔ .newline ∉ t := by
      rw [List.takeWhile_eq_self_iff]
      simp only [List.mem_reverse, decide_eq_true_eq]
      exact ⟨fun h hmem => h _ hmem rfl, fun h x hx heq => h (heq ▸ hx)⟩
    rw [List.count_eq_zero, ← hself]
    exact ⟨(List.takeWhile_prefix _).eq_of_length, congrArg List.length⟩
  rw [trailing, trailing, List.reverse_cons, List.takeWhile_append]
  simp only [hwhole]
  split
  · rename_i hnone
    rw [hwhole.2 hnone]
    simp [hc]
  · rfl

/-- an offset stands so many code points behind the start of a line, or at the line's end -/
structure Placed (t : Text) (o n k : Nat) (l : Text) : Prop where
  line : t.lines[n]? = some l
  offset : o = t.lineStart n + k
  inside : k ≤ l.length
  char : ∀ c, t[o]? = some c → c ≠ .newline → l[k]? = some c

/-- **Counting finds the place of an offset.** Its line has as many line feeds before it as the text up to the offset, and
what stands behind the last of them stands in the line up to the offset. -/
theorem exists_placed {t : Text} {o : Nat} (ho : o ≤ t.length) :
    ∃ l, Placed t o ((t.take o).count .newline) (trailing (t.take o)) l := by
  induction t generalizing o with
  | nil =>
    obtain rfl : o = 0 := by simpa using ho
    exact ⟨[], rfl, rfl, Nat.le_refl 0, by simp⟩
  | cons c t ih =>
    cases o with
    | zero =>
      by_cases hc : c = .newline
      · subst hc
        refine ⟨[], by simp [lines_newline], rfl, Nat.le_refl 0, ?_⟩
        intro d hd hne
        cases hd
        exact absurd rfl hne
      · obtain ⟨l, ls, hlines⟩ := exists_lines_eq_cons t
        refine ⟨c :: l, by simp [lines_other hc, hlines], rfl, Nat.zero_le _, ?_⟩
        intro d hd _
        simpa [trailing] using hd
    | succ o =>
      obtain ⟨l, hline, hoffset, hinside, hchar⟩ := ih (Nat.le_of_succ_le_succ ho)
      rw [List.take_succ_cons]
      by_cases hc : c = .newline
      · subst hc
        refine ⟨l, ?_, ?_, ?_, ?_⟩
        · simpa [lines_newline] using hline
        · rw [List.count_cons_self, lineStart_newline, trailing_newline]
          omega
        · rwa [trailing_newline]
        · rwa [trailing_newline]
      · rw [List.count_cons_of_ne hc, trailing_other hc]
        cases hcount : (t.take o).count .newline with
        | zero =>
          -- the code point joins the first line
          rw [hcount] at hline hoffset
          rw [lineStart_zero] at hoffset
          obtain ⟨first, ls, hlines⟩ := exists_lines_eq_cons t
          obtain rfl : first = l := by simpa [hlines] using hline
          refine ⟨c :: first, by simp [lines_other hc, hlines], ?_, ?_, ?_⟩
          · rw [lineStart_zero, if_pos rfl]
            omega
          · simpa using hinside
          · simpa using hchar
        | succ n =>
          rw [hcount] at hline hoffset
          obtain ⟨_, ls, hlines⟩ := exists_lines_eq_cons t
          refine ⟨l, ?_, ?_, by simpa using hinside, by simpa using hchar⟩
          · simpa [lines_other hc, hlines] using hline
          · rw [if_neg (Nat.succ_ne_zero n), lineStart_other hc]
            omega

/-- the line and the column that are counted mark the offset -/
theorem marks_after {t : Text} {o : Nat} (ho : o ≤ t.length) :
    Marks t (Location.after (t.take o)).1 (Location.after (t.take o)).2 o := by
  obtain ⟨l, hline, hoffset, hinside, hchar⟩ := exists_placed ho
  refine ⟨Nat.le_add_left .., Nat.le_add_left .., rfl, hoffset, ⟨l, hline, Nat.succ_le_succ hinside⟩, ?_⟩
  intro c hc hne
  exact Option.bind_eq_some_iff.2 ⟨l, hline, hchar c hc hne⟩

/-- **Greater offsets have greater marks**: a later line, or the same line and a later column. -/
theorem Marks.lt {t : Text} {m c n d o p : Nat} (ho : Marks t m c o) (hp : Marks t n d p) (h : o < p) :
    m < n ∨ m = n ∧ c < d := by
  have hcount : (t.take o).count .newline ≤ (t.take p).count .newline :=
    (List.take_sublist_take_left (Nat.le_of_lt h)).count_le _
  have hm := ho.newlines
  have hn := hp.newlines
  have hline := ho.line_pos
  have hline' := hp.line_pos
  rcases Nat.lt_or_ge m n with hlt | hge
  · exact Or.inl hlt
  · obtain rfl : m = n := by omega
    have hoffset := ho.offset
    have hoffset' := hp.offset
    exact Or.inr ⟨rfl, by omega⟩

end Text

/-! ## Places of errors -/

open Render

section Errors

variable {σ : Type} {names : CharNames} {tracing : Tracing} {ev : Option (Evaluator σ)} {mode : Mode} {t : Text}
  {ts : List Token} {e : TemplateError} {state : σ}

/-- an error that points at a backslash or at a number sign of a text -/
def TemplateError.AtMark (e : TemplateError) (t : Text) : Prop :=
  ∃ (o : Nat) (c : CodePoint), e.offset = o ∧ t[o]? = some c ∧ (c = .backslash ∨ c = .hash)

theorem atMark_of_scan_error (h : scan names mode t = .error (.template e)) : e.AtMark t := by
  by_cases hmode : mode.expands = true
  · rw [Scan.scan_of_expands hmode] at h
    obtain ⟨p, q, ts, rfl, _, hfails⟩ := Scan.expanding_error_iff.1 h
    rw [Int.zero_add] at hfails
    obtain ⟨c, r, rfl, hc⟩ := hfails.mark
    exact ⟨p.length, c, hfails.pinpoints.offset, by simp, hc⟩
  · cases mode with
    | raw => cases h
    | rawWords => cases h
    | interpolated => exact absurd rfl hmode
    | interpolatedWords => exact absurd rfl hmode

/-- a template error of asking for interpolations points at one of them -/
theorem offset_of_ask_error {ev : Evaluator σ} {cs : List (Text × Int)}
    (h : (run (cs.mapM (ask (some ev))) state).1 = .error (.template e)) : ∃ x, (x, e.offset) ∈ cs := by
  obtain ⟨asked, out, st', hrun, hinquiry, _⟩ := ask_inquiry ev cs ⟨state, []⟩
  rw [run_eq_exec, hrun] at h
  obtain rfl : out = .error (.template e) := h
  generalize st'.state = s' at hinquiry
  cases hinquiry with
  | @stopped before behind x p rs s₁ stop hcs _ hstop =>
    have hoffset : e.offset = p := by
      cases hreply : (ev s₁ x).1 <;> rw [hreply] at hstop <;> cases hstop <;> rfl
    exact ⟨x, by rw [hcs, hoffset]; simp⟩

/-- once a template is scanned, its errors point at interpolations -/
theorem offset_of_render_error (hscan : scan names mode t = .ok ts)
    (h : (run (render names tracing ev mode t) state).1 = .error (.template e)) :
    ∃ x, (x, e.offset) ∈ interpolations ts := by
  by_cases hcalls : interpolations ts = []
  · rw [run_render_silent hscan hcalls] at h
    cases h
  · have hmode := expands_of_interpolations hscan hcalls
    cases ev with
    | none =>
      rw [run_eq_exec, exec_render_refused hscan hmode hcalls] at h
      cases h
    | some ev =>
      have hrender : (run (render names tracing (some ev) mode t) state).1 = _ ∧ _ :=
        run_render hscan (by simp) state
      rw [hrender.1] at h
      exact offset_of_ask_error (Scan.map_eq_error_iff.1 h)

theorem atMark_of_render_error (h : (run (render names tracing ev mode t) state).1 = .error (.template e)) :
    e.AtMark t := by
  cases hscan : scan names mode t with
  | error e' =>
    rw [run_eq_exec, exec_render_error hscan] at h
    cases e' with
    | failure f => cases h
    | template e' =>
      cases h
      exact atMark_of_scan_error hscan
  | ok ts =>
    obtain ⟨x, hx⟩ := offset_of_render_error hscan h
    have hmode := expands_of_interpolations hscan (List.ne_nil_of_mem hx)
    rw [Scan.scan_of_expands hmode] at hscan
    obtain ⟨hpos, hstands⟩ := interpolations_place hscan _ hx
    obtain ⟨rest, hrest⟩ := hstands
    refine ⟨e.offset.toNat, .hash, by omega, ?_, Or.inr rfl⟩
    have hhead : (t.drop e.offset.toNat).head? = some .hash := by rw [← hrest]; rfl
    rwa [List.head?_drop] at hhead

end Errors

/-- whether a place comes before another: on an earlier line, or earlier on its line -/
def Location.Precedes (a b : Location) : Prop :=
  ∃ m c n d : Int, a.line = some m ∧ a.column = some c ∧ b.line = some n ∧ b.column = some d ∧
    (m < n ∨ m = n ∧ c < d)

/-- offsets in the text are not moved -/
theorem Location.clamp_of_mem {t : Text} {o : Int} (hlow : 0 ≤ o) (hhigh : o ≤ t.length) :
    ((Location.clamp t o : Nat) : Int) = o := by
  rw [clamp]
  omega

theorem Location.clamp_le (t : Text) (o : Int) : clamp t o ≤ t.length := Nat.min_le_right ..

theorem Location.precedes_of_lt {t : Text} {a b : Int} (ha : 0 ≤ a) (hb : b ≤ t.length) (h : a < b)
    (path : Option Text) : (ofOffset t a path).Precedes (ofOffset t b path) := by
  have hca := clamp_of_mem ha (Int.le_trans (Int.le_of_lt h) hb)
  have hcb := clamp_of_mem (Int.le_trans ha (Int.le_of_lt h)) hb
  have hlt := (Text.marks_after (clamp_le t a)).lt (Text.marks_after (clamp_le t b)) (by omega)
  refine ⟨_, _, _, _, rfl, rfl, rfl, rfl, ?_⟩
  omega

theorem Location.not_precedes_self (a : Location) : ¬ a.Precedes a := by
  rintro ⟨m, c, n, d, hm, hc, hn, hd, h⟩
  obtain rfl : m = n := Option.some.inj (hm.symm.trans hn)
  obtain rfl : c = d := Option.some.inj (hc.symm.trans hd)
  omega

/-- **Places are faithful.** The place of an offset, moved into the text if it is outside, is a line and a column that
mark it: both count from one, the line has the line feeds before the offset, and the offset is where the line begins and
the columns before it, at most one behind the line's last. In the text, greater offsets have later places, so no two have
the same. An error of scanning or of evaluating a text has the place of a backslash or a number sign, which stands at its
offset. -/
theorem location_faithful (t : Text) (path : Option Text) :
    (∀ offset : Int, ∃ o line column : Nat,
        (o : Int) = max 0 (min offset t.length) ∧
        Location.ofOffset t offset path = ⟨path, some line, some column⟩ ∧ t.Marks line column o) ∧
      (∀ a b : Int, 0 ≤ a → b ≤ t.length → a < b →
        (Location.ofOffset t a path).Precedes (Location.ofOffset t b path)) ∧
      (∀ a b : Int, 0 ≤ a → a ≤ t.length → 0 ≤ b → b ≤ t.length →
        Location.ofOffset t a path = Location.ofOffset t b path → a = b) ∧
      ∀ (names : CharNames) (mode : Mode) (σ : Type) (tracing : Tracing) (ev : Option (Evaluator σ)) (state : σ)
        (e : TemplateError),
        scan names mode t = .error (.template e) ∨ (run (render names tracing ev mode t) state).1 = .error (.template e) →
          ∃ (o line column : Nat) (c : CodePoint), e.offset = o ∧ e.locate t path = ⟨path, some line, some column⟩ ∧
            t.charAt? line column = some c ∧ t[o]? = some c ∧ (c = .backslash ∨ c = .hash) := by
  refine ⟨?_, ?_, ?_, ?_⟩
  · intro offset
    refine ⟨Location.clamp t offset, _, _, ?_, rfl, Text.marks_after (Location.clamp_le t offset)⟩
    rw [Location.clamp]
    omega
  · intro a b ha hb h
    exact Location.precedes_of_lt ha hb h path
  · intro a b ha ha' hb hb' heq
    by_contra hne
    rcases Int.lt_or_gt_of_ne hne with hlt | hgt
    · exact Location.not_precedes_self _ (heq ▸ Location.precedes_of_lt ha hb' hlt path)
    · exact Location.not_precedes_self _ (heq ▸ Location.precedes_of_lt hb ha' hgt path)
  · intro names mode σ tracing ev state e h
    have hmark : e.AtMark t := h.elim atMark_of_scan_error atMark_of_render_error
    obtain ⟨o, c, hoffset, hc, hkind⟩ := hmark
    have hinside : o ≤ t.length := Nat.le_of_lt (List.getElem?_eq_some_iff.1 hc).1
    have hclamp : Location.clamp t e.offset = o := by
      rw [Location.clamp, hoffset]
      omega
    have hmarks := Text.marks_after hinside
    have hne : c ≠ .newline := by
      rintro rfl
      exact absurd hkind (by decide)
    refine ⟨o, _, _, c, hoffset, ?_, hmarks.char c hc hne, hc, hkind⟩
    rw [TemplateError.locate, Location.ofOffset, hclamp]

/-- an escape that is refused on the second line; the line feed before it is the last place of the first -/
theorem location_faithful_escape :
    scan .none .interpolated (text "a\nb\\q") = .error (.template ⟨.invalidEscape none, text "\\q", 3⟩) ∧
      TemplateError.locate ⟨.invalidEscape none, text "\\q", 3⟩ (text "a\nb\\q") none = ⟨none, some 2, some 2⟩ ∧
      (text "a\nb\\q").charAt? 2 2 = some .backslash ∧
      (Location.ofOffset (text "a\nb\\q") 1 none).Precedes (Location.ofOffset (text "a\nb\\q") 2 none) := by
  have hscan : scan .none .interpolated (text "a\nb\\q") =
      .error (.template ⟨.invalidEscape none, text "\\q", 3⟩) := by cbv
  have hplace : TemplateError.locate ⟨.invalidEscape none, text "\\q", 3⟩ (text "a\nb\\q") none =
      ⟨none, some 2, some 2⟩ := by decide
  obtain ⟨_, hprecedes, _, herrors⟩ := location_faithful (text "a\nb\\q") none
  obtain ⟨o, line, column, c, hoffset, hlocate, hchar, hc, _⟩ :=
    herrors .none .interpolated Unit {} none () _ (Or.inl hscan)
  obtain rfl : o = 3 := by
    have hthree : (3 : Int) = o := hoffset
    omega
  obtain ⟨rfl, rfl⟩ : line = 2 ∧ column = 2 := by
    have heq := hplace.symm.trans hlocate
    simp only [Location.mk.injEq, Option.some.injEq, true_and] at heq
    omega
  obtain rfl : c = .backslash := Option.some.inj (hc.symm.trans (by decide))
  exact ⟨hscan, hplace, hchar, hprecedes 1 2 (by decide) (by decide) (by decide)⟩

end PercentLiteral

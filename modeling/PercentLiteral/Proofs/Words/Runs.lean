/-
Words are maximal runs.

`maximalRuns` cuts a list at its blanks and drops the empty parts. A blank parts the runs before it from those behind it
(`maximalRuns_cut`), and everything else about runs follows from this one equation. A list is its runs with blanks around
them (`exists_parted`), and a list that is written so has those runs (`Parted.runs`).

`splitWords_runs`: the words of a token stream have the maximal runs of its atoms. So what a stream without interpolations
is rendered to in words depends on its atoms alone (`finish_words`).
-/
import PercentLiteral.Proofs.Render.Resolution

namespace PercentLiteral

/-! ## Runs -/

section Runs

variable {α : Type} {blank : α → Bool}

/-- the longest parts of a list that hold no blank, without the empty ones -/
def maximalRuns (blank : α → Bool) (l : List α) : List (List α) := (l.splitOnP blank).filter fun r => !r.isEmpty

@[simp] theorem maximalRuns_nil : maximalRuns blank [] = [] := by
  simp [maximalRuns]

/-- **Runs part at a blank.** -/
theorem maximalRuns_cut {c : α} (hc : blank c = true) (l m : List α) :
    maximalRuns blank (l ++ c :: m) = maximalRuns blank l ++ maximalRuns blank m := by
  rw [maximalRuns, List.splitOnP_append_cons l m hc, List.filter_append]
  rfl

theorem maximalRuns_blanks {g : List α} (hg : ∀ c ∈ g, blank c = true) (l : List α) :
    maximalRuns blank (g ++ l) = maximalRuns blank l := by
  induction g with
  | nil => rfl
  | cons c g ih =>
    obtain ⟨hc, hg⟩ := List.forall_mem_cons.1 hg
    have hcut := maximalRuns_cut hc [] (g ++ l)
    rw [maximalRuns_nil, List.nil_append, List.nil_append] at hcut
    rw [List.cons_append, hcut, ih hg]

/-- a part without blanks is a run, if blanks or nothing stand behind it -/
theorem maximalRuns_run {r g l : List α} (hne : r ≠ []) (hr : ∀ c ∈ r, blank c = false)
    (hg : ∀ c ∈ g, blank c = true) (hnext : g = [] → l = []) :
    maximalRuns blank (r ++ (g ++ l)) = r :: maximalRuns blank l := by
  have hself : maximalRuns blank r = [r] := by
    rw [maximalRuns, List.splitOnP_eq_singleton hr]
    simp [hne]
  cases g with
  | nil =>
    rw [hnext rfl]
    simp [hself]
  | cons c g =>
    obtain ⟨hc, hg⟩ := List.forall_mem_cons.1 hg
    rw [List.cons_append, maximalRuns_cut hc, hself, maximalRuns_blanks hg, List.singleton_append]

/-- parts without blanks, each with the blanks behind it; only the last may have none -/
inductive Parted (blank : α → Bool) : List (List α × List α) → Prop where
  | nil : Parted blank []
  | cons {r g : List α} {ps : List (List α × List α)} :
      r ≠ [] → (∀ c ∈ r, blank c = false) → (∀ c ∈ g, blank c = true) → (g = [] → ps = []) → Parted blank ps →
      Parted blank ((r, g) :: ps)

/-- such parts are the runs of the list that they make up -/
theorem Parted.runs {ps : List (List α × List α)} (h : Parted blank ps) :
    maximalRuns blank (ps.flatMap fun p => p.1 ++ p.2) = ps.map Prod.fst := by
  induction h with
  | nil => exact maximalRuns_nil
  | @cons r g ps hne hr hg hlast _ ih =>
    have hnext : g = [] → (ps.flatMap fun p => p.1 ++ p.2) = [] := by
      intro hnil
      rw [hlast hnil]
      rfl
    rw [List.flatMap_cons, List.append_assoc, maximalRuns_run hne hr hg hnext, ih, List.map_cons]

/-- **Every list is made up of its runs**, with blanks in front of them, between them and behind them. -/
theorem exists_parted (blank : α → Bool) (l : List α) :
    ∃ lead ps, l = lead ++ ps.flatMap (fun p => p.1 ++ p.2) ∧ (∀ c ∈ lead, blank c = true) ∧ Parted blank ps := by
  induction l with
  | nil => exact ⟨[], [], rfl, by simp, .nil⟩
  | cons c l ih =>
    obtain ⟨lead, ps, rfl, hlead, hps⟩ := ih
    cases hc : blank c with
    | true => exact ⟨c :: lead, ps, rfl, List.forall_mem_cons.2 ⟨hc, hlead⟩, hps⟩
    | false =>
      -- it goes on with the run that begins behind it, or is a run of its own
      by_cases hjoins : lead = [] ∧ ps ≠ []
      · obtain ⟨rfl, hne⟩ := hjoins
        cases hps with
        | nil => exact absurd rfl hne
        | cons _ hr hg hlast hps =>
          exact ⟨[], _, rfl, by simp,
            .cons (List.cons_ne_nil c _) (List.forall_mem_cons.2 ⟨hc, hr⟩) hg hlast hps⟩
      · have hlast : lead = [] → ps = [] := fun hnil => by_contra fun hne => hjoins ⟨hnil, hne⟩
        exact ⟨[], ([c], lead) :: ps, rfl, by simp, .cons (List.cons_ne_nil c []) (by simpa using hc) hlead hlast hps⟩

/-- the runs hold all that is no blank, in order -/
theorem flatten_maximalRuns (blank : α → Bool) (l : List α) :
    (maximalRuns blank l).flatten = l.filter fun c => !blank c := by
  rw [maximalRuns, List.flatten_filter_not_isEmpty]
  induction l with
  | nil => simp
  | cons c l ih =>
    obtain ⟨r, rs, hsplit⟩ := List.exists_cons_of_ne_nil (List.splitOnP_ne_nil blank l)
    rw [hsplit, List.flatten_cons] at ih
    cases hc : blank c with
    | true => simp [List.splitOnP_cons_eq_if_modifyHead, hc, hsplit, ih]
    | false => simp [List.splitOnP_cons_eq_if_modifyHead, hc, hsplit, ih]

end Runs

/-- behind its first item, a row that is spaced out properly is one again; only the last item may have no blanks behind -/
theorem Spaced.Proper.behind {α : Type} {lead g : Text} {a : α} {ps : List (α × Text)}
    (h : Spaced.Proper ⟨lead, (a, g) :: ps⟩) : Spaced.Proper ⟨g, ps⟩ ∧ (g = [] → ps = []) := by
  obtain ⟨hg, hgaps⟩ := List.forall_mem_cons.1 h.gaps
  have hbetween : ∀ b ∈ (g :: ps.map Prod.snd).dropLast, b ≠ [] := h.between
  cases ps with
  | nil => exact ⟨⟨hg, hgaps, by simp [Spaced.gaps]⟩, fun _ => rfl⟩
  | cons p ps =>
    rw [List.map_cons, List.dropLast_cons_of_ne_nil (List.cons_ne_nil _ _)] at hbetween
    obtain ⟨hfirst, hrest⟩ := List.forall_mem_cons.1 hbetween
    exact ⟨⟨hg, hgaps, hrest⟩, fun hnil => absurd hnil hfirst⟩

/-! ## Words -/

/-- whether an atom is a blank between words -/
def Atom.isBlank : Atom → Bool
  | char c => c.isSpace
  | _ => false

theorem isBlank_map_char {g : Text} (h : ∀ c ∈ g, c.isSpace) : ∀ a ∈ g.map Atom.char, a.isBlank = true := by
  intro a ha
  obtain ⟨c, hc, rfl⟩ := List.mem_map.1 ha
  exact h c hc

namespace Words

/-- a word of a layout has atoms, and none of them is a blank -/
theorem Pieces.atoms {w : Word} (h : Pieces w) (hne : w ≠ []) :
    w.flatMap Token.atoms ≠ [] ∧ ∀ a ∈ w.flatMap Token.atoms, a.isBlank = false := by
  constructor
  · intro hempty
    obtain ⟨tok, w, rfl⟩ := List.exists_cons_of_ne_nil hne
    have htok : tok.atoms = [] := List.flatMap_eq_nil_iff.1 hempty tok List.mem_cons_self
    cases tok with
    | literal s p =>
      have hs : s = [] := List.map_eq_nil_iff.1 htok
      exact (h s p List.mem_cons_self).1 hs
    | escape r v p => cases htok
    | interpolation e p => cases htok
  · intro a ha
    obtain ⟨tok, htok, ha⟩ := List.mem_flatMap.1 ha
    cases tok with
    | literal s p =>
      obtain ⟨c, hc, rfl⟩ := List.mem_map.1 ha
      exact (h s p htok).2 c hc
    | escape r v p =>
      cases List.mem_singleton.1 ha
      rfl
    | interpolation e p =>
      cases List.mem_singleton.1 ha
      rfl

/-- words that are spaced out have their atoms parted by the blanks behind them -/
theorem parted_atoms {ps : List (Word × Text)} {lead : Text} (h : Spaced.Proper ⟨lead, ps⟩)
    (hwords : ∀ p ∈ ps, p.1 ≠ [] ∧ Pieces p.1) :
    Parted Atom.isBlank (ps.map fun p => (p.1.flatMap Token.atoms, p.2.map .char)) := by
  induction ps generalizing lead with
  | nil => exact .nil
  | cons p ps ih =>
    obtain ⟨w, g⟩ := p
    obtain ⟨hbehind, hlast⟩ := h.behind
    obtain ⟨⟨hne, hpieces⟩, hrest⟩ := List.forall_mem_cons.1 hwords
    obtain ⟨hatoms, hsolid⟩ := hpieces.atoms hne
    refine .cons hatoms hsolid (isBlank_map_char hbehind.lead) ?_ (ih hbehind hrest)
    intro hg
    rw [hlast (List.map_eq_nil_iff.1 hg), List.map_nil]

/-- the words of a layout are the runs of its atoms -/
theorem Layout.runs {ws : List Word} {k : Spaced Word} (h : Layout ws k) :
    ws.map (·.flatMap Token.atoms) = maximalRuns Atom.isBlank k.atoms := by
  obtain ⟨lead, ps⟩ := k
  have hitems : ps.map Prod.fst = ws := h.words
  have hwords : ∀ p ∈ ps, p.1 ≠ [] ∧ Pieces p.1 := by
    intro p hp
    have hw : p.1 ∈ ws := hitems ▸ List.mem_map_of_mem hp
    exact ⟨h.filled p.1 hw, h.pieces p.1 hw⟩
  have hruns := (parted_atoms h.proper hwords).runs
  rw [List.flatMap_map, List.map_map] at hruns
  rw [Spaced.atoms, maximalRuns_blanks (isBlank_map_char h.proper.lead), hruns, ← hitems, List.map_map]
  rfl

end Words

/-- **Words are maximal runs.** The words of a stream have the maximal runs of its atoms between blanks. -/
theorem splitWords_runs (ts : List Token) :
    (splitWords ts).map (·.flatMap Token.atoms) = maximalRuns Atom.isBlank (ts.flatMap Token.atoms) := by
  obtain ⟨k, hk, hatoms⟩ := splitWords_layout ts
  rw [hk.runs, hatoms]

theorem fillWords_nil (ws : List Word) : fillWords [] ws = ws.map fun w => fill [] (w.flatMap Token.atoms) := by
  induction ws with
  | nil => rfl
  | cons w ws ih => rw [fillWords, List.drop_nil, ih, List.map_cons]

/-- without replies, the words of a rendering are what the runs denote -/
theorem Render.finish_words {mode : Mode} (h : mode.splits = true) (ts : List Token) :
    finish mode ts [] =
      .words (((maximalRuns Atom.isBlank (ts.flatMap Token.atoms)).map (fill [])).filter (· ≠ [])) := by
  rw [finish, if_pos h, fillWords_nil, ← splitWords_runs, List.map_map]
  rfl

end PercentLiteral

/-
The skeleton of a template: what its rendering is before anything is known of the replies.

A word of a template is a row of pieces: texts that the template fixes, and holes for the replies, numbered through the
whole template. The words stand between blanks of the template. `Skeleton` says which pieces and blanks these are;
`skeleton_of_layout` finds them in the words of every template that has tokens, by numbering their interpolations.

`replies_opaque`: a rendering puts the replies into the holes and does nothing else to them.
-/
import PercentLiteral.Proofs.Render.Calls

namespace PercentLiteral

/-! ## Pieces -/

/-- a part of a word: a text that the template fixes, or the place of a reply -/
inductive Piece where
  | constant (t : Text)
  | hole (n : Nat)
  deriving DecidableEq, Repr

namespace Piece

/-- the text of a piece, with the replies in the holes -/
def fill (rs : List Text) : Piece → Text
  | constant t => t
  | hole n => rs.getD n []

/-- the number of a hole -/
def number? : Piece → Option Nat
  | constant _ => none
  | hole n => some n

/-- which piece stands for a token: an interpolation is a hole, and any other token is what it denotes -/
inductive Of : Token → Piece → Prop where
  | literal (s : Text) (p : Int) : Of (.literal s p) (.constant s)
  | escape (r v : Text) (p : Int) : Of (.escape r v p) (.constant v)
  | interpolation (e : Text) (p : Int) (n : Nat) : Of (.interpolation e p) (.hole n)

end Piece

theorem exists_of_forall₂ {α β : Type} {R : α → β → Prop} {as : List α} {bs : List β} (h : List.Forall₂ R as bs)
    {b : β} (hb : b ∈ bs) : ∃ a ∈ as, R a b := by
  induction h with
  | nil => cases hb
  | cons hab _ ih =>
    rcases List.mem_cons.1 hb with rfl | hb
    · exact ⟨_, List.mem_cons_self, hab⟩
    · obtain ⟨a, ha, hr⟩ := ih hb
      exact ⟨a, List.mem_cons_of_mem _ ha, hr⟩

/-- other items between the same blanks -/
def Spaced.refill {α β : Type} (k : Spaced α) (items : List β) : Spaced β := ⟨k.lead, items.zip k.gaps⟩

/-- the pieces of a template with these tokens: they stand for the tokens of its words, word by word, between the blanks
of the template; no word is without pieces, no piece is an empty text, and the holes are numbered in order -/
structure Skeleton (t : Text) (ts : List Token) (k : Spaced (List Piece)) : Prop where
  proper : k.Proper
  template : (k.refill ((splitWords ts).map (·.flatMap Token.raw))).text = t
  pieces : List.Forall₂ (List.Forall₂ Piece.Of) (splitWords ts) k.items
  filled : ∀ u ∈ k.items, u ≠ []
  solid : ∀ u ∈ k.items, .constant [] ∉ u
  holes : k.items.flatten.filterMap Piece.number? = List.range (interpolations ts).length

/-- a word becomes empty exactly if it is a row of holes with empty replies -/
theorem Skeleton.empty_iff {t : Text} {ts : List Token} {k : Spaced (List Piece)} (h : Skeleton t ts k)
    {rs : List Text} (hrs : rs.length = (interpolations ts).length) {u : List Piece} (hu : u ∈ k.items) :
    u.flatMap (Piece.fill rs) = [] ↔ ∀ x ∈ u, ∃ n, x = .hole n ∧ rs[n]? = some [] := by
  rw [List.flatMap_eq_nil_iff]
  refine forall₂_congr fun x hx => ?_
  cases x with
  | constant c =>
    have hc : c ≠ [] := by
      rintro rfl
      exact h.solid u hu hx
    simp [Piece.fill, hc]
  | hole n =>
    have hn : n ∈ k.items.flatten.filterMap Piece.number? :=
      List.mem_filterMap.2 ⟨.hole n, List.mem_flatten_of_mem hu hx, rfl⟩
    rw [h.holes, List.mem_range, ← hrs] at hn
    simp [Piece.fill, hn]

/-! ## Numbering the holes -/

/-- the pieces of a row of tokens, with holes numbered from a number on -/
def pieces : Nat → List Token → List Piece
  | _, [] => []
  | n, .literal s _ :: ts => .constant s :: pieces n ts
  | n, .escape _ v _ :: ts => .constant v :: pieces n ts
  | n, .interpolation _ _ :: ts => .hole n :: pieces (n + 1) ts

/-- the pieces of words between their blanks, numbered through all words -/
def numbered : Nat → List (Word × Text) → List (List Piece × Text)
  | _, [] => []
  | n, (w, g) :: ps => (pieces n w, g) :: numbered (n + (interpolations w).length) ps

theorem pieces_of (n : Nat) (ts : List Token) : List.Forall₂ Piece.Of ts (pieces n ts) := by
  fun_induction pieces n ts with
  | case1 n => exact .nil
  | case2 n s p ts ih => exact .cons (.literal s p) ih
  | case3 n r v p ts ih => exact .cons (.escape r v p) ih
  | case4 n e p ts ih => exact .cons (.interpolation e p n) ih

theorem pieces_numbers (n : Nat) (ts : List Token) :
    (pieces n ts).filterMap Piece.number? = List.range' n (interpolations ts).length := by
  fun_induction pieces n ts with
  | case1 n => rfl
  | case2 n s p ts ih => rwa [interpolations_literal, List.filterMap_cons_none rfl]
  | case3 n r v p ts ih => rwa [interpolations_escape, List.filterMap_cons_none rfl]
  | case4 n e p ts ih =>
    have hnumber : Piece.number? (.hole n) = some n := rfl
    rw [interpolations_interpolation, List.length_cons, List.range'_succ, List.filterMap_cons_some hnumber, ih]

/-- filling pieces is filling the atoms of their tokens with the replies from their first number on -/
theorem pieces_fill (rs : List Text) (n : Nat) (ts : List Token) :
    (pieces n ts).flatMap (Piece.fill rs) = fill (rs.drop n) (ts.flatMap Token.atoms) := by
  fun_induction pieces n ts with
  | case1 n => simp
  | case2 n s p ts ih => simp [Piece.fill, Token.atoms, ih]
  | case3 n r v p ts ih => simp [Piece.fill, Token.atoms, PercentLiteral.fill, ih]
  | case4 n e p ts ih =>
    simp only [List.flatMap_cons, Piece.fill, Token.atoms, ih, List.singleton_append]
    by_cases hn : n < rs.length
    · rw [List.drop_eq_getElem_cons hn, PercentLiteral.fill]
      simp [hn]
    · have hmore : rs.length ≤ n + 1 := by omega
      rw [List.drop_eq_nil_of_le (Nat.not_lt.1 hn), List.drop_eq_nil_of_le hmore, PercentLiteral.fill]
      simp [hn]

theorem numbered_gaps (n : Nat) (ps : List (Word × Text)) : (numbered n ps).map Prod.snd = ps.map Prod.snd := by
  fun_induction numbered n ps with
  | case1 n => rfl
  | case2 n w g ps ih => rw [List.map_cons, List.map_cons, ih]

theorem numbered_of (n : Nat) (ps : List (Word × Text)) :
    List.Forall₂ (List.Forall₂ Piece.Of) (ps.map Prod.fst) ((numbered n ps).map Prod.fst) := by
  fun_induction numbered n ps with
  | case1 n => exact .nil
  | case2 n w g ps ih => exact .cons (pieces_of n w) ih

theorem numbered_numbers (n : Nat) (ps : List (Word × Text)) :
    ((numbered n ps).map Prod.fst).flatten.filterMap Piece.number? =
      List.range' n (interpolations (ps.map Prod.fst).flatten).length := by
  fun_induction numbered n ps with
  | case1 n => rfl
  | case2 n w g ps ih => simp [pieces_numbers, ih, List.range'_append_1]

/-- filling in word by word -/
theorem numbered_fillWords (rs : List Text) (n : Nat) (ps : List (Word × Text)) :
    ((numbered n ps).map Prod.fst).map (·.flatMap (Piece.fill rs)) = fillWords (rs.drop n) (ps.map Prod.fst) := by
  fun_induction numbered n ps with
  | case1 n => rfl
  | case2 n w g ps ih =>
    simp only [List.map_cons, fillWords, pieces_fill, ih, List.drop_drop]

/-- filling in one row, with the blanks left in place -/
theorem numbered_fill (rs : List Text) (n : Nat) (ps : List (Word × Text)) :
    (numbered n ps).flatMap (fun p => p.1.flatMap (Piece.fill rs) ++ p.2) =
      fill (rs.drop n) (ps.flatMap fun p => p.1.flatMap Token.atoms ++ p.2.map .char) := by
  fun_induction numbered n ps with
  | case1 n => simp
  | case2 n w g ps ih =>
    have hword : ∀ as, fill (rs.drop n) (w.flatMap Token.atoms ++ as) =
        fill (rs.drop n) (w.flatMap Token.atoms) ++ fill (rs.drop (n + (interpolations w).length)) as := by
      intro as
      rw [fill_append, List.drop_drop, interpolations]
    calc (numbered n ((w, g) :: ps)).flatMap (fun p => p.1.flatMap (Piece.fill rs) ++ p.2)
        = fill (rs.drop n) (w.flatMap Token.atoms) ++ (g ++ fill (rs.drop (n + (interpolations w).length))
            (ps.flatMap fun p => p.1.flatMap Token.atoms ++ p.2.map .char)) := by
          rw [numbered, List.flatMap_cons, ih, pieces_fill, List.append_assoc]
      _ = fill (rs.drop n) (w.flatMap Token.atoms ++ (g.map .char ++
            ps.flatMap fun p => p.1.flatMap Token.atoms ++ p.2.map .char)) := by
          rw [hword, fill_map_char]
      _ = fill (rs.drop n) (((w, g) :: ps).flatMap fun p => p.1.flatMap Token.atoms ++ p.2.map .char) := by
          rw [List.flatMap_cons, List.append_assoc]

/-! ## The skeleton of a template -/

/-- the text that an atom was read from -/
def Atom.raw : Atom → Text
  | char c => [c]
  | escape r _ _ => r
  | interpolation e _ => .hash :: .braceOpen :: e ++ [.braceClose]

theorem raw_map_char (s : Text) : (s.map Atom.char).flatMap Atom.raw = s := by
  induction s with
  | nil => rfl
  | cons c s ih => rw [List.map_cons, List.flatMap_cons, ih, Atom.raw, List.singleton_append]

theorem raw_atoms (tok : Token) : tok.atoms.flatMap Atom.raw = tok.raw := by
  cases tok with
  | literal s p => exact raw_map_char s
  | escape r v p => exact List.flatMap_singleton ..
  | interpolation e p => exact List.flatMap_singleton ..

theorem raw_flatMap_atoms (ts : List Token) : (ts.flatMap Token.atoms).flatMap Atom.raw = ts.flatMap Token.raw := by
  rw [List.flatMap_assoc]
  exact List.flatMap_congr fun tok _ => raw_atoms tok

/-- spaced words were read from the same text as their atoms -/
theorem Spaced.raw_text (k : Spaced Word) : (k.map (·.flatMap Token.raw)).text = k.atoms.flatMap Atom.raw := by
  obtain ⟨lead, parts⟩ := k
  have hparts : (parts.flatMap fun p => p.1.flatMap Token.atoms ++ p.2.map Atom.char).flatMap Atom.raw =
      parts.flatMap fun p => p.1.flatMap Token.raw ++ p.2 := by
    rw [List.flatMap_assoc]
    refine List.flatMap_congr fun p _ => ?_
    rw [List.flatMap_append, raw_flatMap_atoms, raw_map_char]
  rw [Spaced.atoms, List.flatMap_append, hparts, raw_map_char, Spaced.text, Spaced.map, List.flatMap_map]

theorem escape_mem_iff {r v : Text} {p : Int} {ts : List Token} :
    Atom.escape r v p ∈ ts.flatMap Token.atoms ↔ .escape r v p ∈ ts := by
  rw [List.mem_flatMap]
  constructor
  · rintro ⟨tok, hmem, hatom⟩
    cases tok with
    | literal s p => simp [Token.atoms] at hatom
    | escape r' v' p' =>
      cases List.mem_singleton.1 hatom
      exact hmem
    | interpolation e p => simp [Token.atoms] at hatom
  · exact fun hmem => ⟨_, hmem, List.mem_singleton_self _⟩

/-- an escape of a word is one of the stream -/
theorem escape_mem_of_mem_word {r v : Text} {p : Int} {w : Word} {ts : List Token} (hw : w ∈ splitWords ts)
    (h : .escape r v p ∈ w) : .escape r v p ∈ ts := by
  obtain ⟨k, hk, hatoms⟩ := splitWords_layout ts
  rw [← escape_mem_iff, ← hatoms, Spaced.atoms]
  rw [← hk.words] at hw
  obtain ⟨part, hpart, rfl⟩ := List.mem_map.1 hw
  exact List.mem_append_right _ (List.mem_flatMap.2 ⟨part, hpart, List.mem_append_left _ (escape_mem_iff.2 h)⟩)

/-- no escape of a template denotes an empty text -/
theorem escape_value_ne_nil {names : CharNames} {t : Text} {ts : List Token} (h : Scan.expanding names 0 t = .ok ts)
    {r v : Text} {p : Int} (hmem : .escape r v p ∈ ts) : v ≠ [] := by
  obtain ⟨p', rest, htok⟩ := (Scan.expanding_iff_run.1 h).tokens _ hmem (by simp)
  generalize hrest : Token.raw (.escape r v p) ++ rest = u at htok
  generalize htok' : Token.escape r v p = tok at htok
  cases htok with
  | @escape r' s hs =>
    cases htok'
    exact (Escape.read_starts hs).value
  | interpolation => cases htok'

/-- **Every template has a skeleton.** The words of its tokens, laid out and numbered, are one. -/
theorem skeleton_of_layout {names : CharNames} {t : Text} {ts : List Token} (h : Scan.expanding names 0 t = .ok ts)
    {k : Spaced Word} (hk : Words.Layout (splitWords ts) k) (hatoms : k.atoms = ts.flatMap Token.atoms) :
    Skeleton t ts ⟨k.lead, numbered 0 k.parts⟩ := by
  have hpieces : List.Forall₂ (List.Forall₂ Piece.Of) (splitWords ts) ((numbered 0 k.parts).map Prod.fst) := by
    rw [← hk.words]
    exact numbered_of 0 k.parts
  refine ⟨⟨hk.proper.lead, ?_, ?_⟩, ?_, hpieces, ?_, ?_, ?_⟩
  · rw [Spaced.gaps, numbered_gaps]
    exact hk.proper.gaps
  · rw [Spaced.gaps, numbered_gaps]
    exact hk.proper.between
  · have hrefill : Spaced.refill ⟨k.lead, numbered 0 k.parts⟩ ((splitWords ts).map (·.flatMap Token.raw)) =
        k.map (·.flatMap Token.raw) := by
      rw [Spaced.refill, Spaced.gaps, numbered_gaps, ← hk.words, Spaced.items, List.map_map, List.zip_map', Spaced.map]
      rfl
    have htiles := (Scan.expanding_iff_run.1 h).tiles (Scan.expandingRules_sound names)
    rw [hrefill, Spaced.raw_text, hatoms, raw_flatMap_atoms, htiles.concat]
  · rintro u hu rfl
    obtain ⟨w, hw, hof⟩ := exists_of_forall₂ hpieces hu
    exact hk.filled w hw (List.forall₂_nil_right_iff.1 hof)
  · intro u hu hmem
    obtain ⟨w, hw, hof⟩ := exists_of_forall₂ hpieces hu
    obtain ⟨tok, htok, hempty⟩ := exists_of_forall₂ hof hmem
    cases hempty with
    | literal s p => exact (hk.pieces w hw [] p htok).1 rfl
    | escape r v p => exact escape_value_ne_nil h (escape_mem_of_mem_word hw htok) rfl
  · rw [Spaced.items, numbered_numbers, List.range_eq_range']
    change List.range' 0 (interpolations k.items.flatten).length = _
    rw [hk.words, interpolations_splitWords]

/-! ## Renderings -/

open Render

/-- a filled skeleton, blanks included, is what the replies make of all tokens in one row -/
theorem skeleton_text {ts : List Token} {k : Spaced Word} (hatoms : k.atoms = ts.flatMap Token.atoms)
    (rs : List Text) :
    (Spaced.map (·.flatMap (Piece.fill rs)) ⟨k.lead, numbered 0 k.parts⟩).text = fill rs (ts.flatMap Token.atoms) := by
  have hparts := numbered_fill rs 0 k.parts
  rw [List.drop_zero] at hparts
  calc (Spaced.map (·.flatMap (Piece.fill rs)) ⟨k.lead, numbered 0 k.parts⟩).text
      = k.lead ++ (numbered 0 k.parts).flatMap (fun p => p.1.flatMap (Piece.fill rs) ++ p.2) := by
        rw [Spaced.text, Spaced.map, List.flatMap_map]
    _ = fill rs k.atoms := by rw [hparts, Spaced.atoms, fill_map_char]
    _ = fill rs (ts.flatMap Token.atoms) := by rw [hatoms]

/-- its words are what the replies make of the words of the tokens -/
theorem skeleton_words {ws : List Word} {k : Spaced Word} (hk : k.items = ws) (rs : List Text) :
    (Spaced.items ⟨k.lead, numbered 0 k.parts⟩).map (·.flatMap (Piece.fill rs)) = fillWords rs ws := by
  have hparts := numbered_fillWords rs 0 k.parts
  rwa [List.drop_zero, show k.parts.map Prod.fst = ws from hk] at hparts

/-- a rendering whose every question is answered succeeds -/
theorem run_render_answers {σ : Type} {names : CharNames} {tracing : Tracing} {ev : Evaluator σ} {mode : Mode}
    {t : Text} {ts : List Token} {s s' : σ} {rs : List Text} (h : scan names mode t = .ok ts)
    (hrs : Answers ev s ((interpolations ts).map Prod.fst) rs s') :
    (run (render names tracing (some ev) mode t) s).1 = .ok (finish mode ts rs) := by
  have hrender : (run (render names tracing (some ev) mode t) s).1 = _ ∧ _ := run_render h (by simp) s
  rw [hrender.1, run_eq_exec, exec_mapM_ask hrs]
  rfl

/-- **Replies are opaque.** A template that has tokens has a skeleton, and for any replies to its interpolations: a word
of the skeleton becomes empty exactly if it is a row of holes with empty replies; an evaluator that gives these replies
makes the rendering in one row the filled skeleton with its blanks, and the rendering in words the filled words that are
not empty. -/
theorem replies_opaque (names : CharNames) (mode : Mode) (hmode : mode.expands) (t : Text) (ts : List Token)
    (h : scan names mode t = .ok ts) :
    ∃ k, Skeleton t ts k ∧ ∀ rs : List Text, rs.length = (interpolations ts).length →
      (∀ u ∈ k.items, u.flatMap (Piece.fill rs) = [] ↔ ∀ x ∈ u, ∃ n, x = .hole n ∧ rs[n]? = some []) ∧
      ∀ (σ : Type) (tracing : Tracing) (ev : Evaluator σ) (s s' : σ),
        Answers ev s ((interpolations ts).map Prod.fst) rs s' →
          (run (render names tracing (some ev) .interpolated t) s).1 =
              .ok (.text (k.map (·.flatMap (Piece.fill rs))).text) ∧
            (run (render names tracing (some ev) .interpolatedWords t) s).1 =
              .ok (.words ((k.items.map (·.flatMap (Piece.fill rs))).filter (· ≠ []))) := by
  have hscan : Scan.expanding names 0 t = .ok ts := (Scan.scan_of_expands hmode names t).symm.trans h
  obtain ⟨k, hk, hatoms⟩ := splitWords_layout ts
  have hskeleton := skeleton_of_layout hscan hk hatoms
  refine ⟨⟨k.lead, numbered 0 k.parts⟩, hskeleton, ?_⟩
  intro rs hlength
  refine ⟨fun u hu => hskeleton.empty_iff hlength hu, ?_⟩
  intro σ tracing ev s s' hrs
  have hqq : scan names .interpolated t = .ok ts := hscan
  have hww : scan names .interpolatedWords t = .ok ts := hscan
  constructor
  · rw [run_render_answers hqq hrs, skeleton_text hatoms]
    rfl
  · rw [run_render_answers hww hrs, skeleton_words hk.words]
    rfl

/-- a reply that is blank and one that is empty: neither makes words, and the empty one loses its own -/
theorem replies_opaque_blanks :
    scan .none .interpolatedWords (text "a#{x} #{y}") =
        .ok [.literal (text "a") 0, .interpolation (text "x") 1, .literal (text " ") 5, .interpolation (text "y") 6] ∧
      ∃ k, Skeleton (text "a#{x} #{y}")
          [.literal (text "a") 0, .interpolation (text "x") 1, .literal (text " ") 5, .interpolation (text "y") 6] k ∧
        (run (render .none {} (some Script.evaluator) .interpolatedWords (text "a#{x} #{y}"))
            [.give (.str (text " #{z} ")), .give (.str [])]).1 =
          .ok (.words ((k.items.map (·.flatMap (Piece.fill [text " #{z} ", []]))).filter (· ≠ []))) := by
  have h : scan .none .interpolatedWords (text "a#{x} #{y}") =
      .ok [.literal (text "a") 0, .interpolation (text "x") 1, .literal (text " ") 5, .interpolation (text "y") 6] := by
    cbv
  obtain ⟨k, hk, hreplies⟩ := replies_opaque .none .interpolatedWords rfl (text "a#{x} #{y}") _ h
  obtain ⟨_, hrun⟩ := hreplies [text " #{z} ", []] rfl
  obtain ⟨s', hanswers⟩ := answers_script [text "x", text "y"] [text " #{z} ", []] rfl
  exact ⟨h, k, hk, (hrun _ {} Script.evaluator _ s' hanswers).2⟩

end PercentLiteral

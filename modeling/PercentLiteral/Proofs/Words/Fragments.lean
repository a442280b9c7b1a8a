/-
The words of any token stream, put together from its smallest parts.

The fragments of a stream are its cells, each with the number of the token that it is a part of. Blanks of literals part
them into runs, and `assemble` makes a word of a run: what comes from one literal becomes a literal again, and what comes
from different tokens stays apart.

- `foldr_put`: reading a stream from the right, the splitter holds the run before the first blank and the runs behind it,
  each put together (`partition`);
- `splitWords_eq_assemble`: so the words are the runs of fragments;
- `Parted.wordTiles`: where tokens tile a text, the words and the blanks between them do;
- `splitWords_solid`: a word that has no blank in its literals is split no further.

`splitWords_reference`: all of this for every stream, whether or not it was scanned from a text.
-/
import PercentLiteral.Proofs.Words.Places
import PercentLiteral.Proofs.Words.Runs
import Mathlib.Data.List.SplitBy

namespace PercentLiteral

/-! ## Fragments -/

/-- a cell of a token stream, and the number of the token that it is a part of -/
structure Fragment where
  source : Nat
  cell : Token
  deriving DecidableEq, Repr

namespace Fragment

/-- whether a fragment is a blank of a literal -/
def isBlank (f : Fragment) : Bool := f.cell.isGap

/-- whether two fragments are parts of one token -/
def together (f g : Fragment) : Bool := f.source == g.source

end Fragment

/-- the fragments of a token stream, with its tokens numbered from a number on -/
def fragments (n : Nat) (ts : List Token) : List Fragment :=
  (ts.zipIdx n).flatMap fun p => p.1.cells.map (Fragment.mk p.2)

/-- cells of one token put together: code points of a literal are a literal that starts where the first of them does -/
def Token.join : List Token → Word
  | .literal s p :: cells => [.literal (s ++ cells.flatMap raw) p]
  | cells => cells

/-- the word of a run of fragments: neighbours that are parts of one token are put together -/
def assemble (run : List Fragment) : Word :=
  (run.splitBy Fragment.together).flatMap fun part => Token.join (part.map Fragment.cell)

@[simp] theorem map_cell_mk (n : Nat) (cells : List Token) : (cells.map (Fragment.mk n)).map Fragment.cell = cells := by
  rw [List.map_map]
  exact List.map_id _

theorem source_mk {n : Nat} {cells : List Token} : ∀ f ∈ cells.map (Fragment.mk n), f.source = n := by
  intro f hf
  obtain ⟨cell, _, rfl⟩ := List.mem_map.1 hf
  rfl

theorem fragments_cons (n : Nat) (tok : Token) (ts : List Token) :
    fragments n (tok :: ts) = tok.cells.map (Fragment.mk n) ++ fragments (n + 1) ts := by
  rw [fragments, List.zipIdx_cons, List.flatMap_cons, fragments]

theorem le_source {n : Nat} {ts : List Token} : ∀ f ∈ fragments n ts, n ≤ f.source := by
  induction ts generalizing n with
  | nil => simp [fragments]
  | cons tok ts ih =>
    intro f hf
    rw [fragments_cons] at hf
    rcases List.mem_append.1 hf with hf | hf
    · exact Nat.le_of_eq (source_mk f hf).symm
    · exact Nat.le_of_succ_le (ih f hf)

/-- the cells of fragments are those of the stream -/
theorem fragments_cells (n : Nat) (ts : List Token) : (fragments n ts).map Fragment.cell = ts.flatMap Token.cells := by
  induction ts generalizing n with
  | nil => rfl
  | cons tok ts ih =>
    rw [fragments_cons, List.map_append, ih, map_cell_mk, List.flatMap_cons]

/-! ## Assembling -/

theorem Token.join_eq_nil_iff {cells : List Token} : Token.join cells = [] ↔ cells = [] := by
  rcases cells with _ | ⟨_ | _ | _, cells⟩ <;> simp [Token.join]

theorem Token.characters_raw (start : Int) (t : Text) : (Token.characters start t).flatMap Token.raw = t := by
  induction t generalizing start with
  | nil => rfl
  | cons c t ih => rw [Token.characters, List.flatMap_cons, ih, Token.raw, List.singleton_append]

/-- the code points of a text put together are the literal that they were -/
theorem Token.join_characters (start : Int) (t : Text) :
    Token.join (Token.characters start t) = Words.opening start t := by
  cases t with
  | nil => rfl
  | cons c t => simp [Token.characters, Token.join, Token.characters_raw, Words.opening]

@[simp] theorem assemble_nil : assemble [] = [] := rfl

theorem assemble_eq_nil_iff {run : List Fragment} : assemble run = [] ↔ run = [] := by
  constructor
  · intro h
    by_contra hne
    obtain ⟨part, parts, hparts⟩ := List.exists_cons_of_ne_nil (List.splitBy_ne_nil (r := Fragment.together).2 hne)
    have hpart : part ∈ run.splitBy Fragment.together := by simp [hparts]
    have hjoin := List.flatMap_eq_nil_iff.1 h part hpart
    exact List.ne_nil_of_mem_splitBy hpart (List.map_eq_nil_iff.1 (Token.join_eq_nil_iff.1 hjoin))
  · rintro rfl
    rfl

/-- parts of one token before a run that goes on with another -/
theorem assemble_append {n : Nat} {part run : List Fragment} (hpart : ∀ f ∈ part, f.source = n)
    (hrun : ∀ f ∈ run.head?, f.source ≠ n) :
    assemble (part ++ run) = Token.join (part.map Fragment.cell) ++ assemble run := by
  by_cases hne : part = []
  · simp [hne, Token.join]
  · have hchain : part.IsChain fun f g => Fragment.together f g = true := by
      refine List.Pairwise.isChain (List.pairwise_of_forall_mem_list ?_)
      intro f hf g hg
      simp [Fragment.together, hpart f hf, hpart g hg]
    have hborder : ∀ f ∈ part.getLast?, ∀ g ∈ run.head?, Fragment.together f g = false := by
      intro f hf g hg
      have hf : f.source = n := hpart f (List.mem_of_getLast? hf)
      simpa [Fragment.together, hf] using fun h => hrun g hg h.symm
    rw [assemble, List.splitBy_append hborder, List.splitBy_of_isChain hne hchain, List.flatMap_append,
      List.flatMap_singleton, assemble]

/-! ## What the splitter holds -/

namespace Words

/-- the words of fragments, with the run before the first blank kept apart -/
def partition (fs : List Fragment) : Partition :=
  ⟨assemble (fs.takeWhile (!·.isBlank)), (maximalRuns Fragment.isBlank (fs.dropWhile (!·.isBlank))).map assemble⟩

/-- with that run closed, they are the runs of all fragments -/
theorem partition_words (fs : List Fragment) :
    (partition fs).words = (maximalRuns Fragment.isBlank fs).map assemble := by
  have hsplit := List.takeWhile_append_dropWhile (p := fun f : Fragment => !f.isBlank) (l := fs)
  by_cases hfirst : fs.takeWhile (!·.isBlank) = []
  · rw [hfirst, List.nil_append] at hsplit
    rw [Partition.words, if_pos (by rw [partition, hfirst, assemble_nil]), partition, hsplit]
  · have hsolid : ∀ f ∈ fs.takeWhile (!·.isBlank), f.isBlank = false := by
      intro f hf
      simpa using List.mem_takeWhile_imp hf
    have hruns : maximalRuns Fragment.isBlank fs =
        fs.takeWhile (!·.isBlank) :: maximalRuns Fragment.isBlank (fs.dropWhile (!·.isBlank)) := by
      conv_lhs => rw [← hsplit]
      cases hdrop : fs.dropWhile (!·.isBlank) with
      | nil => simpa using maximalRuns_run (g := []) (l := []) hfirst hsolid (by simp) (by simp)
      | cons f rest =>
        have hf : f.isBlank = true := by
          have hhead := List.head?_dropWhile_not (fun f : Fragment => !f.isBlank) fs
          simpa [hdrop] using hhead
        have hblank : ∀ g ∈ [f], g.isBlank = true := by simpa using hf
        rw [← List.singleton_append, maximalRuns_run hfirst hsolid hblank (by simp), maximalRuns_blanks hblank]
    rw [Partition.words, if_neg (by rwa [partition, assemble_eq_nil_iff]), hruns, List.map_cons, partition]

/-- a blank closes the first run -/
theorem partition_blank {f : Fragment} (hf : f.isBlank = true) (fs : List Fragment) :
    partition (f :: fs) = ⟨[], (partition fs).words⟩ := by
  have hruns := maximalRuns_cut hf [] fs
  rw [maximalRuns_nil, List.nil_append, List.nil_append] at hruns
  rw [partition_words, partition, List.takeWhile_cons_of_neg (by simp [hf]), List.dropWhile_cons_of_neg (by simp [hf]),
    hruns, assemble_nil]

/-- parts of one token without blanks go before the first run, unless that run goes on with the same token -/
theorem partition_part {n : Nat} {part fs : List Fragment} (hpart : ∀ f ∈ part, f.source = n)
    (hsolid : ∀ f ∈ part, f.isBlank = false) (hfs : ∀ f ∈ (fs.takeWhile (!·.isBlank)).head?, f.source ≠ n) :
    partition (part ++ fs) = ⟨Token.join (part.map Fragment.cell) ++ (partition fs).first, (partition fs).later⟩ := by
  have hpass : ∀ f ∈ part, (!f.isBlank) = true := fun f hf => by simp [hsolid f hf]
  rw [partition, List.takeWhile_append_of_pos hpass, List.dropWhile_append_of_pos hpass, assemble_append hpart hfs,
    partition]

/-- what is open before fragments of other tokens goes on with another token -/
theorem first_source {n : Nat} {fs : List Fragment} (hfs : ∀ f ∈ fs, f.source ≠ n) :
    ∀ f ∈ (fs.takeWhile (!·.isBlank)).head?, f.source ≠ n := by
  intro f hf
  exact hfs f ((List.takeWhile_sublist _).subset (List.mem_of_mem_head? hf))

/-- no fragment of a literal without blanks is a blank -/
theorem characters_not_blank {s : Text} (hs : ∀ c ∈ s, c.isSpace = false) (start : Int) (n : Nat) :
    ∀ f ∈ (Token.characters start s).map (Fragment.mk n), f.isBlank = false := by
  intro f hf
  obtain ⟨cell, hcell, rfl⟩ := List.mem_map.1 hf
  rw [← characters_solid hs] at hcell
  simpa [Fragment.isBlank] using (List.mem_filter.1 hcell).2

/-- a literal before fragments of other tokens -/
theorem putLiteral_partition {n : Nat} {fs : List Fragment} (hfs : ∀ f ∈ fs, f.source ≠ n) (start : Int) (t : Text) :
    putLiteral start t (partition fs) = partition ((Token.characters start t).map (Fragment.mk n) ++ fs) := by
  induction start, t using blank_induction with
  | plain start s hs =>
    rw [putLiteral_plain hs, partition_part source_mk (characters_not_blank hs _ _) (first_source hfs), map_cell_mk,
      Token.join_characters]
  | blank start s c rest hs hc ih =>
    have hblank : Fragment.isBlank ⟨n, .literal [c] (start + s.length)⟩ = true := by
      simp [Fragment.isBlank, Token.isGap, hc]
    have hstop : ∀ f ∈ (List.takeWhile (!·.isBlank) (⟨n, .literal [c] (start + s.length)⟩ ::
        ((Token.characters (start + s.length + 1) rest).map (Fragment.mk n) ++ fs))).head?, f.source ≠ n := by
      rw [List.takeWhile_cons_of_neg (by simp [hblank])]
      simp
    rw [putLiteral_blank hs hc, ih, Token.characters_append, Token.characters, List.map_append, List.map_cons,
      List.append_assoc, List.cons_append, partition_part source_mk (characters_not_blank hs _ _) hstop,
      partition_blank hblank, map_cell_mk, Token.join_characters, List.append_nil]

/-- a token before fragments of other tokens -/
theorem put_partition {n : Nat} {fs : List Fragment} (hfs : ∀ f ∈ fs, f.source ≠ n) (tok : Token) :
    put tok (partition fs) = partition (tok.cells.map (Fragment.mk n) ++ fs) := by
  have hother := first_source hfs
  have hpart : ∀ f ∈ [Fragment.mk n tok], f.source = n := by simp
  cases tok with
  | literal s start => exact putLiteral_partition hfs start s
  | escape r v start => exact (partition_part hpart (by simp [Fragment.isBlank, Token.isGap]) hother).symm
  | interpolation e start => exact (partition_part hpart (by simp [Fragment.isBlank, Token.isGap]) hother).symm

/-- **What the splitter holds** is the partition of the fragments that it has read. -/
theorem foldr_put (n : Nat) (ts : List Token) : ts.foldr put ⟨[], []⟩ = partition (fragments n ts) := by
  induction ts generalizing n with
  | nil => simp [fragments, partition]
  | cons tok ts ih =>
    have hfs : ∀ f ∈ fragments (n + 1) ts, f.source ≠ n := by
      intro f hf
      have hle := le_source f hf
      omega
    rw [List.foldr_cons, ih (n + 1), put_partition hfs, fragments_cons]

end Words

/-- **Words are put together from runs of fragments.** -/
theorem splitWords_eq_assemble (ts : List Token) :
    splitWords ts = (maximalRuns Fragment.isBlank (fragments 0 ts)).map assemble := by
  rw [splitWords, Words.foldr_put 0, Words.partition_words]

/-! ## Words that are split again -/

namespace Words

/-- a token without blanks goes before the first word -/
theorem put_solid {tok : Token} (h : Pieces [tok]) (p : Partition) : put tok p = ⟨tok :: p.first, p.later⟩ := by
  cases tok with
  | literal s start =>
    obtain ⟨hne, hsolid⟩ := h s start List.mem_cons_self
    rw [put, putLiteral_plain hsolid, opening, if_neg hne, List.singleton_append]
  | escape r v start => rfl
  | interpolation e start => rfl

theorem foldr_put_solid {w : Word} (h : Pieces w) : w.foldr put ⟨[], []⟩ = ⟨w, []⟩ := by
  induction w with
  | nil => rfl
  | cons tok w ih =>
    have htok : Pieces [tok] := by
      intro s p hmem
      exact h s p (List.mem_cons.2 (.inl (List.mem_singleton.1 hmem)))
    have hw : Pieces w := fun s p hmem => h s p (List.mem_cons_of_mem tok hmem)
    rw [List.foldr_cons, ih hw, put_solid htok]

end Words

/-- **A word is split no further.** -/
theorem splitWords_solid {w : Word} (h : Words.Pieces w) (hne : w ≠ []) : splitWords w = [w] := by
  rw [splitWords, Words.foldr_put_solid h, Words.Partition.words, if_neg hne]

/-! ## Words in a text -/

/-- words in a text that begins at an offset, each with the blanks behind it; only the last may have none -/
inductive WordTiles : Int → Text → List Word → Prop where
  | nil (start : Int) : WordTiles start [] []
  | cons {start : Int} {w : Word} {u g rest : Text} {ws : List Word} :
      w ≠ [] → Scan.Tiles start u w → (∀ c ∈ g, c.isSpace) → (g = [] → ws = []) →
      WordTiles (start + u.length + g.length) rest ws → WordTiles start (u ++ (g ++ rest)) (w :: ws)

namespace Scan

variable {start : Int} {t : Text}

/-- cells that are put together take up what they took up apart -/
theorem Tiles.join {cells : List Token} (h : Tiles start t cells) : Tiles start t (Token.join cells) := by
  cases h with
  | nil => exact .nil start
  | @cons _ tok rest cells hstart hfilled htiles =>
    cases tok with
    | literal s p =>
      have hne : s ++ rest ≠ [] := List.append_ne_nil_of_left_ne_nil hfilled rest
      have htile := @Tiles.cons start (.literal (s ++ rest) p) [] [] hstart hne (.nil _)
      rw [Token.join, htiles.concat]
      simpa [Token.raw] using htile
    | escape r v p => exact .cons hstart hfilled htiles
    | interpolation e p => exact .cons hstart hfilled htiles

theorem Tiles.joins {parts : List (List Fragment)} (h : Tiles start t (parts.flatten.map Fragment.cell)) :
    Tiles start t (parts.flatMap fun part => Token.join (part.map Fragment.cell)) := by
  induction parts generalizing start t with
  | nil => exact h
  | cons part parts ih =>
    rw [List.flatten_cons, List.map_append] at h
    obtain ⟨u, v, rfl, hu, hv⟩ := h.append_inv
    exact hu.join.append (ih hv)

theorem Tiles.assembled {run : List Fragment} (h : Tiles start t (run.map Fragment.cell)) :
    Tiles start t (assemble run) := by
  rw [← List.flatten_splitBy Fragment.together run] at h
  exact h.joins

/-- what blanks of literals tile is blank -/
theorem Tiles.blank {cells : List Token} (h : Tiles start t cells) (hgap : ∀ cell ∈ cells, cell.isGap) :
    ∀ c ∈ t, c.isSpace := by
  intro c hc
  rw [← h.concat] at hc
  obtain ⟨cell, hcell, hc⟩ := List.mem_flatMap.1 hc
  cases cell with
  | literal s p => exact List.all_eq_true.1 (hgap _ hcell) c hc
  | escape r v p => cases hgap _ hcell
  | interpolation e p => cases hgap _ hcell

end Scan

theorem isGap_of_isBlank {g : List Fragment} (h : ∀ f ∈ g, f.isBlank = true) :
    ∀ cell ∈ g.map Fragment.cell, cell.isGap := by
  intro cell hcell
  obtain ⟨f, hf, rfl⟩ := List.mem_map.1 hcell
  exact h f hf

/-- runs of fragments that tile a text are words that do, with the blanks between them -/
theorem Parted.wordTiles {ps : List (List Fragment × List Fragment)} (h : Parted Fragment.isBlank ps) {start : Int}
    {t : Text} (ht : Scan.Tiles start t ((ps.flatMap fun p => p.1 ++ p.2).map Fragment.cell)) :
    WordTiles start t (ps.map fun p => assemble p.1) := by
  induction h generalizing start t with
  | nil =>
    cases ht
    exact .nil start
  | @cons r g ps hne _ hg hlast _ ih =>
    rw [List.flatMap_cons, List.append_assoc, List.map_append, List.map_append] at ht
    obtain ⟨u, v, rfl, hu, hv⟩ := ht.append_inv
    obtain ⟨b, rest, rfl, hb, hrest⟩ := hv.append_inv
    refine .cons (mt assemble_eq_nil_iff.1 hne) hu.assembled (hb.blank (isGap_of_isBlank hg)) ?_ (ih hrest)
    rintro rfl
    rw [hlast (List.map_eq_nil_iff.1 hb.tokens_nil), List.map_nil]

/-- **Words tile a text** with the blanks around them, where the tokens that they are words of do. -/
theorem Scan.Tiles.words {t : Text} {ts : List Token} (h : Tiles 0 t ts) :
    ∃ lead rest, t = lead ++ rest ∧ (∀ c ∈ lead, c.isSpace) ∧ WordTiles lead.length rest (splitWords ts) := by
  obtain ⟨blanks, ps, hfragments, hblanks, hps⟩ := exists_parted Fragment.isBlank (fragments 0 ts)
  have hcells := h.cells
  rw [← fragments_cells 0, hfragments, List.map_append] at hcells
  obtain ⟨lead, rest, rfl, hlead, hrest⟩ := hcells.append_inv
  refine ⟨lead, rest, rfl, hlead.blank (isGap_of_isBlank hblanks), ?_⟩
  have hwords : splitWords ts = ps.map fun p => assemble p.1 := by
    rw [splitWords_eq_assemble, hfragments, maximalRuns_blanks hblanks, hps.runs, List.map_map]
    rfl
  rw [hwords]
  simpa using hps.wordTiles hrest

/-- **Words are the reference partition** of every token stream. They are its runs of fragments between blanks of
literals, each put together. None of them is empty, holds an empty literal or is split any further, and their cells are
those of the stream but for the blanks. The words of a scanned template tile it, with the blanks around them. -/
theorem splitWords_reference (ts : List Token) :
    splitWords ts = (maximalRuns Fragment.isBlank (fragments 0 ts)).map assemble ∧
      (∀ w ∈ splitWords ts, w ≠ [] ∧ (∀ s p, .literal s p ∈ w → s ≠ []) ∧ splitWords w = [w]) ∧
      (splitWords ts).flatten.flatMap Token.cells = (ts.flatMap Token.cells).filter (!·.isGap) ∧
      ∀ names mode t, scan names mode t = .ok ts →
        ∃ lead rest, t = lead ++ rest ∧ (∀ c ∈ lead, c.isSpace) ∧ WordTiles lead.length rest (splitWords ts) := by
  refine ⟨splitWords_eq_assemble ts, ?_, splitWords_cells ts, ?_⟩
  · intro w hw
    obtain ⟨k, hk, _⟩ := splitWords_layout ts
    exact ⟨hk.filled w hw, fun s p hmem => (hk.pieces w hw s p hmem).1, splitWords_solid (hk.pieces w hw) (hk.filled w hw)⟩
  · intro names mode t h
    exact (Scan.tiles_of_scan h).words

/-- blanks at both ends, and a word that begins in one literal, goes on in others and ends inside the last -/
theorem splitWords_reference_scanned :
    ∃ w v, scan .none .interpolatedWords (text " a\\tb#{x y}c  d ") =
        .ok [.literal (text " a") 0, .escape (text "\\t") (text "\t") 2, .literal (text "b") 4,
          .interpolation (text "x y") 5, .literal (text "c  d ") 11] ∧
      w = [.literal (text "a") 1, .escape (text "\\t") (text "\t") 2, .literal (text "b") 4,
        .interpolation (text "x y") 5, .literal (text "c") 11] ∧
      v = [.literal (text "d") 14] ∧ splitWords w = [w] ∧ splitWords v = [v] ∧
      ∃ lead rest, text " a\\tb#{x y}c  d " = lead ++ rest ∧ (∀ c ∈ lead, c.isSpace) ∧
        WordTiles lead.length rest [w, v] := by
  have hscan : scan .none .interpolatedWords (text " a\\tb#{x y}c  d ") =
      .ok [.literal (text " a") 0, .escape (text "\\t") (text "\t") 2, .literal (text "b") 4,
        .interpolation (text "x y") 5, .literal (text "c  d ") 11] := by cbv
  obtain ⟨hruns, hwords, _, htiles⟩ := splitWords_reference [.literal (text " a") 0,
    .escape (text "\\t") (text "\t") 2, .literal (text "b") 4, .interpolation (text "x y") 5,
    .literal (text "c  d ") 11]
  have hsplit := hruns.trans (show _ = [[.literal (text "a") 1, .escape (text "\\t") (text "\t") 2,
    .literal (text "b") 4, .interpolation (text "x y") 5, .literal (text "c") 11], [.literal (text "d") 14]] by decide)
  have hfound := htiles _ _ _ hscan
  rw [hsplit] at hwords hfound
  exact ⟨_, _, hscan, rfl, rfl, (hwords _ List.mem_cons_self).2.2,
    (hwords _ (List.mem_cons_of_mem _ List.mem_cons_self)).2.2, hfound⟩

end PercentLiteral

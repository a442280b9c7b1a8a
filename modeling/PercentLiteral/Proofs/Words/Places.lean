/-
The places of a text that its tokens and its words take up.

A token covers the places from its start up to its stop. Its cells are its indivisible parts: the code points of a
literal one by one, and any other token as a whole. What tiles a text does so cell by cell (`Tiles.cells`), each place
of the text lies in one cell (`Tiles.cover`), and cells lie apart (`Tiles.apart`).

- `splitWords_cells`: the cells of a stream's words are those of the stream without the blanks of its literals, each at
  its place.
- `covered_iff`: a place lies in a word exactly if it is no such blank; `word_unique`: and then in one alone.
-/
import PercentLiteral.Proofs.Scan.Tiling
import PercentLiteral.Proofs.Words.Layout

namespace PercentLiteral

/-! ## Places and cells -/

namespace Token

/-- whether a place is one of those that a token takes up -/
def Covers (tok : Token) (i : Nat) : Prop := tok.start ≤ i ∧ (i : Int) < tok.stop

instance (tok : Token) (i : Nat) : Decidable (tok.Covers i) := inferInstanceAs (Decidable (_ ∧ _))

/-- a text from an offset on, as literals of one code point each -/
def characters (start : Int) : Text → List Token
  | [] => []
  | c :: t => .literal [c] start :: characters (start + 1) t

/-- the indivisible parts of a token -/
def cells : Token → List Token
  | literal t start => characters start t
  | tok => [tok]

/-- a literal of blanks alone -/
def isGap : Token → Bool
  | literal t _ => t.all CodePoint.isSpace
  | _ => false

theorem characters_append (start : Int) (s t : Text) :
    characters start (s ++ t) = characters start s ++ characters (start + s.length) t := by
  induction s generalizing start with
  | nil => simp [characters]
  | cons c s ih =>
    have hoffset : start + 1 + (s.length : Int) = start + ((c :: s).length : Int) := by
      rw [List.length_cons]
      omega
    rw [List.cons_append, characters, characters, ih, hoffset, List.cons_append]

theorem cells_of_not_literal {tok : Token} (h : ∀ s p, tok ≠ .literal s p) : tok.cells = [tok] := by
  cases tok with
  | literal s p => exact absurd rfl (h s p)
  | escape r v p => rfl
  | interpolation e p => rfl

theorem characters_covers {start : Int} {t : Text} {i : Nat} :
    (∃ cell ∈ characters start t, cell.Covers i) ↔ start ≤ i ∧ (i : Int) < start + t.length := by
  induction t generalizing start with
  | nil => simp [characters]
  | cons c t ih =>
    have hfirst : (literal [c] start).Covers i ↔ start ≤ i ∧ (i : Int) < start + 1 := Iff.rfl
    rw [characters, List.exists_mem_cons_iff, ih, hfirst, List.length_cons]
    omega

/-- the cells of a literal are its code points -/
theorem eq_of_mem_characters {start : Int} {t : Text} {cell : Token} (h : cell ∈ characters start t) :
    ∃ c p, cell = .literal [c] p := by
  induction t generalizing start with
  | nil => cases h
  | cons c t ih =>
    rcases List.mem_cons.1 h with rfl | h
    · exact ⟨c, start, rfl⟩
    · exact ih h

theorem isLiteral_of_mem_characters {start : Int} {t : Text} {cell : Token} (h : cell ∈ characters start t) :
    cell.isLiteral = true := by
  obtain ⟨c, p, rfl⟩ := eq_of_mem_characters h
  rfl

/-- a token that is no literal is a cell -/
theorem mem_cells_iff {ts : List Token} {tok : Token} (h : tok.isLiteral = false) :
    tok ∈ ts.flatMap cells ↔ tok ∈ ts := by
  rw [List.mem_flatMap]
  constructor
  · rintro ⟨tok', htok', hmem⟩
    cases tok' with
    | literal s p => simp [isLiteral_of_mem_characters hmem] at h
    | escape r v p => exact List.mem_singleton.1 hmem ▸ htok'
    | interpolation e p => exact List.mem_singleton.1 hmem ▸ htok'
  · intro hmem
    refine ⟨tok, hmem, ?_⟩
    rw [cells_of_not_literal (by rintro s p rfl; cases h)]
    exact List.mem_singleton_self tok

/-- a token covers what one of its cells covers -/
theorem cells_covers {tok : Token} {i : Nat} : (∃ cell ∈ tok.cells, cell.Covers i) ↔ tok.Covers i := by
  cases tok with
  | literal s p => exact characters_covers
  | escape r v p => simp [cells]
  | interpolation e p => simp [cells]

theorem flatMap_cells_covers {ts : List Token} {i : Nat} :
    (∃ cell ∈ ts.flatMap cells, cell.Covers i) ↔ ∃ tok ∈ ts, tok.Covers i := by
  constructor
  · rintro ⟨cell, hcell, hcovers⟩
    obtain ⟨tok, htok, hmem⟩ := List.mem_flatMap.1 hcell
    exact ⟨tok, htok, cells_covers.1 ⟨cell, hmem, hcovers⟩⟩
  · rintro ⟨tok, htok, hcovers⟩
    obtain ⟨cell, hmem, hcell⟩ := cells_covers.2 hcovers
    exact ⟨cell, List.mem_flatMap.2 ⟨tok, htok, hmem⟩, hcell⟩

end Token

namespace Scan

variable {start : Int} {t : Text} {ts : List Token}

theorem Tiles.characters {rest : Text} (s : Text) (h : Tiles (start + s.length) rest ts) :
    Tiles start (s ++ rest) (Token.characters start s ++ ts) := by
  induction s generalizing start with
  | nil => simpa [Token.characters] using h
  | cons c s ih =>
    have htiles : Tiles (start + 1) (s ++ rest) (Token.characters (start + 1) s ++ ts) := by
      apply ih
      convert h using 1
      rw [List.length_cons]
      omega
    exact @Tiles.cons start (.literal [c] start) (s ++ rest) _ rfl (List.cons_ne_nil c []) htiles

/-- what tiles a text does so cell by cell -/
theorem Tiles.cells (h : Tiles start t ts) : Tiles start t (ts.flatMap Token.cells) := by
  induction h with
  | nil start => exact .nil start
  | @cons start tok rest ts hstart hfilled _ ih =>
    rw [List.flatMap_cons]
    cases tok with
    | literal s p =>
      obtain rfl : p = start := hstart
      exact ih.characters s
    | escape r v p => exact .cons hstart hfilled ih
    | interpolation e p => exact .cons hstart hfilled ih

/-- each place of a text is covered -/
theorem Tiles.cover (h : Tiles start t ts) {i : Nat} (hlow : start ≤ i) (hhigh : (i : Int) < start + t.length) :
    ∃ before tok behind, ts = before ++ tok :: behind ∧ tok.Covers i := by
  induction h with
  | nil start =>
    rw [List.length_nil] at hhigh
    omega
  | @cons start tok rest ts hstart hfilled htiles ih =>
    by_cases hcovers : (i : Int) < start + tok.raw.length
    · exact ⟨[], tok, ts, rfl, by rw [hstart]; exact hlow, by rw [Token.stop, hstart]; exact hcovers⟩
    · have hbehind : (i : Int) < start + tok.raw.length + rest.length := by
        rw [List.length_append] at hhigh
        omega
      obtain ⟨before, tok', behind, rfl, hcovers'⟩ := ih (by omega) hbehind
      exact ⟨tok :: before, tok', behind, rfl, hcovers'⟩

theorem Tiles.start_le (h : Tiles start t ts) : ∀ tok ∈ ts, start ≤ tok.start := by
  intro tok htok
  obtain ⟨before, _, _, hstart⟩ := h.place tok htok
  omega

/-- tokens side by side lie apart -/
theorem Tiles.apart (h : Tiles start t ts) : ts.Pairwise fun a b => a.stop ≤ b.start := by
  induction h with
  | nil start => exact .nil
  | @cons start tok rest ts hstart _ htiles ih =>
    refine List.pairwise_cons.2 ⟨?_, ih⟩
    intro later hlater
    have hle := htiles.start_le later hlater
    rw [Token.stop, hstart]
    exact hle

end Scan

/-! ## Cells of words -/

namespace Words

/-- the cells of the words of a partition -/
def Partition.cells (p : Partition) : List Token := p.words.flatten.flatMap Token.cells

theorem Partition.words_flatten (p : Partition) : p.words.flatten = p.first ++ p.later.flatten := by
  unfold Partition.words
  split
  · rename_i hfirst
    rw [hfirst, List.nil_append]
  · rw [List.flatten_cons]

theorem Partition.cells_eq (p : Partition) :
    p.cells = p.first.flatMap Token.cells ++ p.later.flatten.flatMap Token.cells := by
  rw [Partition.cells, p.words_flatten, List.flatMap_append]

theorem characters_solid {start : Int} {t : Text} (h : ∀ c ∈ t, c.isSpace = false) :
    (Token.characters start t).filter (!·.isGap) = Token.characters start t := by
  induction t generalizing start with
  | nil => rfl
  | cons c t ih =>
    obtain ⟨hc, ht⟩ := List.forall_mem_cons.1 h
    have hsolid : (!(Token.literal [c] start).isGap) = true := by simp [Token.isGap, hc]
    rw [Token.characters, List.filter_cons, if_pos hsolid, ih ht]

theorem opening_cells (start : Int) (piece : Text) :
    (opening start piece).flatMap Token.cells = Token.characters start piece := by
  unfold opening
  split
  · rename_i hnil
    rw [hnil]
    rfl
  · simp [Token.cells]

theorem characters_blank {start : Int} {s rest : Text} {c : CodePoint} (hs : ∀ d ∈ s, d.isSpace = false)
    (hc : c.isSpace = true) :
    (Token.characters start (s ++ c :: rest)).filter (!·.isGap) =
      Token.characters start s ++ (Token.characters (start + s.length + 1) rest).filter (!·.isGap) := by
  have hblank : (Token.literal [c] (start + s.length)).isGap = true := by simp [Token.isGap, hc]
  rw [Token.characters_append, List.filter_append, characters_solid hs, Token.characters,
    List.filter_cons_of_neg (by simp [hblank])]

/-- a literal before a partition adds its cells but for the blanks -/
theorem putLiteral_cells (start : Int) (t : Text) (p : Partition) :
    (putLiteral start t p).cells = (Token.characters start t).filter (!·.isGap) ++ p.cells := by
  induction start, t using blank_induction with
  | plain start s hs =>
    rw [putLiteral_plain hs, characters_solid hs, Partition.cells_eq, Partition.cells_eq, List.flatMap_append,
      opening_cells, List.append_assoc]
  | blank start s c rest hs hc ih =>
    rw [putLiteral_blank hs hc, Partition.cells_eq, opening_cells, characters_blank hs hc, List.append_assoc, ← ih,
      Partition.cells]

/-- a token before a partition adds its cells but for the blanks of a literal -/
theorem put_cells (tok : Token) (p : Partition) :
    (put tok p).cells = tok.cells.filter (!·.isGap) ++ p.cells := by
  cases tok with
  | literal s start => exact putLiteral_cells start s p
  | escape r v start => simp [put, Partition.cells_eq, Token.cells, Token.isGap]
  | interpolation e start => simp [put, Partition.cells_eq, Token.cells, Token.isGap]

end Words

/-- **Words keep the places of what they hold.** The cells of a stream's words are those of the stream, in order and at
their places, without the blanks of its literals. -/
theorem splitWords_cells (ts : List Token) :
    (splitWords ts).flatten.flatMap Token.cells = (ts.flatMap Token.cells).filter (!·.isGap) := by
  have hfoldr : (ts.foldr Words.put ⟨[], []⟩).cells = (ts.flatMap Token.cells).filter (!·.isGap) := by
    induction ts with
    | nil => rfl
    | cons tok ts ih => rw [List.foldr_cons, Words.put_cells, ih, List.flatMap_cons, List.filter_append]
  exact hfoldr

/-! ## Places of words -/

/-- whether a place is one of those that a word takes up -/
def Word.Covers (w : Word) (i : Nat) : Prop := ∃ tok ∈ w, tok.Covers i

section Place

variable {t : Text} {ts before behind : List Token} {cell : Token} {i : Nat}

/-- of cells that lie apart, one alone covers a place -/
theorem cell_unique (h : (before ++ cell :: behind).Pairwise fun a b => a.stop ≤ b.start) (hcell : cell.Covers i) :
    ∀ other ∈ before ++ cell :: behind, other.Covers i → other = cell := by
  intro other hother hcovers
  obtain ⟨_, hbehind, hbefore⟩ := List.pairwise_append.1 h
  obtain ⟨hlow, hhigh⟩ := hcell
  obtain ⟨hlow', hhigh'⟩ := hcovers
  rcases List.mem_append.1 hother with hmem | hmem
  · have hle := hbefore other hmem cell List.mem_cons_self
    omega
  · rcases List.mem_cons.1 hmem with heq | hmem
    · exact heq
    · have hle := List.rel_of_pairwise_cons hbehind hmem
      omega

/-- a token that is no literal is the cell at the places that it covers -/
theorem eq_cell (htiles : Scan.Tiles 0 t ts) (hcells : ts.flatMap Token.cells = before ++ cell :: behind)
    (hcell : cell.Covers i) {tok : Token} (htok : tok ∈ ts) (hliteral : tok.isLiteral = false) (hcovers : tok.Covers i) :
    tok = cell := by
  have hapart := htiles.cells.apart
  have hmem := (Token.mem_cells_iff hliteral).2 htok
  rw [hcells] at hapart hmem
  exact cell_unique hapart hcell tok hmem hcovers

/-- a place is covered by a literal exactly if the cell at the place is one -/
theorem literal_iff (htiles : Scan.Tiles 0 t ts) (hcells : ts.flatMap Token.cells = before ++ cell :: behind)
    (hcell : cell.Covers i) : (∃ tok ∈ ts, tok.isLiteral ∧ tok.Covers i) ↔ cell.isLiteral := by
  have hapart := htiles.cells.apart
  rw [hcells] at hapart
  constructor
  · rintro ⟨tok, htok, hliteral, hcovers⟩
    cases tok with
    | literal s p =>
      obtain ⟨c, hc, hccovers⟩ := Token.cells_covers.2 hcovers
      have hmem : c ∈ before ++ cell :: behind := hcells ▸ List.mem_flatMap.2 ⟨_, htok, hc⟩
      rw [← cell_unique hapart hcell c hmem hccovers]
      exact Token.isLiteral_of_mem_characters hc
    | escape r v p => cases hliteral
    | interpolation e p => cases hliteral
  · intro hliteral
    have hmem : cell ∈ ts.flatMap Token.cells := by simp [hcells]
    obtain ⟨tok, htok, hc⟩ := List.mem_flatMap.1 hmem
    refine ⟨tok, htok, ?_, Token.cells_covers.1 ⟨cell, hc, hcell⟩⟩
    cases tok with
    | literal s p => rfl
    | escape r v p => exact List.mem_singleton.1 hc ▸ hliteral
    | interpolation e p => exact List.mem_singleton.1 hc ▸ hliteral

/-- a place is covered by a word exactly if the cell at the place is no gap -/
theorem covered_iff (htiles : Scan.Tiles 0 t ts) (hcells : ts.flatMap Token.cells = before ++ cell :: behind)
    (hcell : cell.Covers i) : (∃ w ∈ splitWords ts, Word.Covers w i) ↔ cell.isGap = false := by
  have hapart := htiles.cells.apart
  rw [hcells] at hapart
  have hwords : (∃ w ∈ splitWords ts, Word.Covers w i) ↔
      ∃ c ∈ (ts.flatMap Token.cells).filter (!·.isGap), c.Covers i := by
    rw [← splitWords_cells, Token.flatMap_cells_covers]
    constructor
    · rintro ⟨w, hw, tok, htok, hcovers⟩
      exact ⟨tok, List.mem_flatten.2 ⟨w, hw, htok⟩, hcovers⟩
    · rintro ⟨tok, htok, hcovers⟩
      obtain ⟨w, hw, hmem⟩ := List.mem_flatten.1 htok
      exact ⟨w, hw, tok, hmem, hcovers⟩
  rw [hwords, hcells]
  constructor
  · rintro ⟨c, hc, hcovers⟩
    obtain ⟨hmem, hsolid⟩ := List.mem_filter.1 hc
    rw [cell_unique hapart hcell c hmem hcovers] at hsolid
    simpa using hsolid
  · intro hsolid
    exact ⟨cell, List.mem_filter.2 ⟨by simp, by simp [hsolid]⟩, hcell⟩

theorem words_apart (htiles : Scan.Tiles 0 t ts) :
    (splitWords ts).Pairwise fun u w => ¬ (Word.Covers u i ∧ Word.Covers w i) := by
  have hapart := htiles.cells.apart.filter (!·.isGap)
  rw [← splitWords_cells, List.flatten_eq_flatMap, List.flatMap_assoc, List.pairwise_flatMap] at hapart
  refine hapart.2.imp ?_
  rintro u w huw ⟨hu, hw⟩
  obtain ⟨a, ha, _, hhigh⟩ := Token.flatMap_cells_covers.2 hu
  obtain ⟨b, hb, hlow, _⟩ := Token.flatMap_cells_covers.2 hw
  have hle := huw a ha b hb
  omega

/-- a place that words cover is covered by one alone -/
theorem word_unique (htiles : Scan.Tiles 0 t ts) (h : ∃ w ∈ splitWords ts, Word.Covers w i) :
    ∃! k : Nat, ∃ w, (splitWords ts)[k]? = some w ∧ Word.Covers w i := by
  have hapart := List.pairwise_iff_getElem.1 (words_apart htiles (i := i))
  obtain ⟨w, hmem, hw⟩ := h
  obtain ⟨k, hk⟩ := List.mem_iff_getElem?.1 hmem
  refine ⟨k, ⟨w, hk, hw⟩, ?_⟩
  rintro l ⟨u, hl, hu⟩
  obtain ⟨hklt, rfl⟩ := List.getElem?_eq_some_iff.1 hk
  obtain ⟨hllt, rfl⟩ := List.getElem?_eq_some_iff.1 hl
  rcases Nat.lt_trichotomy l k with hlt | heq | hgt
  · exact absurd ⟨hu, hw⟩ (hapart l k hllt hklt hlt)
  · exact heq
  · exact absurd ⟨hw, hu⟩ (hapart k l hklt hllt hgt)

end Place

end PercentLiteral

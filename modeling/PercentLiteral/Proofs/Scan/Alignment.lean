/-
Where a scanner stands when it meets a run of backslashes.

A scanner takes backslashes in pairs. It is aligned between two parts of a text if, where the part behind begins with a
code point that a backslash would take along, the part before ends with an even number of backslashes. No step of a
scanner leaves this: neither a token (`Aligned.token`) nor a code point that begins none (`Aligned.plain`), and so it
holds at every border between cells (`Steps.aligned`).

`Steps.place`: each place of a text lies in a cell at whose border the scanner was aligned, and which is a token that
was recognized there or one code point that begins none.
-/
import PercentLiteral.Proofs.Words.Places
import Mathlib.Algebra.Group.Nat.Even

namespace PercentLiteral

/-- how many backslashes stand at the end of a text -/
def slashes (t : Text) : Nat := (t.reverse.takeWhile (· = .backslash)).length

theorem slashes_nil : slashes [] = 0 := rfl

theorem slashes_backslash (t : Text) : slashes (t ++ [.backslash]) = slashes t + 1 := by
  simp [slashes]

theorem slashes_other (t : Text) {c : CodePoint} (h : c ≠ .backslash) : slashes (t ++ [c]) = 0 := by
  simp [slashes, h]

namespace Scan

/-! ## Alignment -/

/-- a scanner that takes backslashes in pairs: a backslash is no text before what it takes along, and a token ends with
no backslash but the second of two -/
structure Rules.Pairs (R : Rules) (takes : CodePoint → Prop) : Prop where
  backslash : takes .backslash
  plain : ∀ {d rest}, R.plain (.backslash :: d :: rest) → ¬ takes d
  token : ∀ {start t tok}, R.token start t tok →
    tok.raw = [.backslash, .backslash] ∨ ∃ r c, tok.raw = r ++ [c] ∧ c ≠ .backslash

/-- before a code point that a backslash would take along, backslashes are paired -/
def Aligned (takes : CodePoint → Prop) (before behind : Text) : Prop :=
  ∀ c ∈ behind.head?, takes c → Even (slashes before)

variable {R : Rules} {takes : CodePoint → Prop} {before rest : Text} {start : Int}

theorem aligned_nil (behind : Text) : Aligned takes [] behind := by
  intro c _ _
  rw [slashes_nil]
  exact Even.zero

theorem Aligned.token (hR : R.Pairs takes) {tok : Token} (h : R.token start (tok.raw ++ rest) tok)
    (ha : Aligned takes before (tok.raw ++ rest)) : Aligned takes (before ++ tok.raw) rest := by
  intro d _ _
  rcases hR.token h with hpair | ⟨r, c, hraw, hc⟩
  · have heven : Even (slashes before) := ha .backslash (by simp [hpair]) hR.backslash
    have hsplit : before ++ tok.raw = (before ++ [.backslash]) ++ [.backslash] := by simp [hpair]
    rw [hsplit, slashes_backslash, slashes_backslash]
    exact heven.add (show Even 2 by decide)
  · rw [hraw, ← List.append_assoc, slashes_other _ hc]
    exact Even.zero

theorem Aligned.plain (hR : R.Pairs takes) (before : Text) {c : CodePoint} (h : R.plain (c :: rest)) :
    Aligned takes (before ++ [c]) rest := by
  intro d hd htakes
  by_cases hc : c = .backslash
  · -- a backslash that is text takes nothing along
    obtain ⟨rest', rfl⟩ := List.head?_eq_some_iff.1 hd
    rw [hc] at h
    exact absurd htakes (hR.plain h)
  · rw [slashes_other _ hc]
    exact Even.zero

/-! ## Steps -/

/-- a run in steps of one cell each -/
inductive Steps (R : Rules) : Int → Text → List Token → Prop where
  | done (start : Int) : Steps R start [] []
  | token {start : Int} {tok : Token} {rest : Text} {cells : List Token} :
      R.token start (tok.raw ++ rest) tok → Steps R (start + tok.raw.length) rest cells →
      Steps R start (tok.raw ++ rest) (tok :: cells)
  | plain {start : Int} {c : CodePoint} {rest : Text} {cells : List Token} :
      R.plain (c :: rest) → Steps R (start + 1) rest cells → Steps R start (c :: rest) (.literal [c] start :: cells)

/-- a code point before tokens is a cell of its own before their cells -/
theorem cells_cons {t : Text} {ts : List Token} (h : Tiles (start + 1) t ts) (c : CodePoint) :
    (Token.cons c start ts).flatMap Token.cells = .literal [c] start :: ts.flatMap Token.cells := by
  rcases cons_cases c start ts with ⟨s, p, ts', rfl, he⟩ | ⟨_, he⟩
  · obtain rfl : p = start + 1 := h.first (.literal s p) rfl
    rw [he]
    rfl
  · rw [he]
    rfl

/-- the tokens of a run are its steps put together -/
theorem Run.steps (hR : R.Sound) {t : Text} {ts : List Token} (h : Run R start t ts) :
    Steps R start t (ts.flatMap Token.cells) := by
  induction h with
  | done start => exact .done start
  | token htok _ ih =>
    rw [List.flatMap_cons, Token.cells_of_not_literal (hR.not_literal htok)]
    exact .token htok ih
  | plain hplain hrun ih =>
    rw [cells_cons (hrun.tiles hR)]
    exact .plain hplain ih

/-- between two cells a scanner is aligned -/
theorem Steps.aligned (hR : R.Pairs takes) {t : Text} {done cells : List Token} (h : Steps R start t (done ++ cells))
    (ha : Aligned takes before t) :
    ∃ rest, t = done.flatMap Token.raw ++ rest ∧ Steps R (start + (done.flatMap Token.raw).length) rest cells ∧
      Aligned takes (before ++ done.flatMap Token.raw) rest := by
  induction done generalizing start t before with
  | nil => exact ⟨t, rfl, by simpa using h, by simpa using ha⟩
  | cons cell done ih =>
    have hoffset : start + cell.raw.length + ((done.flatMap Token.raw).length : Int) =
        start + ((cell :: done).flatMap Token.raw).length := by
      rw [List.flatMap_cons, List.length_append]
      omega
    rw [List.cons_append] at h
    cases h with
    | token htok hsteps =>
      obtain ⟨rest, rfl, hrest, haligned⟩ := ih hsteps (ha.token hR htok)
      rw [hoffset] at hrest
      exact ⟨rest, by simp, hrest, by simpa using haligned⟩
    | plain hplain hsteps =>
      obtain ⟨rest, rfl, hrest, haligned⟩ := ih hsteps (Aligned.plain hR before hplain)
      rw [← hoffset]
      exact ⟨rest, by simp [Token.raw], hrest, by simpa [Token.raw] using haligned⟩

/-! ## Places -/

/-- the cell at a place: what stands before it and behind it, and why it is one -/
structure Place (R : Rules) (takes : CodePoint → Prop) (t : Text) (cells : List Token) (i : Nat) (before : Text)
    (cell : Token) (rest : Text) : Prop where
  split : t = before ++ (cell.raw ++ rest)
  cells : ∃ done later, cells = done ++ cell :: later
  covers : cell.Covers i
  start : cell.start = before.length
  aligned : Aligned takes before (cell.raw ++ rest)
  found : R.token before.length (cell.raw ++ rest) cell ∨
    ∃ c, cell = .literal [c] before.length ∧ R.plain (c :: rest)

/-- each place of a text lies in a cell -/
theorem Steps.place (hsound : R.Sound) (hR : R.Pairs takes) {t : Text} {cells : List Token} (h : Steps R 0 t cells)
    (htiles : Tiles 0 t cells) {i : Nat} (hi : i < t.length) :
    ∃ before cell rest, Place R takes t cells i before cell rest := by
  obtain ⟨done, cell, later, rfl, hcovers⟩ := htiles.cover (Int.natCast_nonneg i) (by omega)
  obtain ⟨behind, hsplit, hsteps, haligned⟩ := h.aligned hR (aligned_nil t)
  rw [Int.zero_add] at hsteps
  rw [List.nil_append] at haligned
  refine ⟨done.flatMap Token.raw, cell, ?_⟩
  cases hsteps with
  | @token _ _ rest _ htok _ =>
    exact ⟨rest, hsplit, ⟨done, later, rfl⟩, hcovers, hsound.start htok, haligned, Or.inl htok⟩
  | @plain _ c rest _ hplain _ =>
    exact ⟨rest, hsplit, ⟨done, later, rfl⟩, hcovers, rfl, haligned, Or.inr ⟨c, rfl, hplain⟩⟩

/-- the code point at a place is one of the cell's -/
theorem Place.get {t : Text} {cells : List Token} {i : Nat} {cell : Token}
    (h : Place R takes t cells i before cell rest) {c : CodePoint} (hc : t[i]? = some c) :
    ∃ k, i = before.length + k ∧ cell.raw[k]? = some c := by
  obtain ⟨hlow, hhigh⟩ := h.covers
  rw [h.start] at hlow
  rw [Token.stop, h.start] at hhigh
  obtain ⟨k, rfl⟩ : ∃ k, i = before.length + k := ⟨i - before.length, by omega⟩
  refine ⟨k, rfl, ?_⟩
  rw [h.split, List.getElem?_append_right (by omega), List.getElem?_append_left (by omega)] at hc
  simpa using hc

/-- what stands before a place, if it is the first of its cell -/
theorem Place.take_first {t : Text} {cells : List Token} {i : Nat} {cell : Token}
    (h : Place R takes t cells i before cell rest) : t.take before.length = before := by
  rw [h.split, List.take_left]

/-- and if it is the second of a cell that begins with a backslash -/
theorem Place.take_second {t : Text} {cells : List Token} {i : Nat} {cell : Token} {body : Text}
    (h : Place R takes t cells i before cell rest) (hraw : cell.raw = .backslash :: body) :
    t.take (before.length + 1) = before ++ [.backslash] := by
  have hsplit : t = (before ++ [.backslash]) ++ (body ++ rest) := by simp [h.split, hraw]
  rw [hsplit, List.take_left' (by simp)]

end Scan

end PercentLiteral

/-
The names that interpolations can have.

An expression is taken as a name without the blanks at its ends. Blanks are no braces, so they change nothing about
whether braces match (`balanced_strip`), and stripping leaves exactly the texts that it can give (`strip_eq_self_iff`).
So a name can be written in a template just if its braces match and it has no blanks at its ends
(`exists_named_iff`), and then between the marks as it is (`scan_named`).
-/
import PercentLiteral.Proofs.Render.Calls
import PercentLiteral.Proofs.Scan.Printing
import Mathlib.Data.List.DropRight

namespace PercentLiteral

/-! ## Stripping -/

namespace Text

/-- a text that neither begins nor ends with a blank -/
def Trimmed (t : Text) : Prop := (∀ c ∈ t.head?, c.isSpace = false) ∧ ∀ c ∈ t.getLast?, c.isSpace = false

theorem strip_eq_drop (t : Text) : strip t = (t.dropWhile CodePoint.isSpace).rdropWhile CodePoint.isSpace := rfl

/-- a text is what stripping leaves, between blanks -/
theorem exists_blanks_strip (t : Text) :
    ∃ a b, t = a ++ strip t ++ b ∧ (∀ c ∈ a, c.isSpace = true) ∧ ∀ c ∈ b, c.isSpace = true := by
  refine ⟨t.takeWhile CodePoint.isSpace, (t.dropWhile CodePoint.isSpace).rtakeWhile CodePoint.isSpace, ?_, ?_, ?_⟩
  · rw [strip_eq_drop, List.append_assoc, List.rdropWhile_append_rtakeWhile, List.takeWhile_append_dropWhile]
  · intro c hc
    exact List.mem_takeWhile_imp hc
  · intro c hc
    exact List.mem_rtakeWhile_imp hc

theorem trimmed_strip (t : Text) : Trimmed (strip t) := by
  rw [strip_eq_drop]
  constructor
  · intro c hc
    obtain ⟨r, hr⟩ := List.head?_eq_some_iff.1 hc
    obtain ⟨b, hb⟩ := List.rdropWhile_prefix CodePoint.isSpace (l := t.dropWhile CodePoint.isSpace)
    have hhead : (t.dropWhile CodePoint.isSpace).head? = some c := by
      rw [← hb, hr]
      rfl
    have hnot := List.head?_dropWhile_not CodePoint.isSpace t
    rw [hhead] at hnot
    simpa using hnot
  · intro c hc
    obtain ⟨hne, rfl⟩ := List.mem_getLast?_eq_getLast hc
    simpa using List.rdropWhile_last_not _ _ hne

/-- stripping leaves a text alone just if there is nothing to strip -/
theorem strip_eq_self_iff {t : Text} : strip t = t ↔ Trimmed t := by
  constructor
  · intro h
    rw [← h]
    exact trimmed_strip t
  · rintro ⟨hhead, hlast⟩
    have hdrop : t.dropWhile CodePoint.isSpace = t := by
      cases t with
      | nil => rfl
      | cons c r => rw [List.dropWhile_cons_of_neg (by simp [hhead c rfl])]
    rw [strip_eq_drop, hdrop, List.rdropWhile_eq_self_iff]
    intro hne
    simp [hlast _ (List.getLast_mem_getLast? hne)]

end Text

namespace Interpolation

theorem space_ne_brace {c : CodePoint} (h : c.isSpace = true) : c ≠ .braceOpen ∧ c ≠ .braceClose := by
  constructor <;> rintro rfl <;> cases h

theorem closes_blanks_append {depth : Nat} {a e : Text} (ha : ∀ c ∈ a, c.isSpace = true) :
    Closes depth (a ++ e) ↔ Closes depth e := by
  induction a with
  | nil => rfl
  | cons c a ih =>
    obtain ⟨hopen, hclose⟩ := space_ne_brace (ha c List.mem_cons_self)
    rw [List.cons_append, closes_other hopen hclose]
    exact ih fun d hd => ha d (List.mem_cons_of_mem c hd)

theorem closes_append_blanks {depth : Nat} {e b : Text} (hb : ∀ c ∈ b, c.isSpace = true) :
    Closes depth (e ++ b) ↔ Closes depth e := by
  induction e generalizing depth with
  | nil => simpa using closes_blanks_append (e := []) hb
  | cons c e ih =>
    by_cases hopen : c = .braceOpen
    · rw [hopen, List.cons_append, closes_open, closes_open, ih]
    · by_cases hclose : c = .braceClose
      · cases depth with
        | zero => simp [hclose, not_closes_close]
        | succ d => rw [hclose, List.cons_append, closes_close, closes_close, ih]
      · rw [List.cons_append, closes_other hopen hclose, closes_other hopen hclose, ih]

/-- blanks at the ends do not change whether braces match -/
theorem balanced_strip (e : Text) : Balanced (Text.strip e) ↔ Balanced e := by
  obtain ⟨a, b, he, ha, hb⟩ := Text.exists_blanks_strip e
  calc Balanced (Text.strip e)
    _ ↔ Balanced (a ++ Text.strip e) := (closes_blanks_append ha).symm
    _ ↔ Balanced (a ++ Text.strip e ++ b) := (closes_append_blanks hb).symm
    _ ↔ Balanced e := by rw [← he]

/-! ## Names in templates -/

variable {names : CharNames} {mode : Mode}

/-- an expression with matching braces is scanned as it is -/
theorem scan_named (hmode : mode.expands = true) (names : CharNames) {k : Text} (h : Balanced k) :
    scan names mode (.hash :: .braceOpen :: k ++ [.braceClose]) = .ok [.interpolation k 0] := by
  have hraw : (Token.interpolation k 0).raw ++ [] = .hash :: .braceOpen :: (k ++ [.braceClose]) := by simp [Token.raw]
  have hbody : Scan.Expands names 0 ((Token.interpolation k 0).raw ++ []) (.interpolation k 0) := by
    rw [hraw]
    exact .interpolation (body?_balanced h [])
  have hscan := Scan.expanding_token hbody
  rw [Scan.expanding_nil, List.append_nil] at hscan
  rw [Scan.scan_of_expands hmode]
  exact hscan

/-- the braces of every expression match -/
theorem balanced_of_scan (hmode : mode.expands = true) {t : Text} {ts : List Token} (h : scan names mode t = .ok ts) :
    ∀ c ∈ interpolations ts, Balanced c.1 := by
  intro c hc
  rw [Scan.scan_of_expands hmode] at h
  exact (Scan.expanding_iff_run.1 h).proper _ (mem_interpolations.1 hc)

/-- **The names of interpolations** are the texts with matching braces and without blanks at their ends. -/
theorem exists_named_iff (hmode : mode.expands = true) {k : Text} :
    (∃ t ts, scan names mode t = .ok ts ∧ ∃ c ∈ interpolations ts, Text.strip c.1 = k) ↔ Text.Trimmed k ∧ Balanced k := by
  constructor
  · rintro ⟨t, ts, h, c, hc, rfl⟩
    exact ⟨Text.trimmed_strip c.1, (balanced_strip c.1).2 (balanced_of_scan hmode h c hc)⟩
  · rintro ⟨htrimmed, hbalanced⟩
    exact ⟨_, _, scan_named hmode names hbalanced, (k, 0), by simp, Text.strip_eq_self_iff.2 htrimmed⟩

end Interpolation

end PercentLiteral

/-
How far a scanner of the expanding modes looks ahead.

Behind a token, the next code point alone matters, and only to an escape that it prolongs: `expands_append_iff`. Behind a
code point that begins no token it matters whether an opening brace follows: `plain_iff`. So a text may be cut, and what
was recognized in it stays recognized (`Expands.cut`, `plain_cut`); and other text may follow it, unless its end takes in
the first code point of that text (`Expands.append`, `plain_append`), which is never a backslash or a number sign
(`Expands.extend`, `plain_extend`).
-/
import PercentLiteral.Proofs.Escape.Grammar
import PercentLiteral.Proofs.Interpolation.Balance
import PercentLiteral.Proofs.Scan.Run

namespace PercentLiteral

/-- whether the code point behind a token belongs to it as well -/
def Token.ProlongedBy : Token → Option CodePoint → Prop
  | .escape raw _ _, next => Escape.Prolongs (raw.drop 1) next
  | _, _ => False

namespace Scan

/-- the offset behind a text is that behind its first code point and the rest -/
theorem offset_cons (start : Int) (c : CodePoint) (t : Text) :
    start + ((c :: t).length : Int) = start + 1 + t.length := by
  rw [List.length_cons]
  omega

theorem not_prolongedBy_none (tok : Token) : ¬ tok.ProlongedBy none := by
  cases tok with
  | literal s p => exact id
  | escape r v p => exact Escape.not_prolongs_none _
  | interpolation e p => exact id

/-- neither a backslash nor a number sign belongs to the token before it -/
theorem not_prolongedBy_mark (tok : Token) {c : CodePoint} (h : c = .backslash ∨ c = .hash) :
    ¬ tok.ProlongedBy (some c) := by
  have hoctal : c.isOctal = false := by
    rcases h with rfl | rfl <;> decide
  have hH : c ≠ .ofChar 'H' := by
    rcases h with rfl | rfl <;> decide
  cases tok with
  | literal s p => exact id
  | escape r v p => exact Escape.not_prolongs_of_next hoctal hH
  | interpolation e p => exact id

/-- nor does a text that begins with one, or with nothing -/
theorem not_prolongedBy_head (tok : Token) {q : Text} (h : ∀ c ∈ q.head?, c = .backslash ∨ c = .hash) :
    ¬ tok.ProlongedBy q.head? := by
  cases hc : q.head? with
  | none => exact not_prolongedBy_none tok
  | some c => exact not_prolongedBy_mark tok (h c hc)

/-- **One code point of look-ahead.** A token is recognized before other text exactly if it is recognized alone and the
next code point does not belong to it. -/
theorem expands_append_iff {names : CharNames} {start : Int} {tok : Token} {r : Text} :
    Expands names start (tok.raw ++ r) tok ↔ Expands names start tok.raw tok ∧ ¬ tok.ProlongedBy r.head? := by
  constructor
  · intro h
    generalize ht : tok.raw ++ r = t at h
    cases h with
    | @escape rest s hs =>
      obtain rfl : s.body ++ r = rest := List.cons.inj ht |>.2
      obtain ⟨halone, hnext⟩ := Escape.read_append_iff.1 hs
      exact ⟨.escape halone, hnext⟩
    | @interpolation rest e he =>
      obtain ⟨hcloses, _⟩ := Interpolation.body?_iff.1 he
      exact ⟨.interpolation (Interpolation.body?_balanced hcloses []), id⟩
  · rintro ⟨h, hnext⟩
    generalize ht : tok.raw = t at h
    cases h with
    | @escape rest s hs =>
      obtain rfl : s.body = rest := List.cons.inj ht |>.2
      exact .escape (Escape.read_append_iff.2 ⟨hs, hnext⟩)
    | @interpolation rest e he =>
      obtain rfl : e ++ [.braceClose] = rest := by
        simpa [Token.raw] using ht
      obtain ⟨hcloses, _⟩ := Interpolation.body?_iff.1 he
      exact .interpolation (by simpa using Interpolation.body?_balanced hcloses r)

/-- what is recognized is no less recognized where the text behind is cut -/
theorem Expands.cut {names : CharNames} {start : Int} {tok : Token} {p q : Text}
    (h : Expands names start (tok.raw ++ (p ++ q)) tok) : Expands names start (tok.raw ++ p) tok := by
  obtain ⟨halone, hnext⟩ := expands_append_iff.1 h
  refine expands_append_iff.2 ⟨halone, ?_⟩
  cases p with
  | nil => exact not_prolongedBy_none tok
  | cons c p => exact hnext

/-- what is recognized is recognized before more text, if the token does not take in the start of that text -/
theorem Expands.append {names : CharNames} {start : Int} {tok : Token} {p q : Text}
    (h : Expands names start (tok.raw ++ p) tok) (hq : p = [] → ¬ tok.ProlongedBy q.head?) :
    Expands names start (tok.raw ++ (p ++ q)) tok := by
  obtain ⟨halone, hnext⟩ := expands_append_iff.1 h
  refine expands_append_iff.2 ⟨halone, ?_⟩
  cases p with
  | nil => exact hq rfl
  | cons c p => exact hnext

/-- what is recognized is recognized as well where a mark follows the text -/
theorem Expands.extend {names : CharNames} {start : Int} {tok : Token} {p r : Text} {c : CodePoint}
    (h : Expands names start (tok.raw ++ p) tok) (hc : c = .backslash ∨ c = .hash) :
    Expands names start (tok.raw ++ (p ++ c :: r)) tok :=
  h.append fun _ => not_prolongedBy_mark tok hc

theorem plain_iff {names : CharNames} {c : CodePoint} {r : Text} :
    (expandingRules names).plain (c :: r) ↔ c ≠ .backslash ∧ ¬ (c = .hash ∧ r.head? = some .braceOpen) := by
  cases r with
  | nil => simp [expandingRules, Interpolation.opens]
  | cons d r => simp [expandingRules, Interpolation.opens]

theorem plain_cut {names : CharNames} {c : CodePoint} {p q : Text}
    (h : (expandingRules names).plain (c :: (p ++ q))) : (expandingRules names).plain (c :: p) := by
  obtain ⟨hc, hopens⟩ := plain_iff.1 h
  refine plain_iff.2 ⟨hc, ?_⟩
  cases p with
  | nil => simp
  | cons d p => exact hopens

theorem plain_append {names : CharNames} {c : CodePoint} {p q : Text} (h : (expandingRules names).plain (c :: p))
    (hq : p = [] → ¬ (c = .hash ∧ q.head? = some .braceOpen)) : (expandingRules names).plain (c :: (p ++ q)) := by
  obtain ⟨hc, hopens⟩ := plain_iff.1 h
  refine plain_iff.2 ⟨hc, ?_⟩
  cases p with
  | nil => exact hq rfl
  | cons d p => exact hopens

theorem plain_extend {names : CharNames} {c d : CodePoint} {p r : Text} (h : (expandingRules names).plain (c :: p))
    (hd : d = .backslash ∨ d = .hash) : (expandingRules names).plain (c :: (p ++ d :: r)) := by
  refine plain_append h fun _ hopens => ?_
  obtain rfl : d = .braceOpen := by simpa using hopens.2
  exact absurd hd (by decide)

end Scan

end PercentLiteral

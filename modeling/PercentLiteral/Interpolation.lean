/-
Interpolations: an expression between an opening mark, a number sign and a brace, and the brace that balances it.

The expression is any text. Its braces are counted, so the first closing brace need not be the last.
-/
import PercentLiteral.TemplateError
import PercentLiteral.Token

namespace PercentLiteral.Interpolation

/-- whether a text starts with the opening mark -/
def opens : Text → Bool
  | c :: d :: _ => c = .hash ∧ d = .braceOpen
  | _ => false

/-- the text up to the brace that closes it, with some braces open inside -/
def body? : (depth : Nat) → Text → Option Text
  | _, [] => none
  | depth, c :: r =>
    if c = .braceOpen then (body? (depth + 1) r).map (c :: ·)
    else if c = .braceClose then
      match depth with
      | 0 => some []
      | d + 1 => (body? d r).map (c :: ·)
    else (body? depth r).map (c :: ·)

theorem opens_iff {t : Text} : opens t = true ↔ ∃ rest, t = .hash :: .braceOpen :: rest := by
  match t with
  | [] => simp [opens]
  | [c] => simp [opens]
  | c :: d :: r => simp [opens]

/-- the text up to the closing brace, and the brace, start the text that was read -/
theorem body?_prefix {depth : Nat} {t e : Text} (h : body? depth t = some e) : e ++ [.braceClose] <+: t := by
  induction t generalizing depth e with
  | nil => simp [body?] at h
  | cons c r ih =>
    have hcons : ∀ {d}, (body? d r).map (c :: ·) = some e → e ++ [.braceClose] <+: c :: r := by
      intro d hd
      obtain ⟨e', he', rfl⟩ := Option.map_eq_some_iff.1 hd
      exact List.prefix_cons_inj c |>.2 (ih he')
    simp only [body?] at h
    split at h
    · exact hcons h
    · split at h
      · rename_i hc
        cases depth with
        | zero =>
          cases h
          simp [hc]
        | succ d => exact hcons h
      · exact hcons h

/-- the error of an interpolation that nothing closes -/
def unterminated (t : Text) (start : Int) : TemplateError :=
  ⟨.unterminatedInterpolation (some (text "missing closing brace")), t, start⟩

/-- the interpolation at the start of a text that begins with the opening mark -/
def read (t : Text) (start : Int) : Except TemplateError Token :=
  match body? 0 (t.drop 2) with
  | some e => .ok (.interpolation e start)
  | none => .error (unterminated t start)

/-- why there is no interpolation at a position -/
inductive ExtractError where
  | noMark (position : Nat)
  | template (e : TemplateError)

/-- the interpolation at a position -/
def extract (t : Text) (position : Nat) : Except ExtractError Token :=
  if opens (t.drop position) then (read (t.drop position) position).mapError .template
  else .error (.noMark position)

/-- the sentence about a position without an opening mark -/
def noMarkMessage (position : Nat) : Text :=
  text "no interpolation marker at offset " ++ Text.decimal position

end PercentLiteral.Interpolation

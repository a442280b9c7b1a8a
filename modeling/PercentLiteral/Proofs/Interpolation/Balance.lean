/-
How far an interpolation reaches.

`Closes` says of a text that it closes a number of braces that were opened before it: all of them, and at no point more
than are open. With none opened before, the braces of the text match (`Balanced`). One lemma for each kind of code point
says what it does to the number, so the reader, which counts, finds exactly such a text (`body?_iff`), and finds the same
one whatever stands behind the closing brace (`body?_balanced`).
-/
import PercentLiteral.Interpolation
import Mathlib.Data.List.Infix

namespace PercentLiteral.Interpolation

/-- a text that closes so many braces opened before it, and never one more -/
structure Closes (depth : Nat) (e : Text) : Prop where
  never : ∀ p, p <+: e → p.count .braceClose ≤ p.count .braceOpen + depth
  total : e.count .braceClose = e.count .braceOpen + depth

/-- a text whose braces match: no prefix has more closing than opening ones, and the whole has as many of both -/
abbrev Balanced (e : Text) : Prop := Closes 0 e

theorem forall_prefix_cons {P : Text → Prop} {c : CodePoint} {e : Text} :
    (∀ p, p <+: c :: e → P p) ↔ P [] ∧ ∀ p, p <+: e → P (c :: p) := by
  constructor
  · intro h
    exact ⟨h [] List.nil_prefix, fun p hp => h (c :: p) ((List.prefix_cons_inj c).2 hp)⟩
  · rintro ⟨hnil, hcons⟩ p hp
    rcases List.prefix_cons_iff.1 hp with rfl | ⟨q, rfl, hq⟩
    · exact hnil
    · exact hcons q hq

theorem closes_iff {depth : Nat} {e : Text} :
    Closes depth e ↔ (∀ p, p <+: e → p.count .braceClose ≤ p.count .braceOpen + depth) ∧
      e.count .braceClose = e.count .braceOpen + depth :=
  ⟨fun h => ⟨h.never, h.total⟩, fun h => ⟨h.1, h.2⟩⟩

theorem closes_nil {depth : Nat} : Closes depth [] ↔ depth = 0 := by
  constructor
  · intro h
    simpa using h.total.symm
  · rintro rfl
    exact ⟨fun p hp => by simp [List.prefix_nil.1 hp], rfl⟩

theorem closes_open {depth : Nat} {e : Text} : Closes depth (.braceOpen :: e) ↔ Closes (depth + 1) e := by
  have hne : CodePoint.braceOpen ≠ .braceClose := by decide
  simp only [closes_iff, forall_prefix_cons, List.count_cons_self, List.count_cons_of_ne hne, List.count_nil]
  constructor
  · rintro ⟨⟨_, hnever⟩, htotal⟩
    exact ⟨fun p hp => by have := hnever p hp; omega, by omega⟩
  · rintro ⟨hnever, htotal⟩
    exact ⟨⟨by omega, fun p hp => by have := hnever p hp; omega⟩, by omega⟩

theorem not_closes_close {e : Text} : ¬ Closes 0 (.braceClose :: e) := by
  intro h
  have := h.never [.braceClose] (by simp)
  exact absurd this (by decide)

theorem closes_close {depth : Nat} {e : Text} : Closes (depth + 1) (.braceClose :: e) ↔ Closes depth e := by
  have hne : CodePoint.braceClose ≠ .braceOpen := by decide
  simp only [closes_iff, forall_prefix_cons, List.count_cons_self, List.count_cons_of_ne hne, List.count_nil]
  constructor
  · rintro ⟨⟨_, hnever⟩, htotal⟩
    exact ⟨fun p hp => by have := hnever p hp; omega, by omega⟩
  · rintro ⟨hnever, htotal⟩
    exact ⟨⟨by omega, fun p hp => by have := hnever p hp; omega⟩, by omega⟩

theorem closes_other {depth : Nat} {c : CodePoint} {e : Text} (hopen : c ≠ .braceOpen) (hclose : c ≠ .braceClose) :
    Closes depth (c :: e) ↔ Closes depth e := by
  simp only [closes_iff, forall_prefix_cons, List.count_cons_of_ne hopen, List.count_cons_of_ne hclose, List.count_nil]
  constructor
  · rintro ⟨⟨_, hnever⟩, htotal⟩
    exact ⟨hnever, htotal⟩
  · rintro ⟨hnever, htotal⟩
    exact ⟨⟨by omega, hnever⟩, htotal⟩

/-- **The balanced span.** Counting finds exactly the text that closes what is open and has a closing brace behind it. -/
theorem body?_iff {depth : Nat} {t e : Text} :
    body? depth t = some e ↔ Closes depth e ∧ e ++ [.braceClose] <+: t := by
  induction t generalizing depth e with
  | nil => simp [body?]
  | cons c r ih =>
    -- what begins the text begins the expression, unless it is the brace that ends it
    have step : ∀ {d}, (∀ e', Closes depth (c :: e') ↔ Closes d e') → (c = .braceClose → ¬ Closes depth []) →
        ((body? d r).map (c :: ·) = some e ↔ Closes depth e ∧ e ++ [.braceClose] <+: c :: r) := by
      intro d hcloses hend
      rw [Option.map_eq_some_iff]
      constructor
      · rintro ⟨e', he', rfl⟩
        obtain ⟨hd, hprefix⟩ := ih.1 he'
        exact ⟨(hcloses e').2 hd, (List.prefix_cons_inj c).2 hprefix⟩
      · rintro ⟨hdepth, hprefix⟩
        cases e with
        | nil =>
          have hc : CodePoint.braceClose = c := by simpa using hprefix
          exact absurd hdepth (hend hc.symm)
        | cons c' e' =>
          obtain ⟨rfl, hrest⟩ : c' = c ∧ e' ++ [.braceClose] <+: r := by
            simpa [List.cons_prefix_cons] using hprefix
          exact ⟨e', ih.2 ⟨(hcloses e').1 hdepth, hrest⟩, rfl⟩
    simp only [body?]
    split
    · rename_i hc
      subst hc
      exact step (fun e' => closes_open) (fun hc => absurd hc (by decide))
    · rename_i hopen
      split
      · rename_i hc
        subst hc
        cases depth with
        | zero =>
          constructor
          · intro h
            cases h
            exact ⟨closes_nil.2 rfl, by simp⟩
          · rintro ⟨hcloses, hprefix⟩
            cases e with
            | nil => rfl
            | cons c' e' =>
              obtain ⟨rfl, _⟩ : c' = .braceClose ∧ e' ++ [.braceClose] <+: r := by
                simpa [List.cons_prefix_cons] using hprefix
              exact absurd hcloses not_closes_close
        | succ d => exact step (fun e' => closes_close) (fun _ h => by simp [closes_nil] at h)
      · rename_i hclose
        exact step (fun e' => closes_other hopen hclose) (fun hc => absurd hc hclose)

/-- a balanced text is read back before a closing brace, whatever stands behind -/
theorem body?_balanced {e : Text} (h : Balanced e) (rest : Text) : body? 0 (e ++ .braceClose :: rest) = some e :=
  body?_iff.2 ⟨h, by simp⟩

end PercentLiteral.Interpolation

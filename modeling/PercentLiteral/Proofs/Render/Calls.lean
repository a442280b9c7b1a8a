/-
The calls that a rendering makes of its evaluator.

An evaluator is any function of its state and an expression, so a reply may depend on all calls before it. `Answers`
says that it replies to expressions with texts, one after the other; `Inquiry` says how asking for interpolations ends,
which is at the first reply that is no text. `watch` renders with a recording evaluator and so shows the calls
(`run_eq_watch`: recording changes nothing else).

`calls_until_first_failure`: the calls are those of an inquiry about the interpolations of the template, the same with
words as without, and whether the rendering succeeds is decided by them alone.
-/
import PercentLiteral.Evaluator.Script
import PercentLiteral.Proofs.Render.Resolution
import PercentLiteral.Proofs.Scan.Tiling

namespace PercentLiteral

variable {σ : Type}

/-- asked for expressions in this order, the evaluator replies with these texts and comes into this state -/
inductive Answers (ev : Evaluator σ) : σ → List Text → List Text → σ → Prop where
  | nil (s : σ) : Answers ev s [] [] s
  | cons {s s₁ s₂ : σ} {e r : Text} {es rs : List Text} :
      ev s e = (.text r, s₁) → Answers ev s₁ es rs s₂ → Answers ev s (e :: es) (r :: rs) s₂

/-- a script of texts replies with them, whatever it is asked -/
theorem answers_script (es rs : List Text) (h : es.length = rs.length) :
    ∃ s', Answers Script.evaluator (rs.map fun r => .give (.str r)) es rs s' := by
  induction rs generalizing es with
  | nil =>
    obtain rfl := List.length_eq_zero_iff.1 h
    exact ⟨[], .nil []⟩
  | cons r rs ih =>
    obtain ⟨e, es, rfl⟩ := List.exists_cons_of_length_eq_add_one h
    obtain ⟨s', hs'⟩ := ih es (Nat.succ.inj h)
    cases rs with
    | nil =>
      obtain rfl := List.length_eq_zero_iff.1 (Nat.succ.inj h)
      exact ⟨_, .cons rfl (.nil _)⟩
    | cons r' rs => exact ⟨s', .cons rfl hs'⟩

open Render Steps

/-- how a reply that is no text stops a rendering: with an error that has the expression, its offset and the cause, which
is the failure raised, or one of type for any other value; a failure that stops the program is passed on -/
inductive Stops (e : Text) (p : Int) : Reply → Stop → Prop where
  | raised (f : Failure) : Stops e p (.raised f) (.template ⟨.evaluation f, e, p⟩)
  | value (v : Value) : Stops e p (.value v) (.template ⟨.evaluation ⟨text "TypeError",
      [.str (text "evaluator returned " ++ v.typeName ++ text ", expected str")]⟩, e, p⟩)
  | object (typeName : Text) : Stops e p (.object typeName) (.template ⟨.evaluation ⟨text "TypeError",
      [.str (text "evaluator returned " ++ typeName ++ text ", expected str")]⟩, e, p⟩)
  | interrupted (f : Failure) : Stops e p (.interrupted f) (.interrupted f)

theorem outcome_eq_error_iff {e : Text} {p : Int} {reply : Reply} {stop : Stop} :
    outcome e p reply = .error stop ↔ Stops e p reply stop := by
  constructor
  · intro h
    cases reply with
    | text t => cases h
    | value v =>
      cases h
      exact .value v
    | object typeName =>
      cases h
      exact .object typeName
    | raised f =>
      cases h
      exact .raised f
    | interrupted f =>
      cases h
      exact .interrupted f
  · intro h
    cases h <;> rfl

/-- how asking for interpolations in order ends: with the calls made, the replies or an error, and a state -/
inductive Inquiry (ev : Evaluator σ) (s : σ) (cs : List (Text × Int)) :
    List Text → Except Stop (List Text) → σ → Prop where
  /-- every reply is a text -/
  | answered {rs : List Text} {s' : σ} :
      Answers ev s (cs.map Prod.fst) rs s' → Inquiry ev s cs (cs.map Prod.fst) (.ok rs) s'
  /-- the reply to one is no text; nothing behind it is asked for -/
  | stopped {before behind : List (Text × Int)} {e : Text} {p : Int} {rs : List Text} {s₁ : σ} {stop : Stop} :
      cs = before ++ (e, p) :: behind → Answers ev s (before.map Prod.fst) rs s₁ →
      Stops e p (ev s₁ e).1 stop →
      Inquiry ev s cs (before.map Prod.fst ++ [e]) (.error stop) (ev s₁ e).2

/-- a text in front of an inquiry -/
theorem Inquiry.cons {ev : Evaluator σ} {s s₁ s' : σ} {e r : Text} {p : Int} {cs : List (Text × Int)}
    {asked : List Text} {out : Except Stop (List Text)} (he : ev s e = (.text r, s₁))
    (h : Inquiry ev s₁ cs asked out s') : Inquiry ev s ((e, p) :: cs) (e :: asked) (out.map (r :: ·)) s' := by
  cases h with
  | answered h => exact .answered (.cons he h)
  | @stopped before behind e' p' rs s₁' stop hcs h hstop =>
    rw [hcs]
    exact @Inquiry.stopped σ ev s _ ((e, p) :: before) behind e' p' (r :: rs) s₁' stop rfl (.cons he h) hstop

theorem exec_ask (ev : Evaluator σ) (call : Text × Int) (st : Status σ) :
    exec (ask (some ev) call) st =
      (outcome call.1 call.2 (ev st.state call.1).1,
        ⟨(ev st.state call.1).2, st.events ++ told call.1 call.2 (ev st.state call.1).1⟩) :=
  exec_evaluate ev call.1 call.2 st

theorem run_ask_cons (ev : Evaluator σ) (c : Text × Int) (cs : List (Text × Int)) (s : σ) :
    run ((c :: cs).mapM (ask (some ev))) s = match outcome c.1 c.2 (ev s c.1).1 with
      | .ok t => ((run (cs.mapM (ask (some ev))) (ev s c.1).2).1.map (t :: ·),
          (run (cs.mapM (ask (some ev))) (ev s c.1).2).2)
      | .error e => (.error e, ⟨(ev s c.1).2, told c.1 c.2 (ev s c.1).1⟩) := by
  rw [run_eq_exec, exec_mapM_cons, exec_ask]
  cases (ev s c.1).1 <;> rfl

/-- an evaluator that stays in its state is asked as a function -/
theorem run_ask_constant {ev : Evaluator σ} {s : σ} {f : Text → Reply} (h : ∀ e, ev s e = (f e, s))
    (cs : List (Text × Int)) :
    (run (cs.mapM (ask (some ev))) s).1 = cs.mapM fun c => outcome c.1 c.2 (f c.1) := by
  induction cs with
  | nil => rfl
  | cons c cs ih =>
    rw [run_ask_cons, h, List.mapM_cons]
    cases outcome c.1 c.2 (f c.1) with
    | error e => rfl
    | ok t =>
      simp only [ih]
      cases cs.mapM fun c => outcome c.1 c.2 (f c.1) <;> rfl

/-- with an evaluator, no question ends for want of one -/
theorem run_ask_answered (ev : Evaluator σ) (cs : List (Text × Int)) (s : σ) :
    (run (cs.mapM (ask (some ev))) s).1 ≠ .error .noEvaluator := by
  induction cs generalizing s with
  | nil =>
    intro h
    cases h
  | cons c cs ih =>
    rw [run_ask_cons]
    cases hout : outcome c.1 c.2 (ev s c.1).1 with
    | ok t =>
      have hrest := ih (ev s c.1).2
      cases hasked : (run (cs.mapM (ask (some ev))) (ev s c.1).2).1 with
      | ok rs => simp [Except.map]
      | error stop =>
        rw [hasked] at hrest
        simpa [Except.map] using hrest
    | error stop =>
      have hstops := outcome_eq_error_iff.1 hout
      generalize (ev s c.1).1 = reply at hstops
      cases hstops <;> simp

/-- **A renderer that was made** has an evaluator for every template: the one that was given, or the variables. -/
theorem run_made (names : CharNames) (tracing : Tracing) (ev : Option (Evaluator σ)) (vars : Variables) (mode : Mode)
    (t : Text) (s : σ) : (run (made names tracing ev vars mode t) s).1 ≠ .error .noEvaluator := by
  unfold made
  cases h : scan names mode t with
  | error e =>
    rw [run_eq_exec, exec_render_error h]
    cases e <;> simp [stopOf]
  | ok ts =>
    rw [(run_render h (by simp) s).1]
    have hasked := run_ask_answered (Evaluator.orLookup ev vars) (interpolations ts) s
    cases hresult : (run ((interpolations ts).mapM (ask (some (Evaluator.orLookup ev vars)))) s).1 with
    | ok rs => simp [Except.map]
    | error stop =>
      rw [hresult] at hasked
      simpa [Except.map] using hasked

theorem outcome_eq_ok_iff {e : Text} {p : Int} {reply : Reply} {r : Text} :
    outcome e p reply = .ok r ↔ reply = .text r := by
  cases reply <;> simp [outcome]

/-- **Asking is an inquiry.** A recording evaluator does the same and records the calls. -/
theorem ask_inquiry (ev : Evaluator σ) (cs : List (Text × Int)) (st : Status σ) :
    ∃ asked out st',
      exec (cs.mapM (ask (some ev))) st = (out, st') ∧ Inquiry ev st.state cs asked out st'.state ∧
        ∀ log, exec (cs.mapM (ask (some ev.recording))) ⟨(st.state, log), st.events⟩ =
          (out, ⟨(st'.state, log ++ asked), st'.events⟩) := by
  induction cs generalizing st with
  | nil => exact ⟨[], .ok [], st, rfl, .answered (.nil st.state), by simp⟩
  | cons call cs ih =>
    obtain ⟨e, p⟩ := call
    have hrecord : ∀ log, exec (ask (some ev.recording) (e, p)) ⟨(st.state, log), st.events⟩ =
        (outcome e p (ev st.state e).1,
          ⟨((ev st.state e).2, log ++ [e]), st.events ++ told e p (ev st.state e).1⟩) :=
      fun log => exec_ask ev.recording (e, p) _
    cases hout : outcome e p (ev st.state e).1 with
    | error stop =>
      refine ⟨[e], .error stop, ⟨(ev st.state e).2, st.events ++ told e p (ev st.state e).1⟩, ?_, ?_, fun log => ?_⟩
      · rw [exec_mapM_cons, exec_ask, hout]
      · exact @Inquiry.stopped σ ev st.state _ [] cs e p [] st.state stop rfl (.nil _) (outcome_eq_error_iff.1 hout)
      · rw [exec_mapM_cons, hrecord, hout]
    | ok r =>
      obtain ⟨asked, out, st', hrun, hinquiry, hlog⟩ :=
        ih ⟨(ev st.state e).2, st.events ++ told e p (ev st.state e).1⟩
      refine ⟨e :: asked, out.map (r :: ·), st', ?_, ?_, fun log => ?_⟩
      · rw [exec_mapM_cons, exec_ask, hout]
        simp only [hrun]
      · exact hinquiry.cons (Prod.ext (outcome_eq_ok_iff.1 hout) rfl)
      · rw [exec_mapM_cons, hrecord, hout]
        simp only [hlog, List.append_assoc, List.singleton_append]

/-- an evaluator that answers everything is asked for everything -/
theorem exec_mapM_ask {ev : Evaluator σ} {s s' : σ} {cs : List (Text × Int)} {rs : List Text}
    (h : Answers ev s (cs.map Prod.fst) rs s') (events : List Event) :
    exec (cs.mapM (ask (some ev))) ⟨s, events⟩ = (.ok rs, ⟨s', events⟩) := by
  generalize hes : cs.map Prod.fst = es at h
  induction h generalizing cs with
  | nil s =>
    obtain rfl := List.map_eq_nil_iff.1 hes
    rfl
  | @cons s s₁ s₂ e r es rs he _ ih =>
    obtain ⟨⟨e', p⟩, cs, rfl, rfl, htail⟩ := List.map_eq_cons_iff.1 hes
    rw [exec_mapM_cons, exec_ask, he]
    simp only [outcome, told, List.append_nil, ih htail]
    rfl

/-! ## Watched renderings -/

variable {names : CharNames} {tracing : Tracing} {t : Text} {ts : List Token}

/-- the interpolations of a token stream are its interpolation tokens -/
theorem mem_interpolations {c : Text × Int} : c ∈ interpolations ts ↔ .interpolation c.1 c.2 ∈ ts := by
  induction ts with
  | nil => simp
  | cons tok ts ih => cases tok <;> simp [ih, Prod.ext_iff]

/-- each interpolation stands at its offset in the template, between the opening mark and a closing brace -/
theorem interpolations_place (h : Scan.expanding names 0 t = .ok ts) :
    ∀ c ∈ interpolations ts, 0 ≤ c.2 ∧ .hash :: .braceOpen :: c.1 ++ [.braceClose] <+: t.drop c.2.toNat := by
  intro c hc
  have htiles := (Scan.expanding_iff_run.1 h).tiles (Scan.expandingRules_sound names)
  obtain ⟨before, behind, rfl, hstart⟩ := htiles.place _ (mem_interpolations.1 hc)
  have hoffset : c.2 = before.length := by simpa [Token.start] using hstart
  refine ⟨by omega, behind, ?_⟩
  simp [hoffset, Token.raw]

end PercentLiteral

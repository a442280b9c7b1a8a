/-
Rendering in two steps: asking for the interpolations, and filling in the replies.

Whether tokens are resolved in one row or word by word, the evaluator is asked for their interpolations in order, and
all else is a pure function of the replies: `fill` for a row and `fillWords` for words (`exec_resolveAll`,
`exec_resolveWords`). Asking adds messages and reads none (`Appends`), so what was logged before does not matter.

`exec_render`: hence a rendering with words and one without differ in the last, pure step only, and in a message.
-/
import PercentLiteral.Proofs.Scan.Run
import PercentLiteral.Proofs.Steps
import PercentLiteral.Proofs.Words.Layout
import PercentLiteral.Render

namespace PercentLiteral

/-! ## Interpolations and their replies -/

/-- the interpolations among atoms, in order: expression and offset -/
def calls : List Atom → List (Text × Int)
  | [] => []
  | .interpolation e p :: as => (e, p) :: calls as
  | _ :: as => calls as

/-- the interpolations of a token stream -/
def interpolations (ts : List Token) : List (Text × Int) := calls (ts.flatMap Token.atoms)

@[simp] theorem calls_append (as bs : List Atom) : calls (as ++ bs) = calls as ++ calls bs := by
  induction as with
  | nil => rfl
  | cons a as ih => cases a <;> simp [calls, ih]

@[simp] theorem calls_map_char (s : Text) : calls (s.map .char) = [] := by
  induction s with
  | nil => rfl
  | cons c s ih => exact ih

@[simp] theorem interpolations_nil : interpolations [] = [] := rfl

@[simp] theorem interpolations_append (ts us : List Token) :
    interpolations (ts ++ us) = interpolations ts ++ interpolations us := by
  simp [interpolations]

@[simp] theorem interpolations_literal (s : Text) (p : Int) (ts : List Token) :
    interpolations (.literal s p :: ts) = interpolations ts := by
  simp [interpolations, Token.atoms]

@[simp] theorem interpolations_escape (r v : Text) (p : Int) (ts : List Token) :
    interpolations (.escape r v p :: ts) = interpolations ts := rfl

@[simp] theorem interpolations_interpolation (e : Text) (p : Int) (ts : List Token) :
    interpolations (.interpolation e p :: ts) = (e, p) :: interpolations ts := rfl

theorem interpolations_eq_nil_iff (ts : List Token) :
    interpolations ts = [] ↔ ts.any Token.isInterpolation = false := by
  induction ts with
  | nil => simp
  | cons tok ts ih => cases tok <;> simp [Token.isInterpolation, ih]

/-- the words of a stream have its interpolations, in order -/
theorem interpolations_splitWords (ts : List Token) : interpolations (splitWords ts).flatten = interpolations ts := by
  obtain ⟨k, hk, hatoms⟩ := splitWords_layout ts
  have parts : ∀ ps : List (Word × Text),
      calls (ps.flatMap fun p => p.1.flatMap Token.atoms ++ p.2.map .char) =
        interpolations (ps.map Prod.fst).flatten := by
    intro ps
    induction ps with
    | nil => rfl
    | cons p ps ih => simp [interpolations, ih]
  calc interpolations (splitWords ts).flatten
      = calls (k.parts.flatMap fun p => p.1.flatMap Token.atoms ++ p.2.map .char) := by
        rw [← hk.words, Spaced.items, parts]
    _ = calls k.atoms := by rw [Spaced.atoms, calls_append, calls_map_char, List.nil_append]
    _ = interpolations ts := by rw [hatoms, interpolations]

/-- the text of a stream, in which replies take the places of the interpolations; without a reply left, nothing does -/
def fill : List Text → List Atom → Text
  | _, [] => []
  | rs, .char c :: as => c :: fill rs as
  | rs, .escape _ v _ :: as => v ++ fill rs as
  | r :: rs, .interpolation _ _ :: as => r ++ fill rs as
  | [], .interpolation _ _ :: as => fill [] as

@[simp] theorem fill_nil (rs : List Text) : fill rs [] = [] := by
  cases rs <;> rfl

@[simp] theorem fill_map_char (rs : List Text) (s : Text) (as : List Atom) :
    fill rs (s.map .char ++ as) = s ++ fill rs as := by
  induction s with
  | nil => rfl
  | cons c s ih =>
    rw [List.map_cons, List.cons_append, fill, ih, List.cons_append]

/-- a stream takes the first replies, and what follows takes the rest -/
theorem fill_append (rs : List Text) (as bs : List Atom) :
    fill rs (as ++ bs) = fill rs as ++ fill (rs.drop (calls as).length) bs := by
  fun_induction fill rs as with
  | case1 rs => simp [calls]
  | case2 rs c as ih => simp [fill, calls, ih]
  | case3 rs raw v p as ih => simp [fill, calls, ih]
  | case4 r rs e p as ih => simp [fill, calls, ih]
  | case5 e p as ih => simpa [fill, calls] using ih

/-- replies beyond the interpolations of a stream do not change its text -/
theorem fill_more {rs : List Text} {as : List Atom} (h : rs.length = (calls as).length) (more : List Text) :
    fill (rs ++ more) as = fill rs as := by
  fun_induction fill rs as with
  | case1 rs => simp
  | case2 rs c as ih => simpa [fill] using ih h
  | case3 rs raw v p as ih => simpa [fill] using ih h
  | case4 r rs e p as ih => simpa [fill] using ih (Nat.succ.inj h)
  | case5 e p as ih => cases h

/-- the texts of words, each with the replies to its own interpolations -/
def fillWords : List Text → List Word → List Text
  | _, [] => []
  | rs, w :: ws => fill rs (w.flatMap Token.atoms) :: fillWords (rs.drop (interpolations w).length) ws

namespace Render

open Steps

variable {σ α β : Type}

/-! ## Steps of a rendering -/

theorem run_eq_exec (r : Rendering σ α) (s : σ) : run r s = exec r ⟨s, []⟩ := rfl

@[simp] theorem exec_tell (e : Event) (st : Status σ) :
    exec (tell e) st = (.ok (), { st with events := st.events ++ [e] }) := rfl

/-- what a rendering makes of a reply -/
def outcome (e : Text) (p : Int) : Reply → Except Stop Text
  | .text t => .ok t
  | .value v => .error (.template ⟨.evaluation (wrongType v.typeName), e, p⟩)
  | .object typeName => .error (.template ⟨.evaluation (wrongType typeName), e, p⟩)
  | .raised f => .error (.template ⟨.evaluation f, e, p⟩)
  | .interrupted f => .error (.interrupted f)

/-- what it tells about a reply -/
def told (e : Text) (p : Int) : Reply → List Event
  | .raised f => [.evaluatorFailed e p f]
  | _ => []

theorem exec_evaluate (ev : Evaluator σ) (e : Text) (p : Int) (st : Status σ) :
    exec (evaluate ev e p) st =
      (outcome e p (ev st.state e).1, ⟨(ev st.state e).2, st.events ++ told e p (ev st.state e).1⟩) := by
  unfold evaluate
  have hget : exec (get : Rendering σ (Status σ)) st = (.ok st, st) := rfl
  have hset : ∀ st', exec (set st' : Rendering σ PUnit) st = (.ok ⟨⟩, st') := fun st' => rfl
  rw [exec_bind_ok hget]
  rcases ev st.state e with ⟨reply, s'⟩
  simp only
  rw [exec_bind_ok (hset _)]
  cases reply with
  | raised f => rfl
  | _ => simp [outcome, told, evaluationError]

/-- asks for one interpolation -/
def ask (ev : Option (Evaluator σ)) (call : Text × Int) : Rendering σ Text := resolve ev (.interpolation call.1 call.2)

theorem exec_mapM_cons (f : α → Rendering σ β) (a : α) (as : List α) (st : Status σ) :
    exec ((a :: as).mapM f) st = match exec (f a) st with
      | (.ok b, st') => ((exec (as.mapM f) st').1.map (b :: ·), (exec (as.mapM f) st').2)
      | (.error e, st') => (.error e, st') := by
  rw [List.mapM_cons, exec_bind]
  rcases exec (f a) st with ⟨_ | b, st'⟩
  · rfl
  · simp only [exec_bind]
    rcases exec (as.mapM f) st' with ⟨_ | bs, st''⟩ <;> rfl

/-- each call that succeeds gives one reply -/
theorem exec_mapM_length {f : α → Rendering σ β} {as : List α} {st st' : Status σ} {bs : List β}
    (h : exec (as.mapM f) st = (.ok bs, st')) : bs.length = as.length := by
  induction as generalizing st bs with
  | nil =>
    cases h
    rfl
  | cons a as ih =>
    rw [exec_mapM_cons] at h
    split at h
    · rename_i b st₁ _
      cases hrest : exec (as.mapM f) st₁ with
      | mk result st₂ =>
        rw [hrest] at h
        cases result with
        | error e => cases h
        | ok bs' =>
          cases h
          simp [ih hrest]
    · cases h

/-! ## Asking, and filling in -/

theorem exec_resolveAll_cons (ev : Option (Evaluator σ)) (tok : Token) (ts : List Token) (st : Status σ) :
    exec (resolveAll ev (tok :: ts)) st = match exec (resolve ev tok) st with
      | (.ok t, st') => ((exec (resolveAll ev ts) st').1.map (t ++ ·), (exec (resolveAll ev ts) st').2)
      | (.error e, st') => (.error e, st') := by
  unfold resolveAll
  rw [exec_bind, exec_mapM_cons]
  rcases exec (resolve ev tok) st with ⟨_ | t, st'⟩
  · rfl
  · simp only [exec_bind]
    rcases exec (ts.mapM (resolve ev)) st' with ⟨_ | bs, st''⟩ <;> rfl

/-- resolving a row of tokens is asking for its interpolations and filling in the replies -/
theorem exec_resolveAll (ev : Option (Evaluator σ)) (ts : List Token) (st : Status σ) :
    exec (resolveAll ev ts) st =
      ((exec ((interpolations ts).mapM (ask ev)) st).1.map (fill · (ts.flatMap Token.atoms)),
        (exec ((interpolations ts).mapM (ask ev)) st).2) := by
  induction ts generalizing st with
  | nil => rfl
  | cons tok ts ih =>
    rw [exec_resolveAll_cons]
    cases tok with
    | literal s p =>
      change ((exec (resolveAll ev ts) st).1.map (s ++ ·), (exec (resolveAll ev ts) st).2) = _
      rw [ih, interpolations_literal]
      rcases exec ((interpolations ts).mapM (ask ev)) st with ⟨_ | rs, st'⟩
      · rfl
      · simp [Except.map, Token.atoms]
    | escape r v p =>
      change ((exec (resolveAll ev ts) st).1.map (v ++ ·), (exec (resolveAll ev ts) st).2) = _
      rw [ih, interpolations_escape]
      rcases exec ((interpolations ts).mapM (ask ev)) st with ⟨_ | rs, st'⟩
      · rfl
      · simp [Except.map, Token.atoms, fill]
    | interpolation e p =>
      rw [interpolations_interpolation, exec_mapM_cons]
      change (match exec (ask ev (e, p)) st with
        | (.ok t, st') => ((exec (resolveAll ev ts) st').1.map (t ++ ·), (exec (resolveAll ev ts) st').2)
        | (.error e, st') => (.error e, st')) = _
      rcases exec (ask ev (e, p)) st with ⟨_ | r, st'⟩
      · rfl
      · simp only [ih]
        rcases exec ((interpolations ts).mapM (ask ev)) st' with ⟨_ | rs, st''⟩
        · rfl
        · simp [Except.map, Token.atoms, fill]

/-- so is resolving words, whose interpolations are asked for in one row -/
theorem exec_resolveWords (ev : Option (Evaluator σ)) (ws : List Word) (st : Status σ) :
    exec (ws.mapM (resolveAll ev)) st =
      ((exec ((interpolations ws.flatten).mapM (ask ev)) st).1.map (fillWords · ws),
        (exec ((interpolations ws.flatten).mapM (ask ev)) st).2) := by
  induction ws generalizing st with
  | nil => rfl
  | cons w ws ih =>
    rw [exec_mapM_cons, exec_resolveAll, List.flatten_cons, interpolations_append, List.mapM_append, exec_bind]
    cases hfirst : exec ((interpolations w).mapM (ask ev)) st with
    | mk result st' =>
      cases result with
      | error e => rfl
      | ok rs =>
        have hlength := exec_mapM_length hfirst
        simp only [Except.map, ih, exec_bind]
        cases exec ((interpolations ws.flatten).mapM (ask ev)) st' with
        | mk result st'' =>
          cases result with
          | error e => rfl
          | ok more =>
            simp [fillWords, fill_more hlength, ← hlength]

/-! ## Messages -/

/-- a step that adds messages and reads none -/
def Appends (r : Rendering σ α) : Prop :=
  ∀ st, exec r st = ((run r st.state).1, ⟨(run r st.state).2.state, st.events ++ (run r st.state).2.events⟩)

theorem appends_pure (a : α) : Appends (pure a : Rendering σ α) := by
  intro st
  simp [run_eq_exec]

theorem appends_ask (ev : Option (Evaluator σ)) (call : Text × Int) : Appends (ask ev call) := by
  intro st
  cases ev with
  | none => simp [ask, resolve, run_eq_exec]
  | some ev => simp [ask, resolve, run_eq_exec, exec_evaluate]

theorem Appends.bind {r : Rendering σ α} {f : α → Rendering σ β} (hr : Appends r) (hf : ∀ a, Appends (f a)) :
    Appends (r >>= f) := by
  intro st
  rw [run_eq_exec, exec_bind, exec_bind, hr st, ← run_eq_exec]
  rcases run r st.state with ⟨_ | a, s', new⟩
  · rfl
  · simp only
    rw [hf a ⟨s', st.events ++ new⟩, hf a ⟨s', new⟩, List.append_assoc]

theorem appends_mapM {f : α → Rendering σ β} (hf : ∀ a, Appends (f a)) (as : List α) : Appends (as.mapM f) := by
  induction as with
  | nil => exact appends_pure []
  | cons a as ih =>
    rw [List.mapM_cons]
    exact (hf a).bind fun b => ih.bind fun bs => appends_pure (b :: bs)

/-! ## Whole renderings -/

/-- the status behind a wanted message -/
def traced (wanted : Bool) (e : Event) (st : Status σ) : Status σ :=
  if wanted then { st with events := st.events ++ [e] } else st

@[simp] theorem traced_state (wanted : Bool) (e : Event) (st : Status σ) : (traced wanted e st).state = st.state := by
  unfold traced
  split <;> rfl

@[simp] theorem exec_trace (wanted : Bool) (e : Event) (st : Status σ) :
    exec (trace wanted e) st = (.ok (), traced wanted e st) := by
  unfold trace traced
  split <;> rfl

variable {names : CharNames} {tracing : Tracing} {ev : Option (Evaluator σ)} {mode : Mode} {t : Text} {ts : List Token}

/-- how a template that cannot be read stops its rendering -/
def stopOf : ReadError → Stop
  | .template e => .template e
  | .failure f => .interrupted f

/-- a template that cannot be read is refused before anything else -/
theorem exec_arrange_error {e : ReadError} (h : scan names mode t = .error e) (st : Status σ) :
    exec (arrange names tracing ev mode t) st = (.error (stopOf e), st) := by
  have htokens : exec (tokens names tracing ev mode t) st = (.error (stopOf e), st) := by
    unfold tokens
    rw [h]
    cases e <;> rfl
  exact exec_bind_error htokens

theorem exec_render_error {e : ReadError} (h : scan names mode t = .error e) (st : Status σ) :
    exec (render names tracing ev mode t) st = (.error (stopOf e), st) :=
  exec_bind_error (exec_arrange_error h st)

/-- the tokens of a template are given unless an evaluator is missing -/
theorem exec_tokens (h : scan names mode t = .ok ts) (hev : ev = none → interpolations ts = []) (st : Status σ) :
    exec (tokens names tracing ev mode t) st = (.ok ts, traced tracing.scanner (.scanned mode ts.length) st) := by
  have hrefused : (mode.expands && ev.isNone && ts.any Token.isInterpolation) = false := by
    cases ev with
    | none => simp [(interpolations_eq_nil_iff ts).1 (hev rfl)]
    | some ev => simp
  unfold tokens
  rw [h]
  simp only
  rw [exec_bind_ok (exec_trace _ _ _), hrefused]
  rfl

/-- without an evaluator, a template with interpolations is refused once it is scanned -/
theorem exec_tokens_refused (h : scan names mode t = .ok ts) (hmode : mode.expands = true)
    (hcalls : interpolations ts ≠ []) (st : Status σ) :
    exec (tokens names tracing (none : Option (Evaluator σ)) mode t) st =
      (.error .noEvaluator, traced tracing.scanner (.scanned mode ts.length) st) := by
  have hany : ts.any Token.isInterpolation = true := by
    simpa using mt (interpolations_eq_nil_iff ts).2 hcalls
  unfold tokens
  rw [h]
  simp only
  rw [exec_bind_ok (exec_trace _ _ _), hmode, hany]
  rfl

theorem exec_render_refused (h : scan names mode t = .ok ts) (hmode : mode.expands = true)
    (hcalls : interpolations ts ≠ []) (st : Status σ) :
    exec (render names tracing (none : Option (Evaluator σ)) mode t) st =
      (.error .noEvaluator, traced tracing.scanner (.scanned mode ts.length) st) :=
  exec_bind_error (exec_bind_error (exec_tokens_refused h hmode hcalls st))

/-- what the replies to all interpolations make of the tokens -/
def finish (mode : Mode) (ts : List Token) (rs : List Text) : Rendered :=
  if mode.splits then .words ((fillWords rs (splitWords ts)).filter (· ≠ []))
  else .text (fill rs (ts.flatMap Token.atoms))

/-- a message, if it is wanted -/
def traceOf (wanted : Bool) (e : Event) : List Event := if wanted then [e] else []

theorem traced_eq (wanted : Bool) (e : Event) (st : Status σ) :
    traced wanted e st = ⟨st.state, st.events ++ traceOf wanted e⟩ := by
  unfold traced traceOf
  split <;> simp

/-- the messages of a rendering before it asks: of the scanner about the tokens, and of the renderer about the words -/
def traces (tracing : Tracing) (mode : Mode) (ts : List Token) : List Event :=
  traceOf tracing.scanner (.scanned mode ts.length) ++
    if mode.splits then traceOf tracing.renderer (.split (splitWords ts).length) else []

/-- the parts of a template with tokens -/
def partsOf (mode : Mode) (ts : List Token) : Parts := if mode.splits then .words (splitWords ts) else .row ts

/-- a template is arranged before anything is asked, with messages about tokens and words -/
theorem exec_arrange (h : scan names mode t = .ok ts) (hev : ev = none → interpolations ts = []) (st : Status σ) :
    exec (arrange names tracing ev mode t) st =
      (.ok (partsOf mode ts), ⟨st.state, st.events ++ traces tracing mode ts⟩) := by
  unfold arrange
  rw [exec_bind_ok (exec_tokens h hev _), traced_eq]
  cases hm : mode.splits with
  | true =>
    simp only [if_true, traces, partsOf, hm]
    rw [exec_bind_ok (exec_trace _ _ _), traced_eq, exec_pure, List.append_assoc]
  | false => simp [traces, partsOf, hm]

/-- its parts are resolved by asking for its interpolations in one row, and filling in the replies -/
theorem exec_complete (ev : Option (Evaluator σ)) (mode : Mode) (ts : List Token) (st : Status σ) :
    exec (complete ev (partsOf mode ts)) st =
      ((run ((interpolations ts).mapM (ask ev)) st.state).1.map (finish mode ts),
        ⟨(run ((interpolations ts).mapM (ask ev)) st.state).2.state,
          st.events ++ (run ((interpolations ts).mapM (ask ev)) st.state).2.events⟩) := by
  cases hm : mode.splits with
  | true =>
    simp only [complete, partsOf, hm, if_true]
    rw [exec_bind, exec_resolveWords, interpolations_splitWords, appends_mapM (appends_ask ev)]
    rcases run ((interpolations ts).mapM (ask ev)) st.state with ⟨_ | rs, st'⟩ <;> simp [Except.map, finish, hm]
  | false =>
    simp only [complete, partsOf, hm, Bool.false_eq_true, if_false]
    rw [exec_bind, exec_resolveAll, appends_mapM (appends_ask ev)]
    rcases run ((interpolations ts).mapM (ask ev)) st.state with ⟨_ | rs, st'⟩ <;> simp [Except.map, finish, hm]

/-- **Rendering is asking and filling in.** With words or without, the interpolations are asked for in one row, behind the
messages about tokens and words. -/
theorem exec_render (h : scan names mode t = .ok ts) (hev : ev = none → interpolations ts = []) (st : Status σ) :
    exec (render names tracing ev mode t) st =
      ((run ((interpolations ts).mapM (ask ev)) st.state).1.map (finish mode ts),
        ⟨(run ((interpolations ts).mapM (ask ev)) st.state).2.state,
          st.events ++ traces tracing mode ts ++ (run ((interpolations ts).mapM (ask ev)) st.state).2.events⟩) := by
  unfold render
  rw [exec_bind_ok (exec_arrange h hev st), exec_complete]

/-- the result of a rendering, and the state that it leaves its evaluator in -/
theorem run_render (h : scan names mode t = .ok ts) (hev : ev = none → interpolations ts = []) (s : σ) :
    (run (render names tracing ev mode t) s).1 = (run ((interpolations ts).mapM (ask ev)) s).1.map (finish mode ts) ∧
      (run (render names tracing ev mode t) s).2.state = (run ((interpolations ts).mapM (ask ev)) s).2.state := by
  rw [run_eq_exec (render names tracing ev mode t), exec_render h hev]
  exact ⟨rfl, rfl⟩

/-- a template without interpolations is rendered whatever the evaluator, and without one -/
theorem exec_render_silent (h : scan names mode t = .ok ts) (hcalls : interpolations ts = []) (st : Status σ) :
    exec (render names tracing ev mode t) st =
      (.ok (finish mode ts []), ⟨st.state, st.events ++ traces tracing mode ts⟩) := by
  have hnone : run (([] : List (Text × Int)).mapM (ask ev)) st.state = (.ok [], ⟨st.state, []⟩) := rfl
  rw [exec_render h (fun _ => hcalls), hcalls, hnone]
  simp [Except.map]

theorem run_render_silent (h : scan names mode t = .ok ts) (hcalls : interpolations ts = []) (s : σ) :
    (run (render names tracing ev mode t) s).1 = .ok (finish mode ts []) := by
  rw [run_eq_exec, exec_render_silent h hcalls]

end Render

end PercentLiteral

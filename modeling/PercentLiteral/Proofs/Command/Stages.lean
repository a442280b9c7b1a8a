/-
The stages of a run, and what each of them does to the machine.

A run that can read its options makes its text (`produce`) and then delivers it. To make the text it sets the logging up,
prepares what it needs (`prepare`), and renders. Behind the set-up a run itself does no more than tell the log something;
all else is done by the code that it comes upon (`moves_produce`).
-/
import PercentLiteral.Proofs.Command.Code

namespace PercentLiteral

namespace Command

open Steps

/-- what a run does before it delivers: it makes the text -/
def produce (q : Request) (o : Options) : Run Text := do
  modify (configureLogging (logFormat q o))
  let mode ← liftExcept (chooseMode o)
  let ev ← if mode.expands then some <$> chooseEvaluator q o else pure none
  let (t, path) ← readTemplate q o.file
  return format o.json (← renderTemplate q mode ev t path)

/-- what a run needs to render: the mode, the evaluator if the mode has use for one, and the template with its file -/
def prepare (q : Request) (o : Options) : Run (Mode × Option (Chosen q.host) × Text × Option Text) := do
  let mode ← liftExcept (chooseMode o)
  let ev ← if mode.expands then some <$> chooseEvaluator q o else pure none
  let (t, path) ← readTemplate q o.file
  return (mode, ev, t, path)

theorem run_eq (q : Request) : run q = (do
    let o ← readOptions q
    let t ← produce q o
    deliver q o t
    return t) := by
  unfold run produce
  simp only [bind_assoc, pure_bind]
  refine bind_congr fun o => bind_congr fun _ => bind_congr fun mode => ?_
  split <;> simp only [bind_assoc, pure_bind]

theorem produce_eq (q : Request) (o : Options) : produce q o = (do
    modify (configureLogging (logFormat q o))
    let (mode, ev, t, path) ← prepare q o
    return format o.json (← renderTemplate q mode ev t path)) := by
  unfold produce prepare
  simp only [bind_assoc, pure_bind]
  refine bind_congr fun _ => bind_congr fun mode => ?_
  split <;> simp only [bind_assoc, pure_bind]

/-- a machine that has said nothing yet -/
def Machine.silent (m : Machine) : Machine := { m with printed := [], lines := [] }

theorem from_eq_exec {α : Type} (r : Run α) (m : Machine) : r.from m = exec r m.silent := rfl

theorem configureLogging_silent (format : Log.Format) (m : Machine) :
    configureLogging format m.silent = (configureLogging format m).silent := by
  unfold configureLogging Machine.silent
  split <;> rfl

/-- with arguments that can be read, a run makes its text and delivers it -/
theorem exec_run {q : Request} {o : Options} (hparse : Options.parse q.arguments = .ok o) (m : Machine) :
    exec (run q) m = exec (do let t ← produce q o; deliver q o t; return t) m := by
  have hread : readOptions q = pure o := by
    unfold readOptions
    rw [hparse]
  rw [run_eq, hread, pure_bind]

/-- a run delivers the text that it makes -/
theorem run_produced {q : Request} {o : Options} {t : Text} (hparse : Options.parse q.arguments = .ok o)
    {m m' : Machine} (h : (produce q o).from m = (.ok t, m')) :
    (run q).from m = exec (do deliver q o t; return t) m' := by
  rw [from_eq_exec, exec_run hparse, exec_bind_ok (s := m.silent) h]

/-- what prevents a run from making its text prevents it -/
theorem run_unproduced {q : Request} {o : Options} {a : Abort} (hparse : Options.parse q.arguments = .ok o)
    {m m' : Machine} (h : (produce q o).from m = (.error a, m')) : (run q).from m = (.error a, m') := by
  rw [from_eq_exec, exec_run hparse, exec_bind_error (s := m.silent) h]

/-- what prevents a run from preparing prevents it -/
theorem run_unprepared {q : Request} {o : Options} {a : Abort} (hparse : Options.parse q.arguments = .ok o)
    {m m' : Machine} (h : exec (prepare q o) (configureLogging (logFormat q o) m.silent) = (.error a, m')) :
    (run q).from m = (.error a, m') := by
  refine run_unproduced hparse ?_
  rw [from_eq_exec, produce_eq, exec_bind_ok (exec_modify _ _), exec_bind_error h]

/-- in a mode that has use for it, the evaluator is chosen first -/
theorem prepare_expanding {q : Request} {o : Options} {mode : Mode} (hmode : o.mode = some mode)
    (hexpands : mode.expands = true) : prepare q o = (do
      let choice ← chooseEvaluator q o
      let (t, path) ← readTemplate q o.file
      return (mode, some choice, t, path)) := by
  have hchosen : liftExcept (chooseMode o) = (pure mode : Run Mode) := by
    unfold chooseMode
    rw [hmode]
    rfl
  unfold prepare
  rw [hchosen, pure_bind, hexpands]
  simp only [if_true, map_eq_pure_bind, bind_assoc, pure_bind]

/-- a run without the evaluator that it has use for fails before it reads its template -/
theorem run_unchosen {q : Request} {o : Options} {mode : Mode} {a : Abort}
    (hparse : Options.parse q.arguments = .ok o) (hmode : o.mode = some mode) (hexpands : mode.expands = true)
    (h : ∀ m, (exec (chooseEvaluator q o) m).1 = .error a) (m : Machine) : ((run q).from m).1 = .error a := by
  rcases hchoose : exec (chooseEvaluator q o) (configureLogging (logFormat q o) m.silent) with ⟨result, m'⟩
  obtain rfl : result = .error a := by
    rw [← h (configureLogging (logFormat q o) m.silent), hchoose]
  have hprepare : exec (prepare q o) (configureLogging (logFormat q o) m.silent) = (.error a, m') := by
    rw [prepare_expanding hmode hexpands, exec_bind_error hchoose]
  rw [run_unprepared hparse hprepare]

/-! ## Reading and rendering a template -/

theorem result_decoded (bs : List UInt8) (m m' : Machine) : (exec (decoded bs) m).1 = (exec (decoded bs) m').1 := by
  unfold decoded
  split <;> rfl

/-- what is read depends on the files alone -/
theorem result_readTemplate (q : Request) (file : Text) {m m' : Machine} (h : m.files = m'.files) :
    (exec (readTemplate q file) m).1 = (exec (readTemplate q file) m').1 := by
  have hread : ∀ bs path, (exec (do return (← decoded bs, path) : Run (Text × Option Text)) m).1 =
      (exec (do return (← decoded bs, path) : Run (Text × Option Text)) m').1 := by
    intro bs path
    rw [exec_bind_pure, exec_bind_pure, result_decoded bs m m']
  unfold readTemplate
  split
  · split
    · rfl
    · exact hread _ none
  · rw [exec_bind_ok (exec_get m), exec_bind_ok (exec_get m'), h]
    split
    · exact hread _ (some file)
    · rfl
    · rfl

/-- logging events never fails -/
theorem exec_logEvents (q : Request) (events : List Event) (m : Machine) :
    ∃ lines, exec (logEvents q events) m = (.ok (), { m with lines }) := by
  induction events generalizing m with
  | nil => exact ⟨m.lines, rfl⟩
  | cons e events ih => exact ih _

/-- a part of a rendering on the machine: its result is given on, and its events are logged -/
theorem exec_onMachine {α : Type} (q : Request) (ev : Option (Chosen q.host))
    (r : Option (Evaluator (Chosen q.host × Machine)) → Rendering (Chosen q.host × Machine) α) (m : Machine) :
    let part := Render.run (r (ev.map fun _ => Chosen.evaluator q.host)) (ev.getD (.lookup [] false), m)
    ∃ lines, exec (onMachine q ev r) m = (.ok part.1, { part.2.state.2 with lines }) := by
  intro part
  obtain ⟨lines, hevents⟩ := exec_logEvents q part.2.events part.2.state.2
  refine ⟨lines, ?_⟩
  unfold onMachine
  rw [exec_bind_ok (exec_get m), exec_bind_ok (exec_set m _), exec_bind_ok hevents]
  rfl

/-- how a run goes on from the end of its rendering -/
def concluded : Except Stop Rendered → Except Abort Rendered
  | .ok r => .ok r
  | .error (.template e) => .error (.template e)
  | .error .noEvaluator => .error (.failure (.saying "ValueError" Render.noEvaluatorMessage))
  | .error (.interrupted f) => .error (.failure f)

theorem result_conclude (q : Request) (t : Text) (path : Option Text) (result : Except Stop Rendered) (m : Machine) :
    (exec (conclude q t path result) m).1 = concluded result := by
  rcases result with (e | _ | f) | r <;> rfl

/-! ## What a run does to the machine -/

/-- a relation of machines that does not look at what the log was told -/
class Quiet (R : Machine → Machine → Prop) : Prop extends IsPreorder Machine R where
  lines : ∀ (m : Machine) (lines : List (Log.Stream × Text)), R m { m with lines }

variable {R : Machine → Machine → Prop} [Quiet R]

theorem moves_logRecord (r : Log.Record) : Moves R (logRecord r) := moves_modify fun m => Quiet.lines m _

theorem moves_log (q : Request) (level : Int) (message : Text) : Moves R (log q level message) := moves_logRecord _

theorem moves_liftExcept {α : Type} (x : Except Abort α) : Moves R (liftExcept x) := by
  cases x with
  | ok a => exact moves_pure a
  | error e => exact moves_throw e

theorem moves_decoded (bs : List UInt8) : Moves R (decoded bs) := by
  unfold decoded
  split
  · exact moves_pure _
  · exact moves_throw _

theorem moves_readTemplate (q : Request) (file : Text) : Moves R (readTemplate q file) := by
  unfold readTemplate
  split
  · split
    · exact moves_pure _
    · exact (moves_decoded _).bind fun t => moves_pure _
  · refine moves_get.bind fun m => ?_
    split
    · exact (moves_decoded _).bind fun t => moves_pure _
    · exact moves_throw _
    · exact moves_throw _

theorem moves_conclude (q : Request) (t : Text) (path : Option Text) (result : Except Stop Rendered) :
    Moves R (conclude q t path result) := by
  unfold conclude
  split
  · exact moves_pure _
  · exact (moves_log q _ _).bind fun _ => moves_throw _
  · exact moves_throw _
  · exact moves_throw _

variable {q : Request} {o : Options}

/-- an evaluator is chosen by looking its reference up, if there is one -/
theorem moves_chooseEvaluator (hcode : q.Acts o R) : Moves R (chooseEvaluator q o) := by
  unfold chooseEvaluator
  simp only
  split
  · rename_i href
    exact (moves_modify (hcode.visit href)).bind fun _ => (moves_liftExcept _).bind fun c =>
      (moves_log q _ _).bind fun _ => moves_pure _
  · exact (moves_liftExcept _).bind fun vars => moves_pure _

/-- a part of a rendering changes the machine as the evaluator does -/
theorem moves_onMachine {α : Type} {ev : Option (Chosen q.host)} (hev : ∀ c ∈ ev, c.Acts R)
    {r : Option (Evaluator (Chosen q.host × Machine)) → Rendering (Chosen q.host × Machine) α}
    (hr : Moves (Follows R) (r (ev.map fun _ => Chosen.evaluator q.host))) : Moves R (onMachine q ev r) := by
  intro m
  obtain ⟨lines, hexec⟩ := exec_onMachine q ev r m
  rw [hexec]
  have hstart : (ev.getD (.lookup [] false)).Acts R := by
    cases ev with
    | none => trivial
    | some c => exact hev c rfl
  exact trans_of R (hr ⟨(ev.getD (.lookup [] false), m), []⟩ hstart).2 (Quiet.lines _ lines)

theorem moves_renderTemplate {ev : Option (Chosen q.host)} (hev : ∀ c ∈ ev, c.Acts R) (mode : Mode) (t : Text)
    (path : Option Text) : Moves R (renderTemplate q mode ev t path) := by
  unfold renderTemplate
  refine moves_get.bind fun m => (moves_onMachine hev (moves_arrange ev _ _ mode t)).bind fun arranged => ?_
  split
  · exact moves_conclude q t path _
  · exact (moves_onMachine hev (moves_complete ev _)).bind fun result => moves_conclude q t path result

/-- **Making the text.** Behind the set-up of the logging, all that a run does to the machine besides telling the log
something is done by the code that it comes upon. -/
theorem moves_produce (hcode : q.Acts o R) (m : Machine) :
    R (configureLogging (logFormat q o) m) (exec (produce q o) m).2 := by
  have hrest : ∀ (mode : Mode) (ev : Option (Chosen q.host)), (∀ c ∈ ev, c.Acts R) → Moves R (do
      let (t, path) ← readTemplate q o.file
      return format o.json (← renderTemplate q mode ev t path)) := fun mode ev hev =>
    (moves_readTemplate q o.file).bind fun template =>
      (moves_renderTemplate hev mode template.1 template.2).bind fun _ => moves_pure _
  unfold produce
  rw [exec_bind_ok (exec_modify _ _)]
  refine (moves_liftExcept _).bind (fun mode => ?_) (configureLogging (logFormat q o) m)
  split
  · -- what is known of the chosen evaluator is needed where it is called
    rw [map_eq_pure_bind, bind_assoc]
    refine (moves_chooseEvaluator hcode).bind_of fun m₁ c m₂ hchosen => ?_
    rw [pure_bind]
    refine hrest mode (some c) (fun c' hc' => ?_) m₂
    obtain rfl := Option.some.inj hc'
    exact chosen_acts hcode hchosen
  · rw [pure_bind]
    exact hrest mode none fun c hc => nomatch hc

end Command

end PercentLiteral

/-
The format of the log, whatever came before a run.

A run sets the logger up only if it asks for another format than the run before it, and nothing tells it of set-ups that
come about otherwise. From its set-up to its end, only the code that it comes upon does something to the logger. Others
may set the logger up as well, and add and remove handlers of their own (`Touch`); and code may do just that
(`Happening.Touches`). Then a sequence of happenings amounts to a sequence of touches (`Amounts`, `exists_amounts`), which
says all about the handlers (`handlers_after`), and the format remembered is that of the last run (`configured_after`).

`run_logs_as_asked`: a run that asks for another format than the run before logs as it asked, or others hold the logger.
One that asks for the same format leaves the logger alone. Then the same is true just if there are handlers, and these are
of others or the set-up performed last was for this format.
-/
import PercentLiteral.Command.Standard
import PercentLiteral.Proofs.Command.Stages
import PercentLiteral.Proofs.Log.Configuration
import Mathlib

namespace PercentLiteral

namespace Command

open Steps

/-! ## Touches -/

/-- what others do to the logger -/
inductive Touch where
  | setup (u : Log.Setup)
  | addForeign (number : Nat)
  | removeForeign (number : Nat)

namespace Touch

/-- a touch as an action -/
def action : Touch → Log.Action
  | setup u => .setup u
  | addForeign n => .addForeign n
  | removeForeign n => .removeForeign n

/-- the logger after a touch -/
def apply (l : Log.Logger) : Touch → Log.Logger
  | setup u => l.setup u
  | addForeign n => l.addForeign n
  | removeForeign n => l.removeForeign n

/-- the set-up that a touch performs -/
def setup? : Touch → Option Log.Setup
  | setup u => some u
  | _ => none

end Touch

/-- the logger after touches -/
def touched (l : Log.Logger) (ts : List Touch) : Log.Logger := ts.foldl Touch.apply l

/-- the set-ups that touches perform -/
def setUps (ts : List Touch) : List Log.Setup := ts.filterMap Touch.setup?

theorem touched_append (l : Log.Logger) (ts us : List Touch) : touched l (ts ++ us) = touched (touched l ts) us :=
  List.foldl_append

/-- which handlers there are after a touch depends on the handlers before it -/
theorem handlers_apply {l l' : Log.Logger} (h : l.handlers = l'.handlers) (t : Touch) :
    (t.apply l).handlers = (t.apply l').handlers := by
  cases t with
  | setup u =>
    simp only [Touch.apply, Log.Logger.setup, h]
    split <;> rfl
  | addForeign n =>
    simp only [Touch.apply, Log.Logger.addForeign, h]
    split
    · exact h
    · rfl
  | removeForeign n => simp only [Touch.apply, Log.Logger.removeForeign, h]

theorem handlers_touched {l l' : Log.Logger} (h : l.handlers = l'.handlers) (ts : List Touch) :
    (touched l ts).handlers = (touched l' ts).handlers := by
  induction ts generalizing l l' with
  | nil => exact h
  | cons t ts ih => exact ih (handlers_apply h t)

/-- touches are actions on the logger, and make no factories -/
theorem run_touches (l : Log.Logger) (ts : List Touch) :
    (⟨l, []⟩ : Log.State).run (ts.map Touch.action) = ⟨touched l ts, []⟩ := by
  induction ts generalizing l with
  | nil => rfl
  | cons t ts ih => cases t <;> exact ih _

theorem performed_touches (ts : List Touch) : Log.performed (ts.map Touch.action) = setUps ts := by
  induction ts using List.reverseRecOn with
  | nil => rfl
  | append_singleton ts t ih =>
    rw [List.map_append, List.map_singleton, Log.performed_snoc, ih]
    cases t <;> simp [setUps, Touch.action, Touch.setup?, Log.performs]

/-- touches of a machine: the handlers are those after the touches, and the format that is remembered stays -/
def Touched (ts : List Touch) (m m' : Machine) : Prop :=
  m'.logger.handlers = (touched m.logger ts).handlers ∧ m'.configured = m.configured

theorem Touched.trans {ts us : List Touch} {m m' m'' : Machine} (h : Touched ts m m') (h' : Touched us m' m'') :
    Touched (ts ++ us) m m'' := by
  refine ⟨?_, h'.2.trans h.2⟩
  rw [touched_append, h'.1]
  exact handlers_touched h.1 us

/-- some touches of a machine, and nothing else to its handlers -/
def OnlyTouched (m m' : Machine) : Prop := ∃ ts, Touched ts m m'

instance : Quiet OnlyTouched where
  refl _ := ⟨[], rfl, rfl⟩
  trans _ _ _ := fun ⟨ts, h⟩ ⟨us, h'⟩ => ⟨ts ++ us, h.trans h'⟩
  lines _ _ := ⟨[], rfl, rfl⟩

/-- the program's own code only touches the logger -/
theorem touched_standard (q : Request) (o : Options) : ({ q with host := .standard } : Request).Acts o OnlyTouched := by
  have hcall : ∀ (c : Reference.Callable) (e : Text) (m : Machine), OnlyTouched m (Host.standard.call c e m).2.2 := by
    intro c e m
    refine ⟨(c.reply .standard Reference.standard e).2.map .setup, ?_, rfl⟩
    unfold touched
    rw [List.foldl_map]
    rfl
  exact ⟨fun _ m => refl_of OnlyTouched m, fun _ _ _ d _ e m => hcall d e m, fun _ _ _ d _ e m => hcall d e m⟩

/-! ## What a run does to the logger -/

/-- the logger, and the format that the last run set up -/
def Machine.logging (m : Machine) : Log.Logger × Option Log.Format := (m.logger, m.configured)

instance : Quiet (Same Machine.logging) where
  lines _ _ := rfl

theorem keeps_print (q : Request) (t : Text) : Keeps Machine.logging (print q t) := by
  unfold print
  split
  · exact moves_throw _
  · split
    · split
      · exact moves_modify fun _ => rfl
      · exact moves_throw _
    · exact moves_modify fun _ => rfl

theorem keeps_complain (t : Text) : Keeps Machine.logging (complain t) := moves_modify fun _ => rfl

theorem keeps_put (path : Text) (bs : List UInt8) : Keeps Machine.logging (writeFile.put path bs) := by
  unfold writeFile.put
  refine moves_get.bind fun m => ?_
  split
  · exact moves_modify fun _ => rfl
  · exact moves_throw _

theorem keeps_writeFile (path t : Text) : Keeps Machine.logging (writeFile path t) := by
  unfold writeFile
  refine (keeps_put path []).bind fun _ => ?_
  split
  · exact keeps_put path _
  · exact moves_throw _

theorem keeps_deliver (q : Request) (o : Options) (t : Text) : Keeps Machine.logging (deliver q o t) := by
  unfold deliver
  split
  · exact (keeps_writeFile _ t).bind fun _ => moves_log q _ _
  · split
    · exact keeps_print q t
    · exact moves_pure _

theorem keeps_finish (q : Request) (a : Abort) : Keeps Machine.logging (finish q a) := by
  unfold finish
  split
  · exact moves_pure _
  · exact moves_pure _
  · exact (moves_log q _ _).bind fun _ => moves_pure _
  · split
    · exact (moves_log q _ _).bind fun _ => moves_pure _
    · split
      · exact moves_pure _
      · split
        · exact moves_pure _
        · exact (moves_log q _ _).bind fun _ => moves_pure _

/-- **A run and the logger.** A run sets the logger up if it has to; what it does then is done where it makes its text. -/
theorem logging_run {q : Request} {o : Options} (hparse : Options.parse q.arguments = .ok o) (m : Machine) :
    ((run q).from m).2.logging = (exec (produce q o) m.silent).2.logging := by
  rw [from_eq_exec, exec_run hparse]
  exact part_bind (fun t => (keeps_deliver q o t).bind fun _ => moves_pure t) _

/-- a run whose options cannot be read does not get to the logger -/
theorem logging_run_unread {q : Request} {e : Refusal} (hparse : Options.parse q.arguments = .error e) (m : Machine) :
    ((run q).from m).2.logging = m.logging := by
  obtain ⟨say, a, hread, hsay⟩ : ∃ (say : Run PUnit) (a : Abort),
      readOptions q = (do say; throw a) ∧ Keeps Machine.logging say := by
    unfold readOptions
    rw [hparse]
    cases e with
    | help => exact ⟨_, _, rfl, keeps_print q help⟩
    | _ => exact ⟨_, _, rfl, keeps_complain _⟩
  rw [from_eq_exec, run_eq, hread, bind_assoc]
  exact hsay.bind (fun _ => moves_throw a) _

/-- what a program says about the end of its run is nothing to the logger -/
theorem logging_program (q : Request) (m : Machine) : ((program q).from m).2.logging = ((run q).from m).2.logging := by
  refine (part_tryCatch _ (keeps_finish q) _).trans ?_
  exact part_bind (fun _ => moves_pure _) _

theorem logging_configured (format : Log.Format) (m : Machine) :
    (configureLogging format m.silent).logging = (configureLogging format m).logging := by
  rw [configureLogging_silent]
  rfl

/-- a run whose code spares the logger leaves it as it set it up -/
theorem logging_spared {q : Request} {o : Options} (hparse : Options.parse q.arguments = .ok o)
    (hcode : q.Spares o Machine.logging) (m : Machine) :
    ((run q).from m).2.logging = (configureLogging (logFormat q o) m).logging := by
  have hmade : (exec (produce q o) m.silent).2.logging = (configureLogging (logFormat q o) m.silent).logging :=
    moves_produce hcode m.silent
  rw [logging_run hparse, hmade, logging_configured]

theorem touched_of_logging {ts : List Touch} {m m' n n' : Machine} (h : Touched ts m n) (hm : m.logging = m'.logging)
    (hn : n.logging = n'.logging) : Touched ts m' n' := by
  obtain ⟨hlogger, hconfigured⟩ := Prod.mk.inj hm
  obtain ⟨hlogger', hconfigured'⟩ := Prod.mk.inj hn
  unfold Touched
  rw [← hlogger, ← hlogger', ← hconfigured, ← hconfigured']
  exact h

/-- a run whose code only touches the logger does so to the logger that it set up -/
theorem touched_run {q : Request} {o : Options} (hparse : Options.parse q.arguments = .ok o)
    (hcode : q.Acts o OnlyTouched) (m : Machine) :
    OnlyTouched (configureLogging (logFormat q o) m) ((run q).from m).2 := by
  obtain ⟨ts, hts⟩ := moves_produce hcode m.silent
  exact ⟨ts, touched_of_logging hts (logging_configured _ m) (logging_run hparse m).symm⟩

/-! ## Happenings -/

/-- what happens to a machine: runs, called for their result or as programs, touches of its logger, and files that others
change -/
inductive Happening where
  | run (q : Request)
  | program (q : Request)
  | touch (t : Touch)
  | change (files : FileTree)

namespace Machine

/-- one happening -/
def step (m : Machine) : Happening → Machine
  | .run q => ((Command.run q).from m).2
  | .program q => ((Command.program q).from m).2
  | .touch t => { m with logger := t.apply m.logger }
  | .change files => { m with files }

/-- a sequence of happenings -/
def after (m : Machine) (done : List Happening) : Machine := done.foldl step m

/-- a machine on which nothing was logged yet -/
def bare (files : FileTree) (level : Int) (propagate : Bool) : Machine :=
  { files, logger := (Log.State.bare level propagate).logger }

end Machine

/-- the format that a run asks for; none if its options cannot be read -/
def Request.format? (q : Request) : Option Log.Format := (Options.parse q.arguments).toOption.map (logFormat q)

/-- the run that a happening is -/
def Happening.request? : Happening → Option Request
  | .run q => some q
  | .program q => some q
  | _ => none

/-- the format that a happening asks for, if it is a run -/
def Happening.format? (h : Happening) : Option Log.Format := h.request?.bind Request.format?

/-- the format that the last run asked for -/
def lastAsked (done : List Happening) : Option Log.Format := (done.filterMap Happening.format?).getLast?

/-- a happening whose code, if it is a run, only touches the logger -/
def Happening.Touches (h : Happening) : Prop :=
  ∀ q ∈ h.request?, ∀ o, Options.parse q.arguments = .ok o → q.Acts o OnlyTouched

/-- the set-up of a run's own: none if it asks for the format remembered -/
def Request.setsUp (q : Request) (o : Options) (m : Machine) : List Touch :=
  if m.configured = some (logFormat q o) then [] else [.setup { format := logFormat q o }]

/-- what a happening does to the logger: a run performs its own set-up, and then its code does something -/
inductive Happening.Does (h : Happening) (m : Machine) : List Touch → Prop where
  | run {q : Request} {o : Options} {ts : List Touch} : h.request? = some q → Options.parse q.arguments = .ok o →
      Touched ts (configureLogging (logFormat q o) m) (m.step h) → h.Does m (q.setsUp o m ++ ts)
  | unread {q : Request} {e : Refusal} : h.request? = some q → Options.parse q.arguments = .error e → h.Does m []
  | touch {t : Touch} : h = .touch t → h.Does m [t]
  | change {files : FileTree} : h = .change files → h.Does m []

/-- what a sequence of happenings does to the logger -/
inductive Amounts : Machine → List Happening → List Touch → Prop where
  | nil {m : Machine} : Amounts m [] []
  | cons {m : Machine} {h : Happening} {rest : List Happening} {ts us : List Touch} :
      h.Does m ts → Amounts (m.step h) rest us → Amounts m (h :: rest) (ts ++ us)

variable {h : Happening} {q : Request} {o : Options} {m : Machine} {ts : List Touch} {done : List Happening}

/-- a happening that is a run leaves the logger as the run does -/
theorem logging_step (hq : h.request? = some q) (m : Machine) : (m.step h).logging = ((run q).from m).2.logging := by
  cases h with
  | run q' =>
    cases hq
    rfl
  | program q' =>
    cases hq
    exact logging_program q m
  | touch t => cases hq
  | change files => cases hq

theorem touched_configureLogging (q : Request) (o : Options) (m : Machine) :
    (configureLogging (logFormat q o) m).logger = touched m.logger (q.setsUp o m) ∧
      (configureLogging (logFormat q o) m).configured = some (logFormat q o) := by
  unfold configureLogging Request.setsUp
  split
  · rename_i hsame
    exact ⟨rfl, hsame⟩
  · exact ⟨rfl, rfl⟩

/-- **One happening** does to the handlers what it does to the logger, and a run remembers its format. -/
theorem step_does (hdoes : h.Does m ts) : (m.step h).logger.handlers = (touched m.logger ts).handlers ∧
    (m.step h).configured = h.format?.or m.configured := by
  cases hdoes with
  | @run q o ts hq hparse hts =>
    obtain ⟨hlogger, hconfigured⟩ := touched_configureLogging q o m
    refine ⟨?_, ?_⟩
    · rw [hts.1, hlogger, touched_append]
    · rw [hts.2, hconfigured]
      simp [Happening.format?, hq, Request.format?, hparse, Except.toOption]
  | @unread q e hq hparse =>
    obtain ⟨hlogger, hconfigured⟩ := Prod.mk.inj ((logging_step hq m).trans (logging_run_unread hparse m))
    rw [hlogger, hconfigured]
    simp [Happening.format?, hq, Request.format?, hparse, Except.toOption, touched]
  | touch ht =>
    subst ht
    exact ⟨rfl, rfl⟩
  | change hfiles =>
    subst hfiles
    exact ⟨rfl, rfl⟩

/-- a happening whose code only touches the logger does some touches -/
theorem exists_does (htouches : h.Touches) (m : Machine) : ∃ ts, h.Does m ts := by
  cases hq : h.request? with
  | some q =>
    cases hparse : Options.parse q.arguments with
    | error e => exact ⟨[], .unread hq hparse⟩
    | ok o =>
      obtain ⟨ts, hts⟩ := touched_run hparse (htouches q hq o hparse) m
      exact ⟨_, .run hq hparse (touched_of_logging hts rfl (logging_step hq m).symm)⟩
  | none =>
    cases h with
    | run q => cases hq
    | program q => cases hq
    | touch t => exact ⟨[t], .touch rfl⟩
    | change files => exact ⟨[], .change rfl⟩

theorem exists_amounts (htouches : ∀ h ∈ done, h.Touches) (m : Machine) : ∃ ts, Amounts m done ts := by
  induction done generalizing m with
  | nil => exact ⟨[], .nil⟩
  | cons h rest ih =>
    obtain ⟨hfirst, hrest⟩ := List.forall_mem_cons.1 htouches
    obtain ⟨ts, hts⟩ := exists_does hfirst m
    obtain ⟨us, hus⟩ := ih hrest (m.step h)
    exact ⟨ts ++ us, .cons hts hus⟩

/-- **All happenings** do theirs, one behind the other. -/
theorem handlers_after (hdone : Amounts m done ts) :
    (m.after done).logger.handlers = (touched m.logger ts).handlers := by
  induction hdone with
  | nil => rfl
  | @cons m h rest ts us hdoes _ ih =>
    rw [touched_append]
    exact ih.trans (handlers_touched (step_does hdoes).1 us)

theorem lastAsked_cons (h : Happening) (rest : List Happening) :
    lastAsked (h :: rest) = (lastAsked rest).or h.format? := by
  unfold lastAsked
  cases hasks : h.format? with
  | none => simp [hasks]
  | some format =>
    rw [List.filterMap_cons_some hasks, List.getLast?_cons]
    cases (rest.filterMap Happening.format?).getLast? <;> rfl

/-- the format that is remembered is that of the last run -/
theorem configured_after (hdone : Amounts m done ts) :
    (m.after done).configured = (lastAsked done).or m.configured := by
  induction hdone with
  | nil => rfl
  | @cons m h rest ts us hdoes _ ih =>
    rw [lastAsked_cons, Option.or_assoc, ← (step_does hdoes).2]
    exact ih

/-! ## What a run logs in -/

/-- others hold the logger, or its one handler besides theirs writes in a format -/
def LogsIn (format : Log.Format) (l : Log.Logger) : Prop := l.HeldByOthers ∨ ∃ stream, l.own = [.own format stream]

/-- a set-up makes a logger log in its format -/
theorem logsIn_setup (u : Log.Setup) (l : Log.Logger) : LogsIn u.format (l.setup u) := by
  have hset := Log.Logger.setup_setsUp u l
  by_cases hheld : l.HeldByOthers
  · rw [hset.held hheld]
    exact Or.inl hheld
  · exact Or.inr ⟨u.stream, (hset.taken hheld).1⟩

/-- a logger that has at most the handler of one set-up logs in the format of that one -/
theorem logsIn_iff {l : Log.Logger} {last : Option Log.Setup}
    (hown : l.own = [] ∨ ∃ u, last = some u ∧ l.own = [u.handler]) (format : Log.Format) :
    LogsIn format l ↔ l.handlers ≠ [] ∧ (l.own = [] ∨ last.map Log.Setup.format = some format) := by
  unfold LogsIn Log.Logger.HeldByOthers
  rcases hown with hnone | ⟨u, rfl, hown⟩
  · simp [hnone]
  · have hhandlers : l.handlers ≠ [] := by
      intro hempty
      simp [Log.Logger.own, hempty] at hown
    simp [hown, hhandlers, Log.Setup.handler]

/-- JSON has to be asked for -/
theorem logFormat_eq_json_iff :
    logFormat q o = .json ↔ o.jsonLogs = true ∨ q.setting? "PERCENTQ_JSON_LOGS" = some (text "1") := by
  unfold logFormat
  split <;> simp_all

/-- **What a run logs in.** A run asks for JSON by its arguments or its environment. Take any happenings before it, with no
code that does more to the logger than touch it. They amount to touches. When the run has set its logging up, there is at
most one handler of set-ups, and from then on only its code touches the logger. If the run asks for another format than the
run before it, or is the first, it logs as it asked. If it asks for the same format, it leaves the logger as it is; then it
logs as it asked just if there are handlers, and these are of others or the set-up performed last was for this format. -/
theorem run_logs_as_asked (hparse : Options.parse q.arguments = .ok o) (htouches : ∀ h ∈ done, h.Touches)
    (files : FileTree) (level : Int) (propagate : Bool) :
    let start := Machine.bare files level propagate
    let m := start.after done
    let format := logFormat q o
    let l := (configureLogging format m).logger
    (format = .json ↔ o.jsonLogs = true ∨ q.setting? "PERCENTQ_JSON_LOGS" = some (text "1")) ∧
      m.configured = lastAsked done ∧
      (q.Spares o Machine.logging → ((run q).from m).2.logging = (configureLogging format m).logging) ∧
      (q.Acts o OnlyTouched → OnlyTouched (configureLogging format m) ((run q).from m).2) ∧
      l.own.length ≤ 1 ∧
      (lastAsked done ≠ some format → LogsIn format l) ∧
      (∃ ts, Amounts start done ts) ∧ ∀ ts, Amounts start done ts →
        lastAsked done = some format → l = m.logger ∧
          (LogsIn format l ↔ l.handlers ≠ [] ∧ (l.own = [] ∨ (setUps ts).getLast?.map Log.Setup.format = some format)) := by
  intro start m format l
  obtain ⟨ts₀, hts₀⟩ := exists_amounts htouches start
  have hconfigured : m.configured = lastAsked done := (configured_after hts₀).trans Option.or_none
  have hown : ∀ ts, Amounts start done ts →
      m.logger.own = [] ∨ ∃ u, (setUps ts).getLast? = some u ∧ m.logger.own = [u.handler] := by
    intro ts hts
    have hhandlers : m.logger.own = ((Log.State.bare level propagate).run (ts.map Touch.action)).logger.own := by
      unfold Log.Logger.own Log.State.bare
      rw [run_touches, handlers_after hts]
      rfl
    rw [hhandlers, ← performed_touches]
    exact (Log.run_configured level propagate (ts.map Touch.action)).own
  refine ⟨logFormat_eq_json_iff, hconfigured, fun hcode => logging_spared hparse hcode m,
    fun hcode => touched_run hparse hcode m, ?_⟩
  by_cases hasked : lastAsked done = some format
  · have hl : l = m.logger := by
      have hkept : configureLogging format m = m := if_pos (hconfigured.trans hasked)
      exact congrArg Machine.logger hkept
    rw [hl]
    refine ⟨?_, fun hother => absurd hasked hother, ⟨ts₀, hts₀⟩, fun ts hts _ => ⟨rfl, logsIn_iff (hown ts hts) format⟩⟩
    rcases hown ts₀ hts₀ with hnone | ⟨u, _, hown⟩
    · simp [hnone]
    · simp [hown]
  · have hl : l = m.logger.setup { format } := by
      have hset : configureLogging format m =
          { m with logger := m.logger.setup { format }, configured := some format } :=
        if_neg fun h => hasked (hconfigured.symm.trans h)
      exact congrArg Machine.logger hset
    rw [hl]
    refine ⟨?_, fun _ => logsIn_setup _ _, ⟨ts₀, hts₀⟩, fun _ _ hsame => absurd hsame hasked⟩
    rcases Log.Logger.own_setup { format } m.logger with hnone | hown
    · simp [hnone]
    · simp [hown]

/-- a request that gives nothing but arguments -/
def giving (arguments : List Text) : Request := { host := .bare, arguments, now := .none }

/-- the code of its host touches nothing -/
theorem touches_giving (arguments : List Text) : (Happening.run (giving arguments)).Touches := by
  rintro q ⟨⟩ o _
  exact ⟨fun _ m => refl_of OnlyTouched m, fun _ _ _ _ _ _ m => refl_of OnlyTouched m,
    fun _ _ _ _ _ _ m => refl_of OnlyTouched m⟩

/-- what is no run has no code at all -/
theorem touches_touch (touch : Touch) : (Happening.touch touch).Touches := by
  intro q hq
  cases hq

theorem parse_giving_json :
    Options.parse (giving [text "--json-logs"]).arguments = .ok { jsonLogs := true } := by cbv

theorem logFormat_giving_json : logFormat (giving [text "--json-logs"]) { jsonLogs := true } = .json :=
  logFormat_eq_json_iff.2 (Or.inl rfl)

/-- a run that asks for JSON after one that did not, with a set-up and somebody else's handler in between -/
theorem run_logs_as_asked_switched :
    Options.parse (giving [text "--json-logs"]).arguments = .ok { jsonLogs := true } ∧
      lastAsked [.run (giving []), .touch (.setup { level := Log.debug }), .touch (.addForeign 7)] = some .plain ∧
      LogsIn .json (configureLogging .json ((Machine.bare [] 0 true).after
        [.run (giving []), .touch (.setup { level := Log.debug }), .touch (.addForeign 7)])).logger := by
  have hlast : lastAsked [.run (giving []), .touch (.setup { level := Log.debug }), .touch (.addForeign 7)] =
      some .plain := by cbv
  have htouches : ∀ h ∈ [.run (giving []), .touch (.setup { level := Log.debug }), .touch (.addForeign 7)],
      Happening.Touches h := by
    simp only [List.forall_mem_cons]
    exact ⟨touches_giving [], touches_touch _, touches_touch _, by simp⟩
  obtain ⟨_, _, _, _, _, hother, _⟩ := run_logs_as_asked parse_giving_json htouches [] 0 true
  rw [logFormat_giving_json, hlast] at hother
  exact ⟨parse_giving_json, hlast, hother (by decide)⟩

/-- **Runs that do not log as they asked.** After a set-up between two runs that ask for JSON, the second logs plainly. If
somebody holds the logger when a run sets it up and lets go of it before the next, the next has no handler at all. -/
theorem run_logs_otherwise :
    (Options.parse (giving [text "--json-logs"]).arguments = .ok { jsonLogs := true } ∧
        logFormat (giving [text "--json-logs"]) { jsonLogs := true } = .json ∧
        ¬ LogsIn .json (configureLogging .json ((Machine.bare [] 0 true).after
          [.run (giving [text "--json-logs"]), .touch (.setup {})])).logger) ∧
      Options.parse (giving []).arguments = .ok {} ∧
        logFormat (giving []) {} = .plain ∧
        ¬ LogsIn .plain (configureLogging .plain ((Machine.bare [] 0 true).after
          [.touch (.addForeign 7), .run (giving []), .touch (.removeForeign 7)])).logger := by
  have hstale : (configureLogging .json ((Machine.bare [] 0 true).after
      [.run (giving [text "--json-logs"]), .touch (.setup {})])).logger =
        ⟨[.own .plain .standardError], Log.info, false⟩ := by cbv
  have hnone : (configureLogging .plain ((Machine.bare [] 0 true).after
      [.touch (.addForeign 7), .run (giving []), .touch (.removeForeign 7)])).logger = ⟨[], Log.info, true⟩ := by cbv
  refine ⟨⟨parse_giving_json, logFormat_giving_json, ?_⟩, by cbv, by cbv, ?_⟩
  · rw [hstale]
    intro hlogs
    rcases hlogs with ⟨_, hlogs⟩ | ⟨stream, hlogs⟩
    · cases hlogs
    · cases hlogs
  · rw [hnone]
    intro hlogs
    rcases hlogs with ⟨hlogs, _⟩ | ⟨stream, hlogs⟩
    · exact hlogs rfl
    · cases hlogs

end Command

end PercentLiteral

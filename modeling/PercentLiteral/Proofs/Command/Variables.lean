/-
What interpolations give in a run that looks variables up.

An item sets a name to a value: the name is the text before its first equals sign, and the value is what stands behind it
(`Sets`). `Resolves` says what a run replies to an expression. It speaks of the items, the environment and the options as
they are given, and of no table of variables: the last item that sets the name counts (`LastSets`), and the environment
only if no item does. `resolves_iff` says that the evaluator of the run replies just so.

`variables_resolve`: hence when a run is refused for its items, what each interpolation gives, and which names there are.
-/
import PercentLiteral.Proofs.Command.Delivery
import PercentLiteral.Proofs.Interpolation.Names

namespace PercentLiteral

/-! ## The last value of a name -/

/-- the value of a name in a list of settings of which the last one counts -/
def lastValue {α : Type} (es : List (Text × α)) (name : Text) : Option α :=
  (es.reverse.find? fun e => e.1 = name).map (·.2)

theorem lastValue_append {α : Type} (es fs : List (Text × α)) (name : Text) :
    lastValue (es ++ fs) name = (lastValue fs name).or (lastValue es name) := by
  unfold lastValue
  rw [List.reverse_append, List.find?_append, Option.map_or]

theorem lastValue_singleton {α : Type} (e : Text × α) (name : Text) :
    lastValue [e] name = if e.1 = name then some e.2 else none := by
  by_cases h : e.1 = name <;> simp [lastValue, h]

theorem lastValue_cons {α : Type} (e : Text × α) (es : List (Text × α)) (name : Text) :
    lastValue (e :: es) name = (lastValue es name).or (if e.1 = name then some e.2 else none) := by
  rw [← List.singleton_append, lastValue_append, lastValue_singleton]

theorem lastValue_map {α β : Type} (f : α → β) (es : List (Text × α)) (name : Text) :
    lastValue (es.map fun e => (e.1, f e.2)) name = (lastValue es name).map f := by
  induction es with
  | nil => rfl
  | cons e es ih =>
    rw [List.map_cons, lastValue_cons, lastValue_cons, ih, Option.map_or]
    by_cases h : e.1 = name <;> simp [h]

namespace Variables

theorem get?_set (vars : Variables) (name : Text) (v : Value) (other : Text) :
    (set name v vars).get? other = if name = other then some v else vars.get? other := by
  induction vars with
  | nil => by_cases h : name = other <;> simp [set, get?, h]
  | cons e es ih =>
    rw [set]
    split
    · rename_i he
      by_cases h : name = other <;> simp [get?, he, h]
    · rename_i he
      by_cases h : e.1 = other
      · have hne : name ≠ other := fun hname => he (h.trans hname.symm)
        simp [get?, h, hne]
      · have hcons : ∀ l : Variables, get? (e :: l) other = get? l other := fun l => by simp [get?, h]
        rw [hcons, hcons, ih]

theorem get?_ofList (es : List (Text × Value)) (name : Text) : (ofList es).get? name = lastValue es name := by
  induction es using List.reverseRecOn with
  | nil => rfl
  | append_singleton es e ih =>
    have hset : ofList (es ++ [e]) = set e.1 e.2 (ofList es) := List.foldl_append
    rw [hset, get?_set, ih, lastValue_append, lastValue_singleton]
    by_cases h : e.1 = name <;> simp [h]

end Variables

namespace Command

open Steps Interpolation
open Render (outcome run_render)

/-- an item that sets a name to a value: they are the texts before and behind its first equals sign -/
structure Sets (name value : Text) (item : Option Text) : Prop where
  parts : item = some (name ++ .equals :: value)
  first : .equals ∉ name

/-- an item without an equals sign -/
def Lacks (item : Option Text) : Prop := ∀ t ∈ item, .equals ∉ t

/-- no item sets the name -/
def Unset (items : List (Option Text)) (name : Text) : Prop := ∀ item ∈ items, ∀ value, ¬ Sets name value item

/-- the last item that sets the name sets it to this value -/
def LastSets (items : List (Option Text)) (name value : Text) : Prop :=
  ∃ before item behind, items = before ++ item :: behind ∧ Sets name value item ∧ Unset behind name

theorem cut_item_iff {item : Option Text} {name value : Text} :
    item.bind (Text.cut .equals) = some (name, value) ↔ Sets name value item := by
  rw [Option.bind_eq_some_iff]
  constructor
  · rintro ⟨t, rfl, hcut⟩
    obtain ⟨rfl, hfirst⟩ := Text.cut_eq_some_iff.1 hcut
    exact ⟨rfl, hfirst⟩
  · rintro ⟨rfl, hfirst⟩
    exact ⟨_, rfl, Text.cut_eq_some_iff.2 ⟨rfl, hfirst⟩⟩

theorem readItem_eq_ok {item : Option Text} {name value : Text} (h : Sets name value item) :
    readItem item = .ok (name, .str value) := by
  unfold readItem
  rw [cut_item_iff.2 h]

theorem readItem_lacking {item : Option Text} (h : Lacks item) : ∃ message, readItem item = .error (.usage message) := by
  have hcut : item.bind (Text.cut .equals) = none := by
    rw [Option.bind_eq_none_iff]
    exact fun t ht => Text.cut_eq_none_iff.2 (h t ht)
  unfold readItem
  rw [hcut]
  exact ⟨_, rfl⟩

/-- an item without an equals sign sets nothing, and every other sets one name -/
theorem lacks_or_sets (item : Option Text) : Lacks item ∨ ∃ name value, Sets name value item := by
  cases hcut : item.bind (Text.cut .equals) with
  | none =>
    left
    intro t ht
    exact Text.cut_eq_none_iff.1 (Option.bind_eq_none_iff.1 hcut t ht)
  | some p => exact Or.inr ⟨p.1, p.2, cut_item_iff.1 hcut⟩

theorem Sets.not_lacks {name value : Text} {item : Option Text} (h : Sets name value item) : ¬ Lacks item := by
  intro hlacks
  exact hlacks _ h.parts (by simp)

theorem Sets.unique {name value other value' : Text} {item : Option Text} (h : Sets name value item)
    (h' : Sets other value' item) : name = other ∧ value = value' := by
  have := (cut_item_iff.2 h).symm.trans (cut_item_iff.2 h')
  simpa using this

theorem unset_cons {item : Option Text} {items : List (Option Text)} {name : Text} :
    Unset (item :: items) name ↔ (∀ value, ¬ Sets name value item) ∧ Unset items name := List.forall_mem_cons

/-- the last item that sets a name is the first item only if no later one does -/
theorem lastSets_cons {item : Option Text} {items : List (Option Text)} {name value : Text} :
    LastSets (item :: items) name value ↔ LastSets items name value ∨ Unset items name ∧ Sets name value item := by
  constructor
  · rintro ⟨before, last, behind, hitems, hsets, hunset⟩
    cases before with
    | nil =>
      obtain ⟨rfl, rfl⟩ := List.cons.inj hitems
      exact Or.inr ⟨hunset, hsets⟩
    | cons first before =>
      obtain ⟨rfl, rfl⟩ := List.cons.inj hitems
      exact Or.inl ⟨before, last, behind, rfl, hsets, hunset⟩
  · rintro (⟨before, last, behind, rfl, hsets, hunset⟩ | ⟨hunset, hsets⟩)
    · exact ⟨item :: before, last, behind, rfl, hsets, hunset⟩
    · exact ⟨[], item, items, rfl, hsets, hunset⟩

/-- items with the settings that they are read as -/
abbrev ReadAs : List (Option Text) → List (Text × Text) → Prop := List.Forall₂ fun item s => Sets s.1 s.2 item

theorem unset_iff {items : List (Option Text)} {ss : List (Text × Text)} (h : ReadAs items ss) (name : Text) :
    Unset items name ↔ lastValue ss name = none := by
  induction h with
  | nil => exact ⟨fun _ => rfl, fun _ item hitem => nomatch hitem⟩
  | @cons item s items ss hsets _ ih =>
    rw [unset_cons, ih, lastValue_cons, Option.or_eq_none_iff, and_comm]
    refine and_congr_right fun _ => ?_
    constructor
    · intro hnone
      refine if_neg fun hname => ?_
      exact hnone s.2 (hname ▸ hsets)
    · intro hnone value hother
      rw [if_pos (hsets.unique hother).1] at hnone
      cases hnone

theorem lastSets_iff {items : List (Option Text)} {ss : List (Text × Text)} (h : ReadAs items ss) (name value : Text) :
    LastSets items name value ↔ lastValue ss name = some value := by
  induction h with
  | nil =>
    constructor
    · rintro ⟨before, item, behind, hitems, _⟩
      simp at hitems
    · intro hnone
      cases hnone
  | @cons item s items ss hsets htail ih =>
    rw [lastSets_cons, ih, unset_iff htail, lastValue_cons, Option.or_eq_some_iff]
    refine or_congr_right (and_congr_right fun _ => ?_)
    constructor
    · intro hother
      obtain ⟨hname, hvalue⟩ := hsets.unique hother
      rw [if_pos hname, hvalue]
    · intro hvalue
      split at hvalue
      · rename_i hname
        cases hvalue
        exact hname ▸ hsets
      · cases hvalue

theorem exists_readAs {items : List (Option Text)} (h : ∀ item ∈ items, ¬ Lacks item) : ∃ ss, ReadAs items ss := by
  refine exists_forall₂ fun item hitem => ?_
  obtain ⟨name, value, hsets⟩ := (lacks_or_sets item).resolve_left (h item hitem)
  exact ⟨(name, value), hsets⟩

/-! ## The variables of a run -/

variable {q : Request} {o : Options}

theorem mapM_readItem {items : List (Option Text)} {ss : List (Text × Text)} (h : ReadAs items ss) :
    items.mapM readItem = .ok (ss.map fun s => (s.1, .str s.2)) := by
  apply mapM_ok
  rw [List.forall₂_map_right_iff]
  exact h.imp fun item s hsets => readItem_eq_ok hsets

theorem mapM_readItem_lacking {items : List (Option Text)} (h : ∃ item ∈ items, Lacks item) :
    ∃ message, items.mapM readItem = .error (.usage message) := by
  obtain ⟨item, hitem, hlacks⟩ := h
  obtain ⟨message, hread⟩ := readItem_lacking hlacks
  obtain ⟨first, _, e, he, hitems⟩ := mapM_failing ⟨item, hitem, _, hread⟩
  rcases lacks_or_sets first with hfirst | ⟨name, value, hsets⟩
  · obtain ⟨message', hread'⟩ := readItem_lacking hfirst
    cases he.symm.trans hread'
    exact ⟨message', hitems⟩
  · cases he.symm.trans (readItem_eq_ok hsets)

/-- the settings from the environment, if they are asked for -/
def inherited (q : Request) (o : Options) : List (Text × Text) := if o.environment then q.environment else []

/-- the environment is asked for, and gives the name this value -/
def Inherits (q : Request) (o : Options) (name value : Text) : Prop :=
  o.environment = true ∧ lastValue q.environment name = some value

theorem inherits_iff {name value : Text} : Inherits q o name value ↔ lastValue (inherited q o) name = some value := by
  unfold Inherits inherited
  cases o.environment <;> simp [lastValue]

theorem outerVariables_eq {ss : List (Text × Text)} (h : ReadAs o.items ss) :
    outerVariables q o = .ok (Variables.ofList ((inherited q o ++ ss).map fun s => (s.1, .str s.2))) := by
  unfold outerVariables inherited
  rw [mapM_readItem h, List.map_append]
  cases o.environment <;> rfl

/-- what a run replies to an expression, which is a name with blanks around it -/
inductive Resolves (q : Request) (o : Options) (e : Text) : Reply → Prop where
  /-- the value of the last item that sets the name -/
  | item {value : Text} : LastSets o.items (Text.strip e) value → Resolves q o e (.text value)
  /-- or else the value that is inherited -/
  | inherited {value : Text} :
      Unset o.items (Text.strip e) → Inherits q o (Text.strip e) value → Resolves q o e (.text value)
  /-- or else nothing -/
  | nothing : Unset o.items (Text.strip e) → (∀ value, ¬ Inherits q o (Text.strip e) value) → o.strict = false →
      Resolves q o e (.text [])
  /-- which is a failure if names are strict -/
  | missing : Unset o.items (Text.strip e) → (∀ value, ¬ Inherits q o (Text.strip e) value) → o.strict = true →
      Resolves q o e (.raised ⟨text "KeyError", [.str (Text.strip e)]⟩)

theorem resolves_iff {ss : List (Text × Text)} (h : ReadAs o.items ss) {e : Text} {r : Reply} :
    Resolves q o e r ↔
      (Variables.ofList ((inherited q o ++ ss).map fun s => (s.1, .str s.2))).reply o.strict e = r := by
  have hget : (Variables.ofList ((inherited q o ++ ss).map fun s => (s.1, .str s.2))).get? (Text.strip e) =
      ((lastValue ss (Text.strip e)).or (lastValue (inherited q o) (Text.strip e))).map .str := by
    rw [Variables.get?_ofList, lastValue_map, lastValue_append]
  have hnone : (∀ value, ¬ Inherits q o (Text.strip e) value) ↔ lastValue (inherited q o) (Text.strip e) = none := by
    simp only [inherits_iff, Option.eq_none_iff_forall_ne_some, ne_eq]
  unfold Variables.reply
  simp only [hget]
  constructor
  · intro hr
    cases hr with
    | item hsets =>
      rw [(lastSets_iff h _ _).1 hsets]
      rfl
    | inherited hunset hinherits =>
      rw [(unset_iff h _).1 hunset, inherits_iff.1 hinherits]
      rfl
    | nothing hunset hmissing hstrict =>
      rw [(unset_iff h _).1 hunset, hnone.1 hmissing, hstrict]
      rfl
    | missing hunset hmissing hstrict =>
      rw [(unset_iff h _).1 hunset, hnone.1 hmissing, hstrict]
      rfl
  · rintro rfl
    cases hitem : lastValue ss (Text.strip e) with
    | some value => exact .item ((lastSets_iff h _ _).2 hitem)
    | none =>
      have hunset := (unset_iff h _).2 hitem
      cases houter : lastValue (inherited q o) (Text.strip e) with
      | some value => exact .inherited hunset (inherits_iff.2 houter)
      | none =>
        cases hstrict : o.strict with
        | false => exact .nothing hunset (hnone.2 houter) hstrict
        | true => exact .missing hunset (hnone.2 houter) hstrict

/-- with items that can be read there are variables, and looking them up is resolving -/
theorem exists_variables (h : ∀ item ∈ o.items, ¬ Lacks item) :
    ∃ vars, outerVariables q o = .ok vars ∧ ∀ e r, Resolves q o e r ↔ vars.reply o.strict e = r := by
  obtain ⟨ss, hss⟩ := exists_readAs h
  exact ⟨_, outerVariables_eq hss, fun e r => resolves_iff hss⟩

/-! ## Runs -/

variable {mode : Mode}

/-- without a reference, a run chooses by its variables -/
theorem exec_chooseEvaluator (href : reference q o = []) (m : Machine) :
    exec (chooseEvaluator q o) m = ((outerVariables q o).map fun vars =>
      if o.expressions then .code (q.host.expressions vars) else .lookup vars o.strict, m) := by
  have hnot : ¬ reference q o ≠ [] := fun h => h href
  unfold chooseEvaluator
  simp only [if_neg hnot]
  cases outerVariables q o <;> rfl

/-- a run whose items cannot be read says so, whatever else is the matter -/
theorem run_lacking (hparse : Options.parse q.arguments = .ok o) (hmode : o.mode = some mode)
    (hexpands : mode.expands = true) (href : reference q o = []) (h : ∃ item ∈ o.items, Lacks item) (m : Machine) :
    ∃ message, ((run q).from m).1 = .error (.usage message) := by
  obtain ⟨message, hitems⟩ := mapM_readItem_lacking h
  have hvars : outerVariables q o = .error (.usage message) := by
    unfold outerVariables
    rw [hitems]
    rfl
  refine ⟨message, run_unchosen hparse hmode hexpands (fun m' => ?_) m⟩
  rw [exec_chooseEvaluator href, hvars]
  rfl

/-- what is asked for a template of a run, and what the run makes of the replies -/
theorem result_renderTemplate {vars : Variables} {strict : Bool} {t : Text} {ts : List Token}
    (h : scan q.host.names mode t = .ok ts) (path : Option Text) (m : Machine) :
    (exec (renderTemplate q mode (some (.lookup vars strict)) t path) m).1 =
      concluded (((interpolations ts).mapM fun c => outcome c.1 c.2 (vars.reply strict c.1)).map
        (Render.finish mode ts)) := by
  -- first the parts of the template are found, then they are resolved
  obtain ⟨lines, harranged⟩ := exec_onMachine q (some (.lookup vars strict))
    (fun ev => Render.arrange q.host.names (tracing q m.logger) ev mode t) m
  rw [Render.run_eq_exec, Render.exec_arrange h (by simp)] at harranged
  obtain ⟨lines', hcompleted⟩ := exec_onMachine q (some (.lookup vars strict))
    (fun ev => Render.complete ev (Render.partsOf mode ts)) { m with lines }
  have hstays : ∀ e, Chosen.evaluator q.host (.lookup vars strict, { m with lines }) e =
      (vars.reply strict e, (.lookup vars strict, { m with lines })) := fun e => rfl
  unfold renderTemplate
  rw [exec_bind_ok (exec_get m), exec_bind_ok harranged]
  simp only
  rw [exec_bind_ok hcompleted, result_conclude, Render.run_eq_exec, Render.exec_complete, ← run_ask_constant hstays]
  rfl

theorem fails_conclude (t : Text) (path : Option Text) (result : Except Stop Rendered) :
    Fails (fun a : Abort => ¬ a.IsUsage) (conclude q t path result) := by
  unfold conclude
  split
  · exact fails_pure _
  · exact Fails.bind (fails_modify _) fun _ => fails_throw id
  · exact fails_throw id
  · exact fails_throw id

/-- a rendering never fails by a mistake of the user -/
theorem fails_renderTemplate (ev : Option (Chosen q.host)) (t : Text) (path : Option Text) :
    Fails (fun a : Abort => ¬ a.IsUsage) (renderTemplate q mode ev t path) := by
  have hpart : ∀ {α : Type} (r : Option (Evaluator (Chosen q.host × Machine)) → Rendering (Chosen q.host × Machine) α),
      Fails (fun a : Abort => ¬ a.IsUsage) (onMachine q ev r) := by
    intro α r m a h
    obtain ⟨lines, hexec⟩ := exec_onMachine q ev r m
    rw [hexec] at h
    cases h
  unfold renderTemplate
  refine fails_get.bind fun m => (hpart _).bind fun arranged => ?_
  split
  · exact fails_conclude t path _
  · exact (hpart _).bind fun result => fails_conclude t path result

/-- a run that looks variables up is prepared once it has read its template -/
theorem exec_prepare (hmode : o.mode = some mode) (hexpands : mode.expands = true) (href : reference q o = [])
    (hplain : o.expressions = false) {vars : Variables} (hvars : outerVariables q o = .ok vars) (m : Machine) :
    exec (prepare q o) m =
      ((exec (readTemplate q o.file) m).1.map fun p => (mode, some (.lookup vars o.strict), p.1, p.2),
        (exec (readTemplate q o.file) m).2) := by
  have hchoose : exec (chooseEvaluator q o) m = (.ok (.lookup vars o.strict), m) := by
    rw [exec_chooseEvaluator href, hvars, hplain]
    rfl
  rw [prepare_expanding hmode hexpands, exec_bind_ok hchoose]
  exact exec_bind_pure _ _ m

/-- a run that looks variables up reads its template and renders it -/
theorem result_produce (hmode : o.mode = some mode) (hexpands : mode.expands = true) (href : reference q o = [])
    (hplain : o.expressions = false) {vars : Variables} (hvars : outerVariables q o = .ok vars) (m : Machine) :
    ∃ m', ((produce q o).from m).1 = ((readTemplate q o.file).from m).1.bind fun p =>
      (exec (renderTemplate q mode (some (.lookup vars o.strict)) p.1 p.2) m').1.map (format o.json) := by
  have hfiles : (configureLogging (logFormat q o) m.silent).files = m.silent.files :=
    congrArg Prod.fst (output_configureLogging _ m.silent)
  have hprepare := exec_prepare hmode hexpands href hplain hvars (configureLogging (logFormat q o) m.silent)
  rw [from_eq_exec, from_eq_exec, ← result_readTemplate q o.file hfiles, produce_eq, exec_bind_ok (exec_modify _ _)]
  rcases hread : exec (readTemplate q o.file) (configureLogging (logFormat q o) m.silent) with ⟨a | p, m'⟩
  · rw [hread] at hprepare
    exact ⟨m', by rw [exec_bind_error hprepare]; rfl⟩
  · rw [hread] at hprepare
    refine ⟨m', ?_⟩
    rw [exec_bind_ok hprepare, exec_bind_pure]
    rfl

/-- with readable items, only a template that is not there is a mistake of the user -/
theorem run_usage_iff (hparse : Options.parse q.arguments = .ok o) (hmode : o.mode = some mode)
    (hexpands : mode.expands = true) (href : reference q o = []) (hplain : o.expressions = false) {vars : Variables}
    (hvars : outerVariables q o = .ok vars) (m : Machine) (message : Text) :
    ((run q).from m).1 = .error (.usage message) ↔ ((readTemplate q o.file).from m).1 = .error (.usage message) := by
  obtain ⟨l, hproduce⟩ := result_produce hmode hexpands href hplain hvars m
  rcases hrun : (run q).from m with ⟨result, m'⟩
  constructor
  · rintro rfl
    rcases run_failed hparse hrun with hfailed | ⟨t, m₁, _, hdeliver⟩
    · rw [hfailed] at hproduce
      rcases hread : ((readTemplate q o.file).from m).1 with a | p
      · rw [hread] at hproduce
        cases hproduce
        rfl
      · rw [hread] at hproduce
        have hrendered := hproduce.symm
        simp only [Except.bind, Except.map] at hrendered
        split at hrendered
        · rename_i a ha
          cases hrendered
          exact absurd trivial (fails_renderTemplate _ _ _ _ _ ha)
        · cases hrendered
    · exact absurd trivial (fails_deliver q o t m₁ (.usage message) (by rw [hdeliver]))
  · intro hread
    rw [hread] at hproduce
    have hfailed : (produce q o).from m = (.error (.usage message), ((produce q o).from m).2) := Prod.ext hproduce rfl
    cases hrun.symm.trans (run_unproduced hparse hfailed)
    rfl

/-- **Variables, end to end.** A run that looks variables up is refused if some item has no equals sign, and for no other
mistake of its user but a template that is not there. Otherwise every expression has one reply. If the replies to the
interpolations of the template are texts, the run makes its text by filling them in, and delivers it; the first reply that
is a missing name is the cause of the error that the run ends with. The names that interpolations can have are the texts
with matching braces and without blanks at their ends, and each is written between the marks as it is. -/
theorem variables_resolve (hparse : Options.parse q.arguments = .ok o) (hmode : o.mode = some mode)
    (hexpands : mode.expands = true) (href : reference q o = []) (hplain : o.expressions = false) (m : Machine) :
    ((∃ item ∈ o.items, Lacks item) → ∃ message, ((run q).from m).1 = .error (.usage message)) ∧
      ((¬ ∃ message, ((readTemplate q o.file).from m).1 = .error (.usage message)) →
        ((∃ message, ((run q).from m).1 = .error (.usage message)) ↔ ∃ item ∈ o.items, Lacks item)) ∧
      ((∀ item ∈ o.items, ¬ Lacks item) →
        (∀ e, ∃! r, Resolves q o e r) ∧
        ∀ t path ts, ((readTemplate q o.file).from m).1 = .ok (t, path) → scan q.host.names mode t = .ok ts →
          (∀ rs, List.Forall₂ (fun c r => Resolves q o c.1 (.text r)) (interpolations ts) rs →
            ∃ m', (produce q o).from m = (.ok (format o.json (Render.finish mode ts rs)), m') ∧
              (run q).from m = exec (do
                deliver q o (format o.json (Render.finish mode ts rs))
                return format o.json (Render.finish mode ts rs)) m') ∧
          ∀ before e p behind f, interpolations ts = before ++ (e, p) :: behind →
            (∀ c ∈ before, ∃ r, Resolves q o c.1 (.text r)) → Resolves q o e (.raised f) →
              ((run q).from m).1 = .error (.template ⟨.evaluation f, e, p⟩)) ∧
      ∀ k, ((∃ t ts, scan q.host.names mode t = .ok ts ∧ ∃ c ∈ interpolations ts, Text.strip c.1 = k) ↔
          Text.Trimmed k ∧ Balanced k) ∧
        (Text.Trimmed k ∧ Balanced k → Text.strip k = k ∧
          scan q.host.names mode (.hash :: .braceOpen :: k ++ [.braceClose]) = .ok [.interpolation k 0]) := by
  refine ⟨?_, ?_, ?_, ?_⟩
  · intro hlacks
    exact run_lacking hparse hmode hexpands href hlacks m
  · intro hthere
    constructor
    · rintro ⟨message, hrun⟩
      by_contra hnone
      obtain ⟨vars, hvars, _⟩ := exists_variables (q := q) fun item hitem hlacks => hnone ⟨item, hitem, hlacks⟩
      exact hthere ⟨message, (run_usage_iff hparse hmode hexpands href hplain hvars m message).1 hrun⟩
    · intro hlacks
      exact run_lacking hparse hmode hexpands href hlacks m
  · intro hitems
    obtain ⟨vars, hvars, hreply⟩ := exists_variables (q := q) hitems
    refine ⟨?_, ?_⟩
    · intro e
      exact ⟨_, (hreply e _).2 rfl, fun r hr => ((hreply e r).1 hr).symm⟩
    · intro t path ts hread hscan
      obtain ⟨l, hproduce⟩ := result_produce hmode hexpands href hplain hvars m
      rw [hread] at hproduce
      simp only [Except.bind, result_renderTemplate hscan] at hproduce
      constructor
      · intro rs hrs
        have hasked : (interpolations ts).mapM (fun c => outcome c.1 c.2 (vars.reply o.strict c.1)) = .ok rs :=
          mapM_ok (hrs.imp fun c r hr => outcome_eq_ok_iff.2 ((hreply c.1 _).1 hr))
        rw [hasked] at hproduce
        have hmade : (produce q o).from m =
          (.ok (format o.json (Render.finish mode ts rs)), ((produce q o).from m).2) := Prod.ext hproduce rfl
        exact ⟨_, hmade, run_produced hparse hmade⟩
      · intro before e p behind f hcalls hbefore hraised
        have hanswered : ∀ c ∈ before, ∃ r, outcome c.1 c.2 (vars.reply o.strict c.1) = .ok r := fun c hc =>
          (hbefore c hc).imp fun r hr => outcome_eq_ok_iff.2 ((hreply c.1 _).1 hr)
        have hfirst : outcome e p (vars.reply o.strict e) = .error (.template ⟨.evaluation f, e, p⟩) := by
          rw [(hreply e _).1 hraised]
          rfl
        have hasked : (interpolations ts).mapM (fun c => outcome c.1 c.2 (vars.reply o.strict c.1)) =
            .error (.template ⟨.evaluation f, e, p⟩) := hcalls ▸ mapM_error hanswered hfirst behind
        rw [hasked] at hproduce
        have hfailed : (produce q o).from m = (.error (.template ⟨.evaluation f, e, p⟩), ((produce q o).from m).2) :=
          Prod.ext hproduce rfl
        rw [run_unproduced hparse hfailed]
  · intro k
    refine ⟨exists_named_iff hexpands, ?_⟩
    rintro ⟨htrimmed, hbalanced⟩
    exact ⟨Text.strip_eq_self_iff.2 htrimmed, scan_named hexpands q.host.names hbalanced⟩

/-- a run that sets a name twice, over an expression with blanks around the name -/
def settingTwice : Request :=
  { host := .bare, arguments := [text "-e", text "x=1", text "-e", text "x=a=b"],
    input := .given (text "#\x7b x \x7d"), prints := false, now := .none }

/-- the second setting counts, up to its first equals sign -/
theorem variables_resolve_twice :
    Options.parse settingTwice.arguments = .ok { items := [some (text "x=1"), some (text "x=a=b")] } ∧
      ((run settingTwice).from {}).1 = .ok (text "a=b") := by
  have hparse : Options.parse settingTwice.arguments =
      .ok { items := [some (text "x=1"), some (text "x=a=b")] } := by rfl
  have hone : Sets (text "x") (text "1") (some (text "x=1")) := ⟨rfl, by decide⟩
  have htwo : Sets (text "x") (text "a=b") (some (text "x=a=b")) := ⟨rfl, by decide⟩
  have hbalanced : Balanced (text " x ") :=
    (body?_iff.1 (by decide : body? 0 (text " x \x7d") = some (text " x "))).1
  have hmode : ({ items := [some (text "x=1"), some (text "x=a=b")] } : Options).mode = some .interpolated := rfl
  obtain ⟨_, _, hresolve, _⟩ := variables_resolve hparse hmode rfl (by decide) rfl {}
  obtain ⟨_, hrender⟩ := hresolve (by
    intro item hitem
    rcases List.mem_pair.1 hitem with rfl | rfl
    · exact hone.not_lacks
    · exact htwo.not_lacks)
  have hlast : Resolves settingTwice { items := [some (text "x=1"), some (text "x=a=b")] } (text " x ")
      (.text (text "a=b")) := .item ⟨[some (text "x=1")], some (text "x=a=b"), [], rfl, htwo, by simp [Unset]⟩
  obtain ⟨hmade, _⟩ := hrender (text "#\x7b x \x7d") none _ rfl (scan_named rfl settingTwice.host.names hbalanced)
  obtain ⟨m', _, hrun⟩ := hmade [text "a=b"] (.cons hlast .nil)
  refine ⟨hparse, ?_⟩
  rw [hrun]
  rfl

end Command

end PercentLiteral

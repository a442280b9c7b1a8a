/-
Which handlers the logger has after any sequence of set-ups, factories that are asked, and handlers that somebody else
adds and removes.

The logger's own handlers are those of set-ups. It is held by others if it has handlers and none is its own. What one
set-up does is said once (`SetsUp`, `setup_setsUp`); `performs` says which actions are set-ups, given those before: a
direct one always, and a question to a factory if the factory was made and was not asked before. `Configured` ties the
logger and the factories to the set-ups performed so far. Every action keeps it (`step_configured`), so it holds after
every run (`run_configured`).

`configuration_of_run`: after every run there is at most one handler of its own, every set-up that follows keeps to its
contract, a factory performs its set-up once, and level and own handler are those of the set-up performed last.
-/
import PercentLiteral.Log.Logger
import Mathlib.Data.List.Induction

namespace PercentLiteral.Log

/-! ## One set-up -/

namespace Logger

/-- the handlers of set-ups -/
def own (l : Logger) : List Handler := l.handlers.filter Handler.isOwn

/-- the handlers of others -/
def others (l : Logger) : List Handler := l.handlers.filter fun h => !h.isOwn

/-- there are handlers, and all are of others -/
def HeldByOthers (l : Logger) : Prop := l.handlers ≠ [] ∧ l.own = []

end Logger

/-- the handler that a set-up installs -/
def Setup.handler (u : Setup) : Handler := .own u.format u.stream

/-- what a set-up makes of a logger: the handlers of others stay as they are, and unless they hold the logger there is one
handler besides them -/
structure SetsUp (u : Setup) (l l' : Logger) : Prop where
  others : l'.others = l.others
  level : l'.level = u.level
  held : l.HeldByOthers → l' = { l with level := u.level }
  taken : ¬ l.HeldByOthers → l'.own = [u.handler] ∧ l'.propagate = false

namespace Logger

theorem heldByOthers_iff (l : Logger) : l.HeldByOthers ↔ l.handlers ≠ [] ∧ ∀ h ∈ l.handlers, !h.isOwn := by
  unfold HeldByOthers own
  rw [List.filter_eq_nil_iff]
  simp

theorem setup_of_held {l : Logger} (h : l.HeldByOthers) (u : Setup) : l.setup u = { l with level := u.level } := by
  rw [setup, if_pos ((heldByOthers_iff l).1 h)]

theorem setup_of_not_held {l : Logger} (h : ¬ l.HeldByOthers) (u : Setup) :
    l.setup u = ⟨l.others ++ [u.handler], u.level, false⟩ := by
  rw [heldByOthers_iff] at h
  rw [setup, if_neg h]
  rfl

/-- every set-up keeps to its contract -/
theorem setup_setsUp (u : Setup) (l : Logger) : SetsUp u l (l.setup u) := by
  by_cases hheld : l.HeldByOthers
  · rw [setup_of_held hheld]
    exact ⟨rfl, rfl, fun _ => rfl, fun hnot => absurd hheld hnot⟩
  · rw [setup_of_not_held hheld]
    have hnone : l.others.filter Handler.isOwn = [] := by
      rw [others, List.filter_filter, List.filter_eq_nil_iff]
      simp
    have hall : l.others.filter (fun h => !h.isOwn) = l.others := by
      rw [others, List.filter_filter]
      simp
    refine ⟨?_, rfl, fun hyes => absurd hyes hheld, fun _ => ⟨?_, rfl⟩⟩
    · rw [others, List.filter_append, hall]
      exact List.append_nil _
    · rw [own, List.filter_append, hnone]
      rfl

theorem own_setup (u : Setup) (l : Logger) : (l.setup u).own = [] ∨ (l.setup u).own = [u.handler] := by
  have hset := setup_setsUp u l
  by_cases hheld : l.HeldByOthers
  · rw [hset.held hheld]
    exact Or.inl hheld.2
  · exact Or.inr (hset.taken hheld).1

/-- handlers that others add and remove leave the own one alone -/
theorem own_addForeign (n : Nat) (l : Logger) : (l.addForeign n).own = l.own := by
  unfold addForeign
  split
  · rfl
  · simp [own, Handler.isOwn]

theorem own_removeForeign (n : Nat) (l : Logger) : (l.removeForeign n).own = l.own := by
  have hnot : Handler.foreign n ∉ l.own := by simp [own, Handler.isOwn]
  unfold removeForeign own
  rw [← List.erase_filter]
  exact List.erase_of_not_mem hnot

theorem level_addForeign (n : Nat) (l : Logger) : (l.addForeign n).level = l.level := by
  unfold addForeign
  split <;> rfl

theorem propagate_addForeign (n : Nat) (l : Logger) : (l.addForeign n).propagate = l.propagate := by
  unfold addForeign
  split <;> rfl

end Logger

/-! ## The set-ups that are performed -/

/-- what the actions of a sequence amount to, each judged by those before it -/
def along {α : Type} (f : List Action → Action → Option α) (before : List Action) : List Action → List α
  | [] => []
  | a :: rest => (f before a).toList ++ along f (before ++ [a]) rest

theorem along_append {α : Type} (f : List Action → Action → Option α) (before xs ys : List Action) :
    along f before (xs ++ ys) = along f before xs ++ along f (before ++ xs) ys := by
  induction xs generalizing before with
  | nil => simp [along]
  | cons a xs ih => simp [along, ih]

/-- the set-up of a factory that is made -/
def makes : Action → Option Setup
  | .makeFactory u => some u
  | _ => none

/-- the factories, by what they set up, in the order in which they were made -/
def made (done : List Action) : List Setup := done.filterMap makes

/-- the factory that is asked, if it was made before -/
def asks (before : List Action) : Action → Option Nat
  | .ask i => if i < (made before).length then some i else none
  | _ => none

/-- the factories that were asked -/
def asked (done : List Action) : List Nat := along asks [] done

/-- the set-up that an action performs: a direct one, or that of a factory when it is first asked -/
def performs (before : List Action) : Action → Option Setup
  | .setup u => some u
  | .ask i => if i ∈ asked before then none else (made before)[i]?
  | _ => none

/-- the set-ups that were performed, in order -/
def performed (done : List Action) : List Setup := along performs [] done

theorem made_snoc (done : List Action) (a : Action) : made (done ++ [a]) = made done ++ (makes a).toList := by
  rw [made, List.filterMap_append]
  cases h : makes a <;> simp [made, h]

theorem asked_snoc (done : List Action) (a : Action) : asked (done ++ [a]) = asked done ++ (asks done a).toList := by
  rw [asked, along_append]
  simp [asked, along]

theorem performed_snoc (done : List Action) (a : Action) :
    performed (done ++ [a]) = performed done ++ (performs done a).toList := by
  rw [performed, along_append]
  simp [performed, along]

/-- only factories that were made were asked -/
theorem lt_of_mem_asked {done : List Action} {i : Nat} (h : i ∈ asked done) : i < (made done).length := by
  induction done using List.reverseRecOn with
  | nil => cases h
  | append_singleton done a ih =>
    rw [asked_snoc] at h
    rw [made_snoc, List.length_append]
    rcases List.mem_append.1 h with h | h
    · exact Nat.lt_add_right _ (ih h)
    · cases a with
      | ask j =>
        rw [Option.mem_toList, asks] at h
        split at h
        · cases h
          exact Nat.lt_add_right _ ‹_›
        · cases h
      | _ => cases h

/-- a factory performs its set-up once -/
theorem performs_once {done : List Action} {i : Nat} {u : Setup} (h : performs done (.ask i) = some u)
    (more : List Action) : performs (done ++ .ask i :: more) (.ask i) = none := by
  have hmade : i < (made done).length := by
    rw [performs] at h
    split at h
    · cases h
    · exact (List.getElem?_eq_some_iff.1 h).1
  have hasked : i ∈ asked (done ++ .ask i :: more) := by
    rw [asked, along_append, List.nil_append, along, asks, if_pos hmade]
    simp
  rw [performs, if_pos hasked]

/-! ## The invariant -/

/-- a factory as the actions leave it -/
def factoryAfter (done : List Action) (i : Nat) : Option Factory :=
  (made done)[i]?.map fun u => ⟨u, decide (i ∈ asked done)⟩

/-- the logger and the factories after some actions, as the set-ups that were performed tell them -/
structure Configured (start : Logger) (done : List Action) (s : State) : Prop where
  factories : ∀ i, s.factories[i]? = factoryAfter done i
  level : s.logger.level = ((performed done).getLast?.map Setup.level).getD start.level
  own : s.logger.own = [] ∨ ∃ u, (performed done).getLast? = some u ∧ s.logger.own = [u.handler]
  propagate : s.logger.own ≠ [] → s.logger.propagate = false

variable {start : Logger} {done : List Action} {s s' : State}

/-- a set-up that is performed becomes the last one, whatever was before -/
theorem configured_of_performs {a : Action} {u : Setup} (ha : performs done a = some u)
    (hfactories : ∀ i, s'.factories[i]? = factoryAfter (done ++ [a]) i) (hlogger : s'.logger = s.logger.setup u) :
    Configured start (done ++ [a]) s' := by
  have hlast : (performed (done ++ [a])).getLast? = some u := by simp [performed_snoc, ha]
  have hset := Logger.setup_setsUp u s.logger
  refine ⟨hfactories, ?_, ?_, ?_⟩
  · rw [hlast, hlogger]
    exact hset.level
  · rw [hlogger]
    rcases Logger.own_setup u s.logger with hnone | hown
    · exact Or.inl hnone
    · exact Or.inr ⟨u, hlast, hown⟩
  · rw [hlogger]
    intro hown
    by_cases hheld : s.logger.HeldByOthers
    · rw [hset.held hheld] at hown
      exact absurd hheld.2 hown
    · exact (hset.taken hheld).2

/-- an action that performs no set-up leaves own handlers, level and propagation alone -/
theorem Configured.keep (h : Configured start done s) {a : Action} (ha : performs done a = none)
    (hfactories : ∀ i, s'.factories[i]? = factoryAfter (done ++ [a]) i) (hown : s'.logger.own = s.logger.own)
    (hlevel : s'.logger.level = s.logger.level) (hpropagate : s'.logger.propagate = s.logger.propagate) :
    Configured start (done ++ [a]) s' := by
  have hsame : performed (done ++ [a]) = performed done := by simp [performed_snoc, ha]
  refine ⟨hfactories, ?_, ?_, ?_⟩
  · rw [hsame, hlevel]
    exact h.level
  · rw [hsame, hown]
    exact h.own
  · rw [hown, hpropagate]
    exact h.propagate

theorem factoryAfter_idle {a : Action} (hmakes : makes a = none) (hasks : asks done a = none) (i : Nat) :
    factoryAfter (done ++ [a]) i = factoryAfter done i := by
  simp [factoryAfter, made_snoc, asked_snoc, hmakes, hasks]

theorem factoryAfter_make (u : Setup) (i : Nat) :
    factoryAfter (done ++ [.makeFactory u]) i =
      if i = (made done).length then some ⟨u, false⟩ else factoryAfter done i := by
  have hmade : made (done ++ [.makeFactory u]) = made done ++ [u] := made_snoc done _
  have hasked : asked (done ++ [.makeFactory u]) = asked done := by simp [asked_snoc, asks]
  unfold factoryAfter
  rw [hmade, hasked]
  split
  · rename_i hi
    subst hi
    have hnot : (made done).length ∉ asked done := fun hmem => Nat.lt_irrefl _ (lt_of_mem_asked hmem)
    simp [hnot]
  · rename_i hi
    rw [List.getElem?_append]
    split
    · rfl
    · have hlate : (made done).length < i := by omega
      rw [List.getElem?_eq_none (by simp; omega), List.getElem?_eq_none (by omega)]

theorem factoryAfter_ask {i : Nat} {u : Setup} (hi : (made done)[i]? = some u) (j : Nat) :
    factoryAfter (done ++ [.ask i]) j = if j = i then some ⟨u, true⟩ else factoryAfter done j := by
  have hlt := (List.getElem?_eq_some_iff.1 hi).1
  have hmade : made (done ++ [.ask i]) = made done := by simp [made_snoc, makes]
  have hasked : asked (done ++ [.ask i]) = asked done ++ [i] := by simp [asked_snoc, asks, hlt]
  unfold factoryAfter
  rw [hmade, hasked]
  split
  · rename_i hj
    subst hj
    simp [hi]
  · rename_i hj
    simp [hj]

/-- the factories of a state are as many as were made -/
theorem Configured.length (h : Configured start done s) : s.factories.length = (made done).length := by
  apply Nat.le_antisymm
  · have hend := h.factories (made done).length
    rw [factoryAfter, List.getElem?_eq_none (Nat.le_refl _), Option.map_none] at hend
    exact List.getElem?_eq_none_iff.1 hend
  · have hend := h.factories s.factories.length
    rw [factoryAfter, List.getElem?_eq_none (Nat.le_refl _), eq_comm, Option.map_eq_none_iff] at hend
    exact List.getElem?_eq_none_iff.1 hend

/-- asking a factory that was made, and was not asked before, performs its set-up -/
theorem Configured.ask (h : Configured start done s) {i : Nat} {u : Setup} (ha : performs done (.ask i) = some u) :
    s.step (.ask i) = ⟨s.logger.setup u, s.factories.set i ⟨u, true⟩⟩ := by
  rw [performs] at ha
  split at ha
  · cases ha
  · rename_i hnew
    have hfactory : s.factories[i]? = some ⟨u, false⟩ := by
      rw [h.factories, factoryAfter, ha]
      simp [hnew]
    simp [State.step, hfactory]

/-- asking any other factory does nothing -/
theorem Configured.ask_again (h : Configured start done s) {i : Nat} (ha : performs done (.ask i) = none) :
    s.step (.ask i) = s := by
  have hfactory := h.factories i
  rw [factoryAfter] at hfactory
  rw [performs] at ha
  split at ha
  · rename_i hasked
    cases hmade : (made done)[i]? with
    | none => simp [State.step, hfactory, hmade]
    | some u => simp [State.step, hfactory, hmade, hasked]
  · simp [State.step, hfactory, ha]

/-- an action that makes no factory and asks none that was made leaves the factories alone -/
theorem Configured.idle (h : Configured start done s) {a : Action} (hmakes : makes a = none) (hasks : asks done a = none)
    (i : Nat) : s.factories[i]? = factoryAfter (done ++ [a]) i := by
  rw [factoryAfter_idle hmakes hasks]
  exact h.factories i

theorem Configured.step_makeFactory (h : Configured start done s) (u : Setup) :
    Configured start (done ++ [.makeFactory u]) (s.step (.makeFactory u)) := by
  refine h.keep rfl ?_ rfl rfl rfl
  intro i
  rw [factoryAfter_make, ← h.length, State.step]
  split
  · rename_i hi
    simp [hi]
  · rename_i hi
    rw [← h.factories, List.getElem?_append]
    split
    · rfl
    · rw [List.getElem?_eq_none (by simp; omega), List.getElem?_eq_none (by omega)]

/-- a factory that is asked for the first time -/
theorem Configured.step_ask (h : Configured start done s) {i : Nat} {u : Setup} (ha : performs done (.ask i) = some u) :
    Configured start (done ++ [.ask i]) (s.step (.ask i)) := by
  have hmade : (made done)[i]? = some u := by
    rw [performs] at ha
    split at ha
    · cases ha
    · exact ha
  have hlt : i < s.factories.length := by
    rw [h.length]
    exact (List.getElem?_eq_some_iff.1 hmade).1
  refine configured_of_performs ha ?_ (by rw [h.ask ha])
  intro j
  rw [h.ask ha, factoryAfter_ask hmade, List.getElem?_set]
  by_cases hj : i = j
  · rw [if_pos hj, if_pos hj.symm, if_pos hlt]
  · rw [if_neg hj, if_neg (Ne.symm hj), h.factories]

/-- a factory that was asked before, or was not made -/
theorem Configured.step_ask_again (h : Configured start done s) {i : Nat} (ha : performs done (.ask i) = none) :
    Configured start (done ++ [.ask i]) (s.step (.ask i)) := by
  rw [h.ask_again ha]
  refine h.keep ha ?_ rfl rfl rfl
  intro j
  cases hmade : (made done)[i]? with
  | none =>
    have hasks : asks done (.ask i) = none := by
      rw [asks, if_neg]
      exact Nat.not_lt.2 (List.getElem?_eq_none_iff.1 hmade)
    exact h.idle rfl hasks j
  | some u =>
    have hasked : i ∈ asked done := by
      by_contra hnew
      simp [performs, hnew, hmade] at ha
    rw [factoryAfter_ask hmade]
    split
    · rename_i hj
      rw [hj, h.factories, factoryAfter, hmade]
      simp [hasked]
    · exact h.factories j

/-- **One action.** Every action keeps the logger and the factories as the set-ups performed tell them. -/
theorem step_configured (h : Configured start done s) (a : Action) : Configured start (done ++ [a]) (s.step a) := by
  cases a with
  | setup u => exact configured_of_performs rfl (h.idle rfl rfl) rfl
  | makeFactory u => exact h.step_makeFactory u
  | ask i =>
    cases ha : performs done (.ask i) with
    | some u => exact h.step_ask ha
    | none => exact h.step_ask_again ha
  | addForeign n =>
    exact h.keep rfl (h.idle rfl rfl) (Logger.own_addForeign n _) (Logger.level_addForeign n _)
      (Logger.propagate_addForeign n _)
  | removeForeign n => exact h.keep rfl (h.idle rfl rfl) (Logger.own_removeForeign n _) rfl rfl

/-- a logger without handlers, and no factories -/
def State.bare (level : Int) (propagate : Bool) : State := ⟨⟨[], level, propagate⟩, []⟩

/-- **All runs.** From a logger without handlers every sequence of actions leads to what the set-ups performed tell. -/
theorem run_configured (level : Int) (propagate : Bool) (done : List Action) :
    Configured (State.bare level propagate).logger done ((State.bare level propagate).run done) := by
  induction done using List.reverseRecOn with
  | nil => exact ⟨fun i => rfl, rfl, Or.inl rfl, fun hown => absurd rfl hown⟩
  | append_singleton done a ih =>
    rw [State.run, List.foldl_append]
    exact step_configured ih a

/-- **The logger after every run.** Start from a logger without handlers, and do anything: there is at most one handler
of set-ups. A set-up from there keeps the handlers of others, in order; if they hold the logger it changes the level
alone, and otherwise there is exactly one handler besides them, with the format and the stream asked for, and records are
not passed on. A factory performs its set-up when it is first asked, and never again. The level, and the handler of
set-ups if there is one, are those of the set-up performed last. -/
theorem configuration_of_run (level : Int) (propagate : Bool) (done : List Action) :
    let s := (State.bare level propagate).run done
    s.logger.own.length ≤ 1 ∧
      (∀ u, SetsUp u s.logger (s.step (.setup u)).logger) ∧
      (∀ i u, performs done (.ask i) = some u → SetsUp u s.logger (s.step (.ask i)).logger ∧
        ∀ more, performs (done ++ .ask i :: more) (.ask i) = none) ∧
      (∀ i, performs done (.ask i) = none → s.step (.ask i) = s) ∧
      (∀ u, (performed done).getLast? = some u → s.logger.level = u.level ∧ ∀ h ∈ s.logger.own, h = u.handler) ∧
      (performed done = [] → s.logger.level = level ∧ s.logger.own = []) := by
  intro s
  have hs : Configured (State.bare level propagate).logger done s := run_configured level propagate done
  refine ⟨?_, ?_, ?_, ?_, ?_, ?_⟩
  · rcases hs.own with hnone | ⟨u, _, hown⟩
    · simp [hnone]
    · simp [hown]
  · intro u
    exact Logger.setup_setsUp u s.logger
  · intro i u ha
    rw [hs.ask ha]
    exact ⟨Logger.setup_setsUp u s.logger, performs_once ha⟩
  · intro i ha
    exact hs.ask_again ha
  · intro u hlast
    constructor
    · rw [hs.level, hlast]
      rfl
    · rcases hs.own with hnone | ⟨v, hv, hown⟩
      · simp [hnone]
      · obtain rfl : u = v := Option.some.inj (hlast.symm.trans hv)
        simp [hown]
  · intro hnothing
    constructor
    · rw [hs.level, hnothing]
      rfl
    · rcases hs.own with hnone | ⟨v, hv, _⟩
      · exact hnone
      · simp [hnothing] at hv

/-- a factory that is asked twice, with another set-up and somebody else's handler in between -/
example :
    (State.bare 0 true).run [.makeFactory { format := .json }, .ask 0, .addForeign 7, .setup { level := debug }, .ask 0] =
      ⟨⟨[.foreign 7, .own .plain .standardError], debug, false⟩, [⟨{ format := .json }, true⟩]⟩ := by
  decide

end PercentLiteral.Log

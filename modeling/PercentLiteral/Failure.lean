/-
Failures: what an evaluator, a file or the process can raise.

A failure has a kind and arguments. `Failure.message` is what is printed of it: nothing without arguments, a single
argument as it is displayed, several as a tuple. A failed look-up shows its key written out, and a failure of the
system shows its number in brackets and the files it is about. `Failure.os` chooses the kind that belongs to a system
error number.
-/
import PercentLiteral.Value.Literal

namespace PercentLiteral

/-- something raised, with the name of its kind -/
structure Failure where
  kind : Text
  args : List Value

namespace Failure

/-- a failure that says one thing -/
def saying (kind : String) (message : Text) : Failure := ⟨text kind, [.str message]⟩

/-- a name that has no value -/
def missingKey (name : Text) : Failure := ⟨text "KeyError", [.str name]⟩

/-- the kinds of system failure that have a name of their own, by error number -/
def systemKinds : List (Int × String) := [
  (1, "PermissionError"), (2, "FileNotFoundError"), (3, "ProcessLookupError"), (4, "InterruptedError"),
  (10, "ChildProcessError"), (11, "BlockingIOError"), (13, "PermissionError"), (17, "FileExistsError"),
  (20, "NotADirectoryError"), (21, "IsADirectoryError"), (32, "BrokenPipeError"), (103, "ConnectionAbortedError"),
  (104, "ConnectionResetError"), (108, "BrokenPipeError"), (110, "TimeoutError"), (111, "ConnectionRefusedError"),
  (114, "BlockingIOError"), (115, "BlockingIOError")]

/-- the kind of a system failure with this number -/
def systemKind (number : Int) : Text := text (((systemKinds.find? (·.1 = number)).map (·.2)).getD "OSError")

/-- a system failure: its number, what it means, and the file it is about -/
def os (number : Int) (what : String) (file : Text) : Failure :=
  ⟨systemKind number, [.int number, .str (text what), .str file]⟩

/-- the names of the general kind of system failure -/
def isGeneralSystem (kind : Text) : Bool :=
  kind == text "OSError" || kind == text "IOError" || kind == text "EnvironmentError"

/-- the names of all kinds of system failure -/
def isSystem (kind : Text) : Bool := isGeneralSystem kind || systemKinds.any fun e => text e.2 == kind

/-- a failure of the given kind; a general system failure with a number and a meaning takes the kind of that number -/
def ofKind (kind : Text) (args : List Value) : Failure :=
  if isGeneralSystem kind then
    match args with
    | n :: _ :: rest => ⟨((if rest.length ≤ 3 then n.asInt? else none).map systemKind).getD (text "OSError"), args⟩
    | _ => ⟨text "OSError", args⟩
  else ⟨kind, args⟩

/-- the kinds that stop the program and are no failure of an evaluation -/
def stopsProgram (f : Failure) : Bool :=
  f.kind == text "KeyboardInterrupt" || f.kind == text "SystemExit" || f.kind == text "GeneratorExit"

/-- the files that a system failure is about, from what follows its number and meaning -/
def aboutFiles (kind : Text) : List Value → Text
  | [] => []
  | .none :: _ => []
  | file :: more =>
    if kind = text "BlockingIOError" ∧ file.asInt?.isSome then []
    else text ": " ++ file.literal ++ match more with
      | [_, .none] => []
      | [_, other] => text " -> " ++ other.literal
      | _ => []

/-- what is printed of a failure -/
def message (f : Failure) : Text :=
  match f.args with
  | [] => []
  | [v] => if f.kind = text "KeyError" then v.literal else v.display
  | n :: what :: rest =>
    if isSystem f.kind ∧ rest.length ≤ 3 then
      text "[Errno " ++ n.display ++ text "] " ++ what.display ++ aboutFiles f.kind rest
    else (Value.tuple f.args).literal

end Failure

end PercentLiteral

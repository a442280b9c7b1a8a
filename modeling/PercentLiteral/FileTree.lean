/-
Files and directories, by the names that lead to them.

A place is a list of names from the working directory down, or from the root. `FileTree.walk` follows a path name by
name: each name but the last must be that of a directory, and two dots lead back. Above the working directory, and at the
root, there are directories whose content is only what was written there.

`FileTree.content?` reads a regular file and `FileTree.write` makes or replaces one; both refuse a path for a cause.
-/
import PercentLiteral.Failure
import PercentLiteral.Location
import PercentLiteral.Text.Utf8

namespace PercentLiteral

/-- what stands at a place -/
inductive FileTree.Node where
  | directory
  | file (content : List UInt8)
  deriving DecidableEq

/-- the places where something stands, each once -/
abbrev FileTree := List (List Text × FileTree.Node)

namespace FileTree

/-- why a path cannot be used -/
inductive Fault where
  | missing
  | notDirectory
  | isDirectory
  | nameTooLong
  | zeroByte
  deriving DecidableEq, Repr

/-- the failure of using a path -/
def Fault.toFailure (path : Text) : Fault → Failure
  | missing => .os 2 "No such file or directory" (normalizePath path)
  | notDirectory => .os 20 "Not a directory" (normalizePath path)
  | isDirectory => .os 21 "Is a directory" (normalizePath path)
  | nameTooLong => .os 36 "File name too long" (normalizePath path)
  | zeroByte => .saying "ValueError" (text "embedded null byte")

/-- the name that leads back -/
def back : Text := [.dot, .dot]

/-- the mark of a place that is counted from the root -/
def root : Text := [.slash]

/-- the names of a path -/
def names (path : Text) : List Text :=
  let parts := (Text.fields .slash path).filter fun p => p ≠ [] ∧ p ≠ [.dot]
  if path.head? = some .slash then root :: parts else parts

/-- whether a place is the working directory, above it, or the root -/
def isTop (place : List Text) : Bool := place = [root] || place.all (· = back)

/-- the place that two dots lead to -/
def above (place : List Text) : List Text :=
  if place = [root] then place else if isTop place then place ++ [back] else place.dropLast

/-- what stands at a place -/
def node? (t : FileTree) (place : List Text) : Option Node :=
  if isTop place then some .directory else (t.find? fun e => e.1 = place).map (·.2)

/-- the number of bytes of a name -/
def nameSize (name : Text) : Nat := (name.flatMap Text.utf8Bytes).length

/-- the place that names lead to from a place; nothing need stand there -/
def walk (t : FileTree) (here : List Text) : List Text → Except Fault (List Text)
  | [] => .ok here
  | n :: ns => match t.node? here with
    | none => .error .missing
    | some (.file _) => .error .notDirectory
    | some .directory =>
      if n = back then walk t (above here) ns
      else if 255 < nameSize n then .error .nameTooLong
      else walk t (here ++ [n]) ns

/-- the place of a path -/
def place (t : FileTree) (path : Text) : Except Fault (List Text) :=
  if path.any (· = .null) then .error .zeroByte
  else if 4095 < nameSize (normalizePath path) then .error .nameTooLong
  else match names path with
    | [] => .ok []
    | n :: ns => if n = root then walk t [root] ns else walk t [] (n :: ns)

/-- the content of a regular file; a path that leads to none is a fault only if it is too long -/
def content? (t : FileTree) (path : Text) : Except Fault (Option (List UInt8)) :=
  match t.place path with
  | .error .nameTooLong => .error .nameTooLong
  | .error _ => .ok none
  | .ok p => match t.node? p with
    | some (.file content) => .ok (some content)
    | _ => .ok none

/-- the tree with something at a place -/
def put (p : List Text) (n : Node) : FileTree → FileTree
  | [] => [(p, n)]
  | e :: es => if e.1 = p then (p, n) :: es else e :: put p n es

/-- makes a regular file with a content, or gives it that content -/
def write (t : FileTree) (path : Text) (content : List UInt8) : Except Fault FileTree :=
  match t.place path with
  | .error e => .error e
  | .ok p => match t.node? p with
    | some .directory => .error .isDirectory
    | _ => .ok (t.put p (.file content))

/-- the tree with a directory and all directories on the way to it -/
def makeDirectory (t : FileTree) (p : List Text) : FileTree :=
  (List.range p.length).foldl (fun t i => t.put (p.take (i + 1)) .directory) t

end FileTree

end PercentLiteral

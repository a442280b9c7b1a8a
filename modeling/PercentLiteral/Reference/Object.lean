/-
References to objects: a module, a colon, and a path of names below it.

A registry is a list of modules. An object has a nature and members, and a path is followed member by member. Loading
fails with a cause: the reference is malformed, its module does not exist, a name on the path does not exist, or the
module's name is relative, which is a failure of another kind.

What can be called is a parameter: objects and registries are over any type of code.
-/
import PercentLiteral.Failure
import PercentLiteral.Mode

namespace PercentLiteral.Reference

/-- what an object is -/
inductive Nature (κ : Type) where
  | module (name : Text) (isPackage : Bool)
  | function (name : Text) (callee : κ)
  /-- a class: what its instances are called with, or why there are none -/
  | class (name typeName : Text) (make : Except Failure (Option κ))
  /-- a class of named constants -/
  | enumeration (name : Text)
  | instance (className : Text) (callee : Option κ)
  | mode (m : Mode)
  | constant (v : Value)
  /-- a combination of types, which cannot be called with success -/
  | typeForm (typeName name : Text) (callee : κ)

/-- an object and its members -/
inductive Object (κ : Type) where
  | mk (nature : Nature κ) (members : List (Text × Object κ))

variable {κ : Type}

namespace Object

/-- what an object is -/
def nature : Object κ → Nature κ
  | mk s _ => s

/-- the members of an object -/
def members : Object κ → List (Text × Object κ)
  | mk _ ms => ms

/-- a member by its name -/
def member? (o : Object κ) (name : Text) : Option (Object κ) := (o.members.find? fun m => m.1 = name).map (·.2)

/-- the name of an object's type -/
def typeName (o : Object κ) : Text :=
  match o.nature with
  | .module .. => text "module"
  | .function .. => text "function"
  | .class _ t _ => t
  | .enumeration _ => text "EnumType"
  | .instance c _ => c
  | .mode _ => text "RenderMode"
  | .constant v => v.typeName
  | .typeForm t _ _ => t

/-- the name that an object has of its own -/
def ownName? (o : Object κ) : Option Text :=
  match o.nature with
  | .module n _ => some n
  | .function n _ => some n
  | .class n _ _ => some n
  | .enumeration n => some n
  | .typeForm _ n _ => some n
  | _ => none

/-- the sentence about a member that an object does not have -/
def noMember (o : Object κ) (name : Text) : Text :=
  let lacks (who : Text) := who ++ text " has no attribute '" ++ name ++ text "'"
  match o.nature with
  | .module n _ => lacks (text "module '" ++ n ++ text "'")
  | .class n _ _ => lacks (text "type object '" ++ n ++ text "'")
  | .enumeration _ => name
  | .typeForm .. => name
  | _ => lacks ([.quote] ++ o.typeName ++ text "' object")

/-- the object at the end of a path, or the sentence about the first name that does not exist -/
def follow : List Text → Object κ → Except Text (Object κ)
  | [], o => .ok o
  | n :: ns, o => match o.member? n with
    | some m => follow ns m
    | none => .error (o.noMember n)

end Object

/-- why a reference leads to no object -/
inductive LoadError where
  | malformed (ref : Text)
  /-- the first module that is missing, and the module before it if it cannot hold one -/
  | noModule (home missing : Text) (noPackage : Option Text)
  | noMember (home path sentence : Text)
  | relativeModule (home : Text)
  deriving DecidableEq, Repr

/-- modules by name -/
abbrev Registry (κ : Type) := List (Text × Object κ)

namespace Registry

/-- a module by its full name -/
def module? (reg : Registry κ) (name : Text) : Option (Object κ) := (reg.find? fun m => m.1 = name).map (·.2)

/-- whether an object is a module that holds modules -/
def isPackage (o : Object κ) : Bool :=
  match o.nature with
  | .module _ p => p
  | _ => false

/-- goes from a module down to the one that the rest of a dotted name leads to -/
def descend (reg : Registry κ) (home above : Text) (here : Object κ) : List Text → Except LoadError (Object κ)
  | [] => .ok here
  | p :: ps =>
    let name := above ++ .dot :: p
    if isPackage here then
      match reg.module? name with
      | some o => descend reg home name o ps
      | none => .error (.noModule home name none)
    else .error (.noModule home name (some above))

/-- the module of a dotted name; each part must exist below the one before -/
def importModule (reg : Registry κ) (home : Text) : Except LoadError (Object κ) :=
  match Text.fields .dot home with
  | [] => .error (.noModule home home none)
  | [] :: _ => .error (.relativeModule home)
  | p :: ps => match reg.module? p with
    | some o => descend reg home p o ps
    | none => .error (.noModule home p none)

/-- the object of a reference; blanks around it mean nothing -/
def load (reg : Registry κ) (ref : Text) : Except LoadError (Object κ) :=
  match Text.cut .colon (Text.strip ref) with
  | none => .error (.malformed ref)
  | some (home, path) =>
    if home = [] ∨ path = [] then .error (.malformed ref)
    else match reg.importModule home with
      | .error e => .error e
      | .ok m => (m.follow (Text.fields .dot path)).mapError (.noMember home path)

end Registry

namespace LoadError

/-- the sentence about a reference that leads nowhere -/
def message : LoadError → Text
  | malformed ref => text "Invalid reference '" ++ ref ++ text "'. Expected 'module.path:AttrName'."
  | noModule home missing noPackage =>
    text "Failed to import module '" ++ home ++ text "': No module named " ++ Text.quoted missing ++
      match noPackage with
      | none => []
      | some p => text "; " ++ Text.quoted p ++ text " is not a package"
  | noMember home path sentence =>
    text "Module '" ++ home ++ text "' has no attribute '" ++ path ++ text "': " ++ sentence
  | relativeModule home =>
    text "the 'package' argument is required to perform a relative import for " ++ Text.quoted home

/-- whether the reference is at fault, so that a user is told how it should be -/
def isImport : LoadError → Bool
  | relativeModule _ => false
  | _ => true

/-- the failure of a reference that leads nowhere -/
def toFailure (e : LoadError) : Failure := .saying (if e.isImport then "ImportError" else "TypeError") e.message

end LoadError

end PercentLiteral.Reference

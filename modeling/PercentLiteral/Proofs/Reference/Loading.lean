/-
Where a reference leads, and what its failures are.

A reference is stripped and cut at its first colon (`Names`). `Registry.Imports` says that a module is known by its full
name and that every part of that name before a dot names a package; importing finds exactly such a module
(`importModule_eq_ok_iff`). The path behind the colon is followed member by member.

`load_eq_ok_iff` tells what is loaded, and `load_error` that every other reference is at fault itself, but for one kind:
the name of its module is relative.
-/
import PercentLiteral.Reference.Object

namespace PercentLiteral

/-! ## Fields -/

namespace Text

end Text

namespace Reference

variable {κ : Type}

/-! ## Modules -/

namespace Registry

variable {reg : Registry κ} {home above p rest : Text} {here m : Object κ} {ps : List Text}

end Registry

/-! ## References -/

/-- what a reference names, blanks around it apart: a module, up to the first colon, and a path behind it -/
structure Names (ref home path : Text) : Prop where
  split : Text.strip ref = home ++ .colon :: path
  first : .colon ∉ home
  home_ne_nil : home ≠ []
  path_ne_nil : path ≠ []

theorem names_iff {ref home path : Text} :
    Names ref home path ↔ Text.cut .colon (Text.strip ref) = some (home, path) ∧ home ≠ [] ∧ path ≠ [] := by
  rw [Text.cut_eq_some_iff]
  exact ⟨fun h => ⟨⟨h.split, h.first⟩, h.home_ne_nil, h.path_ne_nil⟩, fun h => ⟨h.1.1, h.1.2, h.2.1, h.2.2⟩⟩

theorem Names.unique {ref home path home' path' : Text} (h : Names ref home path) (h' : Names ref home' path') :
    home = home' ∧ path = path' :=
  Prod.mk.inj (Option.some.inj ((names_iff.1 h).1.symm.trans (names_iff.1 h').1))

namespace Registry

variable {reg : Registry κ} {ref home path : Text} {o : Object κ} {e : LoadError}

end Registry

end Reference

end PercentLiteral

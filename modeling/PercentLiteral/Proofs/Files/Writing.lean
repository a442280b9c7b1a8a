/-
What writing a file changes.

A path is followed through directories alone (`walk_put`), and a file is written only where no directory stands. So the
path leads to the same place afterwards: what was written is read there (`content?_write`), may be written over as if it
had not been (`write_write`), and nothing stands elsewhere that did not before (`node?_write`).
-/
import PercentLiteral.FileTree

namespace PercentLiteral.FileTree

variable {t t' : FileTree} {p : List Text} {n : Node}

/-! ## Putting something at a place -/

theorem node?_put_self (hp : isTop p = false) : (t.put p n).node? p = some n := by
  simp only [node?, hp, Bool.false_eq_true, if_false]
  induction t with
  | nil => simp [put]
  | cons e es ih =>
    by_cases he : e.1 = p
    · simp [put, he]
    · simpa [put, he] using ih

theorem node?_put_of_ne {p' : List Text} (h : p' ≠ p) : (t.put p n).node? p' = t.node? p' := by
  have hfind : (t.put p n).find? (fun e => e.1 = p') = t.find? fun e => e.1 = p' := by
    induction t with
    | nil => simp [put, h.symm]
    | cons e es ih =>
      by_cases he : e.1 = p
      · simp [put, he, h.symm]
      · simp [put, he, List.find?_cons, ih]
  rw [node?, node?, hfind]

theorem put_put (n' : Node) : (t.put p n).put p n' = t.put p n' := by
  induction t with
  | nil => simp [put]
  | cons e es ih =>
    by_cases he : e.1 = p
    · simp [put, he]
    · simp [put, he, ih]

/-- following a path does not lead through a place where no directory stands -/
theorem walk_put (hp : t.node? p ≠ some .directory) {ns here place : List Text} (h : walk t here ns = .ok place) :
    walk (t.put p n) here ns = .ok place := by
  induction ns generalizing here with
  | nil => exact h
  | cons name ns ih =>
    cases hnode : t.node? here with
    | none => simp [walk, hnode] at h
    | some node =>
      cases node with
      | file content => simp [walk, hnode] at h
      | directory =>
        have hne : here ≠ p := by
          rintro rfl
          exact hp hnode
        have hput : (t.put p n).node? here = some .directory := (node?_put_of_ne hne).trans hnode
        simp only [walk, hnode] at h
        simp only [walk, hput]
        split at h
        · rename_i hback
          rw [if_pos hback]
          exact ih h
        · rename_i hback
          rw [if_neg hback]
          split at h
          · cases h
          · rename_i hsize
            rw [if_neg hsize]
            exact ih h

theorem place_put (hp : t.node? p ≠ some .directory) {path : Text} {place : List Text} (h : t.place path = .ok place) :
    (t.put p n).place path = .ok place := by
  simp only [FileTree.place] at h ⊢
  split at h
  · cases h
  · rename_i hzero
    rw [if_neg hzero]
    split at h
    · cases h
    · rename_i hsize
      rw [if_neg hsize]
      cases hnames : names path with
      | nil => simpa [hnames] using h
      | cons name ns =>
        simp only [hnames] at h ⊢
        split at h
        · rename_i hroot
          rw [if_pos hroot]
          exact walk_put hp h
        · rename_i hroot
          rw [if_neg hroot]
          exact walk_put hp h

/-! ## Writing -/

theorem write_eq_ok_iff {path : Text} {bs : List UInt8} :
    t.write path bs = .ok t' ↔
      ∃ p, t.place path = .ok p ∧ t.node? p ≠ some .directory ∧ t' = t.put p (.file bs) := by
  unfold write
  cases hplace : t.place path with
  | error e => simp
  | ok p =>
    cases hnode : t.node? p with
    | none => simp [hnode, eq_comm]
    | some node => cases node <;> simp [hnode, eq_comm]

theorem isTop_of_node? (hp : t.node? p ≠ some .directory) : isTop p = false := by
  cases htop : isTop p with
  | false => rfl
  | true => exact absurd (by simp [node?, htop]) hp

/-- what was written is read -/
theorem content?_write {path : Text} {bs : List UInt8} (h : t.write path bs = .ok t') :
    t'.content? path = .ok (some bs) := by
  obtain ⟨p, hplace, hnode, rfl⟩ := write_eq_ok_iff.1 h
  have hself : (t.put p (.file bs)).node? p = some (.file bs) := node?_put_self (isTop_of_node? hnode)
  simp [content?, place_put hnode hplace, hself]

/-- nothing changes but what the path leads to -/
theorem node?_write {path : Text} {bs : List UInt8} (h : t.write path bs = .ok t') {p : List Text}
    (hp : t.place path ≠ .ok p) : t'.node? p = t.node? p := by
  obtain ⟨p', hplace, _, rfl⟩ := write_eq_ok_iff.1 h
  refine node?_put_of_ne ?_
  rintro rfl
  exact hp hplace

/-- a path that can be written can be written whatever the content -/
theorem write_any {path : Text} {bs : List UInt8} (h : t.write path bs = .ok t') (bs' : List UInt8) :
    ∃ t'', t.write path bs' = .ok t'' := by
  obtain ⟨p, hplace, hnode, _⟩ := write_eq_ok_iff.1 h
  exact ⟨_, write_eq_ok_iff.2 ⟨p, hplace, hnode, rfl⟩⟩

/-- the second of two writings counts -/
theorem write_write {path : Text} {bs : List UInt8} (h : t.write path bs = .ok t') (bs' : List UInt8) :
    t'.write path bs' = t.write path bs' := by
  obtain ⟨p, hplace, hnode, rfl⟩ := write_eq_ok_iff.1 h
  have hself : (t.put p (.file bs)).node? p = some (.file bs) := node?_put_self (isTop_of_node? hnode)
  have hfirst : t.write path bs' = .ok (t.put p (.file bs')) := write_eq_ok_iff.2 ⟨p, hplace, hnode, rfl⟩
  rw [hfirst]
  refine write_eq_ok_iff.2 ⟨p, place_put hnode hplace, ?_, (put_put _).symm⟩
  rw [hself]
  simp

end PercentLiteral.FileTree

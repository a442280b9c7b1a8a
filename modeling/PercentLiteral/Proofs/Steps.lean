/-
Programs that keep their state when they fail.

`exec` does such a program from a state. What stands behind a failed step is left undone (`exec_bind`), but what was done
before it stays. `Moves` says by a relation how a program may change the state, whether it fails or not; that it leaves a
part of the state alone (`Keeps`) is one such relation. `Fails` says how a program can fail. Each holds of a program if it
holds of its steps. Of a row of results the first failure is that of the row (`mapM_error`).
-/
import Mathlib.Data.List.Forall2
import Mathlib.Order.Defs.Unbundled

namespace PercentLiteral.Steps

variable {ε σ α β γ : Type}

/-- does a program from a state -/
def exec (r : ExceptT ε (StateM σ) α) (s : σ) : Except ε α × σ := Id.run ((ExceptT.run r).run s)

@[simp] theorem exec_pure (a : α) (s : σ) : exec (pure a : ExceptT ε (StateM σ) α) s = (.ok a, s) := rfl

@[simp] theorem exec_throw (e : ε) (s : σ) : exec (throw e : ExceptT ε (StateM σ) α) s = (.error e, s) := rfl

@[simp] theorem exec_get (s : σ) : exec (get : ExceptT ε (StateM σ) σ) s = (.ok s, s) := rfl

@[simp] theorem exec_set (s s' : σ) : exec (set s' : ExceptT ε (StateM σ) PUnit) s = (.ok (), s') := rfl

@[simp] theorem exec_modify (f : σ → σ) (s : σ) :
    exec (modify f : ExceptT ε (StateM σ) PUnit) s = (.ok (), f s) := rfl

theorem exec_bind (r : ExceptT ε (StateM σ) α) (f : α → ExceptT ε (StateM σ) β) (s : σ) :
    exec (r >>= f) s = match exec r s with
      | (.ok a, s') => exec (f a) s'
      | (.error e, s') => (.error e, s') := by
  unfold exec ExceptT.run StateT.run Id.run
  simp only [bind, ExceptT.bind, ExceptT.mk, StateT.bind, ExceptT.bindCont]
  cases r s with
  | mk result s' => cases result <;> rfl

theorem exec_bind_ok {r : ExceptT ε (StateM σ) α} {f : α → ExceptT ε (StateM σ) β} {s s' : σ} {a : α}
    (h : exec r s = (.ok a, s')) : exec (r >>= f) s = exec (f a) s' := by
  rw [exec_bind, h]

theorem exec_bind_error {r : ExceptT ε (StateM σ) α} {f : α → ExceptT ε (StateM σ) β} {s s' : σ} {e : ε}
    (h : exec r s = (.error e, s')) : exec (r >>= f) s = (.error e, s') := by
  rw [exec_bind, h]

theorem exec_tryCatch (r : ExceptT ε (StateM σ) α) (f : ε → ExceptT ε (StateM σ) α) (s : σ) :
    exec (tryCatch r f) s = match exec r s with
      | (.ok a, s') => (.ok a, s')
      | (.error e, s') => exec (f e) s' := by
  unfold exec ExceptT.run StateT.run Id.run
  simp only [tryCatch, tryCatchThe, MonadExceptOf.tryCatch, ExceptT.tryCatch, ExceptT.mk, bind, StateT.bind]
  cases r s with
  | mk result s' => cases result <;> rfl

/-- the result of a step is all that counts if what is done with it only gives another result -/
theorem exec_bind_pure (r : ExceptT ε (StateM σ) α) (f : α → β) (s : σ) :
    exec (do return f (← r)) s = ((exec r s).1.map f, (exec r s).2) := by
  rw [exec_bind]
  cases exec r s with
  | mk result s' => cases result <;> rfl

/-! ## How a program fails -/

/-- a program all of whose failures are of a kind -/
def Fails (P : ε → Prop) (r : ExceptT ε (StateM σ) α) : Prop := ∀ s e, (exec r s).1 = .error e → P e

section

variable {P : ε → Prop}

theorem fails_pure (a : α) : Fails P (pure a : ExceptT ε (StateM σ) α) := fun _ _ h => nomatch h

theorem fails_throw {e : ε} (h : P e) : Fails P (throw e : ExceptT ε (StateM σ) α) := by
  intro s e' he
  cases he
  exact h

theorem fails_get : Fails P (get : ExceptT ε (StateM σ) σ) := fun _ _ h => nomatch h

theorem fails_modify (f : σ → σ) : Fails P (modify f : ExceptT ε (StateM σ) PUnit) := fun _ _ h => nomatch h

theorem Fails.bind {r : ExceptT ε (StateM σ) α} {f : α → ExceptT ε (StateM σ) β} (hr : Fails P r)
    (hf : ∀ a, Fails P (f a)) : Fails P (r >>= f) := by
  intro s e h
  have hfirst := hr s
  cases hexec : exec r s with
  | mk result s' =>
    rw [hexec] at hfirst
    cases result with
    | error e' =>
      rw [exec_bind_error hexec] at h
      cases h
      exact hfirst _ rfl
    | ok a =>
      rw [exec_bind_ok hexec] at h
      exact hf a s' e h

end

/-! ## How a program changes the state -/

/-- a program that changes the state as a relation says, however it ends -/
def Moves (R : σ → σ → Prop) (r : ExceptT ε (StateM σ) α) : Prop := ∀ s, R s (exec r s).2

theorem moves_modify {R : σ → σ → Prop} {f : σ → σ} (h : ∀ s, R s (f s)) :
    Moves R (modify f : ExceptT ε (StateM σ) PUnit) := h

section

variable {R : σ → σ → Prop} [IsPreorder σ R]

theorem moves_pure (a : α) : Moves R (pure a : ExceptT ε (StateM σ) α) := fun s => refl_of R s

theorem moves_throw (e : ε) : Moves R (throw e : ExceptT ε (StateM σ) α) := fun s => refl_of R s

theorem moves_get : Moves R (get : ExceptT ε (StateM σ) σ) := fun s => refl_of R s

/-- what a step gives may be used to show how the next one changes the state -/
theorem Moves.bind_of {r : ExceptT ε (StateM σ) α} {f : α → ExceptT ε (StateM σ) β} (hr : Moves R r)
    (hf : ∀ s a s', exec r s = (.ok a, s') → R s' (exec (f a) s').2) : Moves R (r >>= f) := by
  intro s
  have hfirst : R s (exec r s).2 := hr s
  cases hexec : exec r s with
  | mk result s' =>
    rw [hexec] at hfirst
    cases result with
    | error e =>
      rw [exec_bind_error hexec]
      exact hfirst
    | ok a =>
      rw [exec_bind_ok hexec]
      exact trans_of R hfirst (hf s a s' hexec)

theorem Moves.bind {r : ExceptT ε (StateM σ) α} {f : α → ExceptT ε (StateM σ) β} (hr : Moves R r)
    (hf : ∀ a, Moves R (f a)) : Moves R (r >>= f) := hr.bind_of fun _ a s' _ => hf a s'

theorem moves_mapM {f : α → ExceptT ε (StateM σ) β} (hf : ∀ a, Moves R (f a)) (as : List α) :
    Moves R (as.mapM f) := by
  induction as with
  | nil => exact moves_pure []
  | cons a as ih =>
    rw [List.mapM_cons]
    exact (hf a).bind fun b => ih.bind fun bs => moves_pure (b :: bs)

end

/-! ## What a program leaves alone -/

/-- states with the same part -/
def Same (part : σ → γ) (s s' : σ) : Prop := part s' = part s

instance (part : σ → γ) : IsPreorder σ (Same part) where
  refl _ := rfl
  trans _ _ _ h h' := h'.trans h

/-- a program that leaves a part of the state as it is, however it ends -/
abbrev Keeps (part : σ → γ) (r : ExceptT ε (StateM σ) α) : Prop := Moves (Same part) r

variable {part : σ → γ}

/-- a part after two steps of which the second leaves it alone -/
theorem part_bind {r : ExceptT ε (StateM σ) α} {f : α → ExceptT ε (StateM σ) β} (hf : ∀ a, Keeps part (f a)) (s : σ) :
    part (exec (r >>= f) s).2 = part (exec r s).2 := by
  rw [exec_bind]
  cases exec r s with
  | mk result s' =>
    cases result with
    | error e => rfl
    | ok a => exact hf a s'

/-- what is done about a failure may leave a part alone even if what failed does not -/
theorem part_tryCatch (r : ExceptT ε (StateM σ) α) {f : ε → ExceptT ε (StateM σ) α} (hf : ∀ e, Keeps part (f e))
    (s : σ) : part (exec (tryCatch r f) s).2 = part (exec r s).2 := by
  rw [exec_tryCatch]
  cases exec r s with
  | mk result s' =>
    cases result with
    | ok a => rfl
    | error e => exact hf e s'

/-! ## Rows of results -/

theorem exists_forall₂ {R : α → β → Prop} {as : List α} (h : ∀ a ∈ as, ∃ b, R a b) : ∃ bs, List.Forall₂ R as bs := by
  induction as with
  | nil => exact ⟨[], .nil⟩
  | cons a as ih =>
    obtain ⟨⟨b, hb⟩, has⟩ := List.forall_mem_cons.1 h
    obtain ⟨bs, hbs⟩ := ih has
    exact ⟨b :: bs, .cons hb hbs⟩

variable {f : α → Except ε β}

theorem mapM_ok {as : List α} {bs : List β} (h : List.Forall₂ (fun a b => f a = .ok b) as bs) :
    as.mapM f = .ok bs := by
  induction h with
  | nil => rfl
  | cons hb _ ih =>
    rw [List.mapM_cons, hb, ih]
    rfl

/-- the first failure of a row is that of the row -/
theorem mapM_error {before : List α} {a : α} {e : ε} (hbefore : ∀ b ∈ before, ∃ r, f b = .ok r) (h : f a = .error e)
    (behind : List α) : (before ++ a :: behind).mapM f = .error e := by
  induction before with
  | nil =>
    rw [List.nil_append, List.mapM_cons, h]
    rfl
  | cons b before ih =>
    obtain ⟨⟨r, hr⟩, hrest⟩ := List.forall_mem_cons.1 hbefore
    rw [List.cons_append, List.mapM_cons, hr, ih hrest]
    rfl

/-- a row with a failure in it fails as one of its members does -/
theorem mapM_failing {as : List α} (h : ∃ a ∈ as, ∃ e, f a = .error e) :
    ∃ a ∈ as, ∃ e, f a = .error e ∧ as.mapM f = .error e := by
  induction as with
  | nil =>
    obtain ⟨a, ha, _⟩ := h
    cases ha
  | cons a as ih =>
    cases hfirst : f a with
    | error e =>
      have hrow : ([] ++ a :: as).mapM f = .error e := mapM_error (by simp) hfirst as
      exact ⟨a, List.mem_cons_self, e, hfirst, hrow⟩
    | ok r =>
      have hlater : ∃ b ∈ as, ∃ e, f b = .error e := by simpa [hfirst] using h
      obtain ⟨b, hb, e, he, hrest⟩ := ih hlater
      refine ⟨b, List.mem_cons_of_mem a hb, e, he, ?_⟩
      rw [List.mapM_cons, hfirst, hrest]
      rfl

end PercentLiteral.Steps

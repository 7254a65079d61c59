import Mathlib

/-!
# Programs over a state that can raise

`ExceptT ε (StateM σ)`: a program that raises leaves the state as it was at that point.
A program that returns has returned from each of its parts (`exec_bind_eq_ok`), and what
all parts keep of the state the program keeps, whether it returns or raises
(`Keeps.bind`).
-/

namespace StatefulProgram

variable {ε σ α β : Type}

/-- The result of the program on the state, and the state that it leaves. -/
def exec (m : ExceptT ε (StateM σ) α) (s : σ) : Except ε α × σ := StateT.run (ExceptT.run m) s

@[simp] theorem exec_pure (a : α) (s : σ) :
    exec (pure a : ExceptT ε (StateM σ) α) s = (.ok a, s) := rfl

@[simp] theorem exec_throw (e : ε) (s : σ) :
    exec (throw e : ExceptT ε (StateM σ) α) s = (.error e, s) := rfl

@[simp] theorem exec_get (s : σ) : exec (get : ExceptT ε (StateM σ) σ) s = (.ok s, s) := rfl

@[simp] theorem exec_modify (f : σ → σ) (s : σ) :
    exec (modify f : ExceptT ε (StateM σ) PUnit) s = (.ok ⟨⟩, f s) := rfl

/-- The second program runs if the first returns. -/
theorem exec_bind (m : ExceptT ε (StateM σ) α) (f : α → ExceptT ε (StateM σ) β) (s : σ) :
    exec (m >>= f) s = match exec m s with
      | (.ok a, t) => exec (f a) t
      | (.error e, t) => (.error e, t) := by
  have hbind : exec (m >>= f) s = ExceptT.bindCont f (exec m s).1 (exec m s).2 := rfl
  rw [hbind]
  obtain ⟨result, t⟩ := exec m s
  cases result with
  | ok a => rfl
  | error e => rfl

theorem exec_bind_of_ok {m : ExceptT ε (StateM σ) α} {f : α → ExceptT ε (StateM σ) β}
    {s t : σ} {a : α} (h : exec m s = (.ok a, t)) : exec (m >>= f) s = exec (f a) t := by
  rw [exec_bind, h]

theorem exec_bind_of_error {m : ExceptT ε (StateM σ) α} {f : α → ExceptT ε (StateM σ) β}
    {s t : σ} {e : ε} (h : exec m s = (.error e, t)) : exec (m >>= f) s = (.error e, t) := by
  rw [exec_bind, h]

theorem exec_map (f : α → β) (m : ExceptT ε (StateM σ) α) (s : σ) :
    exec (f <$> m) s = match exec m s with
      | (.ok a, t) => (.ok (f a), t)
      | (.error e, t) => (.error e, t) := by
  rw [map_eq_pure_bind, exec_bind]
  rfl

@[simp] theorem exec_set (t s : σ) : exec (set t : ExceptT ε (StateM σ) PUnit) s = (.ok ⟨⟩, t) :=
  rfl

/-- The handler runs from where the program has raised. -/
theorem exec_tryCatch (m : ExceptT ε (StateM σ) α) (handler : ε → ExceptT ε (StateM σ) α)
    (s : σ) : exec (tryCatch m handler) s = match exec m s with
      | (.ok a, t) => (.ok a, t)
      | (.error e, t) => exec (handler e) t := by
  have htry : exec (tryCatch m handler) s = (match (exec m s).1 with
      | .ok a => (pure (.ok a) : StateM σ (Except ε α))
      | .error e => ExceptT.run (handler e)).run (exec m s).2 := rfl
  rw [htry]
  obtain ⟨result, t⟩ := exec m s
  cases result <;> rfl

/-- A sequence returns when both parts do. -/
theorem exec_bind_eq_ok {m : ExceptT ε (StateM σ) α} {f : α → ExceptT ε (StateM σ) β}
    {s u : σ} {b : β} :
    exec (m >>= f) s = (.ok b, u) ↔
      ∃ a t, exec m s = (.ok a, t) ∧ exec (f a) t = (.ok b, u) := by
  cases h : exec m s with
  | mk result t =>
    cases result with
    | ok a =>
      rw [exec_bind_of_ok h]
      constructor
      · exact fun hf => ⟨a, t, rfl, hf⟩
      · rintro ⟨a', t', hm, hf⟩
        cases hm
        exact hf
    | error e =>
      rw [exec_bind_of_error h]
      constructor
      · intro hf
        cases hf
      · rintro ⟨a', t', hm, -⟩
        cases hm

/-- The program does not raise. -/
def Returns (m : ExceptT ε (StateM σ) α) (s : σ) : Prop := ∃ a t, exec m s = (.ok a, t)

/-- However the program ends, the states before and after it are related by `R`. -/
def Keeps (R : σ → σ → Prop) (m : ExceptT ε (StateM σ) α) : Prop := ∀ s, R s (exec m s).2

/-- What both parts keep a sequence keeps. -/
theorem Keeps.bind {R : σ → σ → Prop} {m : ExceptT ε (StateM σ) α}
    {f : α → ExceptT ε (StateM σ) β} (htrans : ∀ s t u, R s t → R t u → R s u)
    (hm : Keeps R m) (hf : ∀ a, Keeps R (f a)) : Keeps R (m >>= f) := by
  intro s
  have hs := hm s
  cases h : exec m s with
  | mk result t =>
    rw [h] at hs
    cases result with
    | ok a =>
      rw [exec_bind_of_ok h]
      exact htrans s t _ hs (hf a t)
    | error e =>
      rw [exec_bind_of_error h]
      exact hs

theorem Keeps.modify {R : σ → σ → Prop} {f : σ → σ} (h : ∀ s, R s (f s)) :
    Keeps R (modify f : ExceptT ε (StateM σ) PUnit) := h

theorem Keeps.pure {R : σ → σ → Prop} (h : ∀ s, R s s) (a : α) :
    Keeps R (pure a : ExceptT ε (StateM σ) α) := h

theorem Keeps.throw {R : σ → σ → Prop} (h : ∀ s, R s s) (e : ε) :
    Keeps R (throw e : ExceptT ε (StateM σ) α) := h

end StatefulProgram

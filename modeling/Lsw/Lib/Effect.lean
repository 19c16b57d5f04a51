import Lsw.Lib.Exec

/-!
# Calls on a Shared State

`Effect σ ε α` is a call that reads and changes a state `σ` and returns an `α` or an error.
A call that fails leaves the state it had reached, so that "a failed call changes nothing"
is a statement that can be false.
-/

namespace Lsw.Lib

/-- A call on a state: its result and the state it leaves. -/
def Effect (σ ε α : Type) := σ → Except ε α × σ

namespace Effect

variable {σ ε α β : Type}

instance : Monad (Effect σ ε) where
  pure a := fun s => (.ok a, s)
  bind x f := fun s =>
    match x s with
    | (.ok a, s') => f a s'
    | (.error e, s') => (.error e, s')

/-- A check: it looks at the state and changes nothing. -/
def check (f : σ → Except ε α) : Effect σ ε α := fun s => (f s, s)

/-- A change of the state that does not fail. -/
def change (f : σ → σ) : Effect σ ε Unit := fun s => (.ok (), f s)

@[simp] theorem pure_run (a : α) (s : σ) : (pure a : Effect σ ε α) s = (.ok a, s) := rfl

@[simp] theorem change_bind (f : σ → σ) (g : Unit → Effect σ ε β) (s : σ) :
    (change f >>= g) s = g () (f s) := rfl

theorem bind_of_ok {x : Effect σ ε α} {f : α → Effect σ ε β} {s s' : σ} {a : α}
    (h : x s = (.ok a, s')) : (x >>= f) s = f a s' := by
  change (match x s with
    | (.ok a, s') => f a s'
    | (.error e, s') => (.error e, s')) = f a s'
  rw [h]

theorem bind_of_error {x : Effect σ ε α} {f : α → Effect σ ε β} {s s' : σ} {e : ε}
    (h : x s = (.error e, s')) : (x >>= f) s = (.error e, s') := by
  change (match x s with
    | (.ok a, s') => f a s'
    | (.error e, s') => (.error e, s')) = (.error e, s')
  rw [h]

theorem check_bind_ok {f : σ → Except ε α} {g : α → Effect σ ε β} {s : σ} {a : α}
    (h : f s = .ok a) : (check f >>= g) s = g a s :=
  bind_of_ok (by rw [check, h])

theorem check_bind_error {f : σ → Except ε α} {g : α → Effect σ ε β} {s : σ} {e : ε}
    (h : f s = .error e) : (check f >>= g) s = (.error e, s) :=
  bind_of_error (by rw [check, h])

/-- The result of a call that starts with a check. -/
theorem check_bind_fst (f : σ → Except ε α) (g : α → Effect σ ε β) (s : σ) :
    ((check f >>= g) s).1 = f s >>= fun a => (g a s).1 := by
  cases h : f s with
  | ok a => rw [check_bind_ok h, ok_bind]
  | error e => rw [check_bind_error h, error_bind]

@[simp] theorem change_run (f : σ → σ) (s : σ) :
    (change f : Effect σ ε Unit) s = (.ok (), f s) := rfl

/-- A call that starts with a check succeeds when the check passes and the rest succeeds. -/
theorem check_bind_eq_ok {f : σ → Except ε α} {g : α → Effect σ ε β} {s s' : σ} {b : β} :
    (check f >>= g) s = (.ok b, s') ↔ ∃ a, f s = .ok a ∧ g a s = (.ok b, s') := by
  cases h : f s with
  | ok a => simp [check_bind_ok h]
  | error e => simp [check_bind_error h]

/-- A failing call leaves the state it found. -/
def FailsClean (x : Effect σ ε α) : Prop :=
  ∀ ⦃s e s'⦄, x s = (.error e, s') → s' = s

/-- A call fails cleanly when it makes its checks first. -/
theorem FailsClean.check_bind {f : σ → Except ε α} {g : α → Effect σ ε β}
    (h : ∀ a, FailsClean (g a)) : FailsClean (check f >>= g) := by
  intro s e s' hrun
  cases hf : f s with
  | ok a =>
    rw [check_bind_ok hf] at hrun
    exact h a hrun
  | error e' =>
    rw [check_bind_error hf, Prod.mk.injEq] at hrun
    exact hrun.2.symm

/-- A call that cannot fail fails cleanly. -/
theorem FailsClean.of_ok {x : Effect σ ε α} (h : ∀ s, ∃ a, (x s).1 = .ok a) : FailsClean x := by
  intro s e s' hrun
  obtain ⟨a, ha⟩ := h s
  rw [hrun] at ha
  cases ha

/-- `if let Err(error) = x { cleanup; return Err(error) }`. -/
def onError (x : Effect σ ε α) (cleanup : σ → σ) : Effect σ ε α := fun s =>
  match x s with
  | (.ok a, s') => (.ok a, s')
  | (.error e, s') => (.error e, cleanup s')

/-- A call whose value is not used. -/
def void (x : Effect σ ε α) : Effect σ ε Unit := fun s => ((x s).1.map fun _ => (), (x s).2)

theorem void_eq_ok {x : Effect σ ε α} {s s' : σ} {u : Unit} :
    x.void s = (.ok u, s') ↔ ∃ a, x s = (.ok a, s') := by
  rw [void]
  rcases x s with ⟨a | a, next⟩ <;> simp [Except.map]

theorem FailsClean.void {x : Effect σ ε α} (h : FailsClean x) : FailsClean x.void := by
  intro s e s' hrun
  rw [Effect.void] at hrun
  rcases hx : x s with ⟨e' | a, next⟩ <;> rw [hx] at hrun
  · exact (Prod.mk.injEq _ _ _ _ ▸ hrun).2 ▸ h hx
  · cases hrun

/-! ## Stopping at the first step that fails

A call is a sequence of steps, each of which the environment may fail.  `Staged` says how it ends:
with `good` when none of them fails, and otherwise with `bad` for the first one that does. -/

section Staged

variable {κ : Type} {fails : κ → Bool} {first rest : List κ} {s : σ}

/-- How a call ends whose steps are `steps`. -/
def Staged (fails : κ → Bool) (steps : List κ) (x : Effect σ ε α) (s : σ) (good : α → σ → Prop)
    (bad : κ → σ → Prop) : Prop :=
  match steps.find? fails with
  | none => ∃ a s', x s = (.ok a, s') ∧ good a s'
  | some step => ∃ e s', x s = (.error e, s') ∧ bad step s'

theorem Staged.single {step : κ} {x : Effect σ ε α} {good : α → σ → Prop} {bad : κ → σ → Prop}
    (hgood : fails step = false → ∃ a s', x s = (.ok a, s') ∧ good a s')
    (hbad : fails step = true → ∃ e s', x s = (.error e, s') ∧ bad step s') :
    Staged fails [step] x s good bad := by
  cases hstep : fails step with
  | false => simpa [Staged, hstep] using hgood hstep
  | true => simpa [Staged, hstep] using hbad hstep

/-- A check that makes several steps. -/
theorem Staged.check {steps : List κ} {f : σ → Except ε α} {good : α → σ → Prop}
    {bad : κ → σ → Prop}
    (hgood : (∀ step ∈ steps, fails step = false) → ∃ a, f s = .ok a ∧ good a s)
    (hbad : ∀ step ∈ steps, fails step = true → (∃ e, f s = .error e) ∧ bad step s) :
    Staged fails steps (Effect.check f) s good bad := by
  unfold Staged
  cases hfirst : steps.find? fails with
  | none =>
    obtain ⟨a, hf, ha⟩ := hgood fun step hstep => by
      simpa using List.find?_eq_none.mp hfirst step hstep
    exact ⟨a, s, by rw [Effect.check, hf], ha⟩
  | some step =>
    obtain ⟨⟨e, hf⟩, hs⟩ := hbad step (List.mem_of_find?_eq_some hfirst) (List.find?_some hfirst)
    exact ⟨e, s, by rw [Effect.check, hf], hs⟩

/-- The steps of a call are steps of another kind. -/
theorem Staged.map {κ' : Type} {fails' : κ' → Bool} {f : κ → κ'} {x : Effect σ ε α}
    {good : α → σ → Prop} {bad : κ' → σ → Prop}
    (h : Staged (fails' ∘ f) first x s good (bad ∘ f)) :
    Staged fails' (first.map f) x s good bad := by
  unfold Staged at h ⊢
  rw [List.find?_map]
  cases hfirst : first.find? (fails' ∘ f) with
  | none =>
    rw [hfirst] at h
    exact h
  | some step =>
    rw [hfirst] at h
    exact h

theorem Staged.pure {a : α} {good : α → σ → Prop} {bad : κ → σ → Prop} (h : good a s) :
    Staged fails [] (Pure.pure a : Effect σ ε α) s good bad :=
  ⟨a, s, rfl, h⟩

theorem Staged.imp {x : Effect σ ε α} {good good' : α → σ → Prop} {bad bad' : κ → σ → Prop}
    (h : Staged fails first x s good bad) (hgood : ∀ a s', good a s' → good' a s')
    (hbad : ∀ step s', bad step s' → bad' step s') : Staged fails first x s good' bad' := by
  unfold Staged at h ⊢
  cases hfirst : first.find? fails with
  | none =>
    rw [hfirst] at h
    obtain ⟨a, s', hrun, hs'⟩ := h
    exact ⟨a, s', hrun, hgood a s' hs'⟩
  | some step =>
    rw [hfirst] at h
    obtain ⟨e, s', hrun, hs'⟩ := h
    exact ⟨e, s', hrun, hbad step s' hs'⟩

theorem Staged.mono {x : Effect σ ε α} {good good' : α → σ → Prop} {bad : κ → σ → Prop}
    (h : Staged fails first x s good bad) (hgood : ∀ a s', good a s' → good' a s') :
    Staged fails first x s good' bad :=
  h.imp hgood fun _ _ => id

/-- The steps of a call in two parts are those of the first part and then those of the second. -/
theorem Staged.bind {x : Effect σ ε α} {f : α → Effect σ ε β} {good : α → σ → Prop}
    {good' : β → σ → Prop} {bad : κ → σ → Prop} (hx : Staged fails first x s good bad)
    (hf : ∀ a s', good a s' → Staged fails rest (f a) s' good' bad) :
    Staged fails (first ++ rest) (x >>= f) s good' bad := by
  unfold Staged at hx ⊢
  rw [List.find?_append]
  cases hfirst : first.find? fails with
  | none =>
    rw [hfirst] at hx
    obtain ⟨a, s', hrun, hgood⟩ := hx
    rw [Option.none_or, bind_of_ok hrun]
    exact hf a s' hgood
  | some step =>
    rw [hfirst] at hx
    obtain ⟨e, s', hrun, hbad⟩ := hx
    exact ⟨e, s', bind_of_error hrun, hbad⟩

/-- A failure is followed by a clean-up. -/
theorem Staged.onError {x : Effect σ ε α} {cleanup : σ → σ} {good : α → σ → Prop}
    {bad bad' : κ → σ → Prop} (hx : Staged fails first x s good bad)
    (hbad : ∀ step s', bad step s' → bad' step (cleanup s')) :
    Staged fails first (x.onError cleanup) s good bad' := by
  unfold Staged at hx ⊢
  cases hfirst : first.find? fails with
  | none =>
    rw [hfirst] at hx
    obtain ⟨a, s', hrun, hgood⟩ := hx
    exact ⟨a, s', by rw [Effect.onError, hrun], hgood⟩
  | some step =>
    rw [hfirst] at hx
    obtain ⟨e, s', hrun, h⟩ := hx
    exact ⟨e, cleanup s', by rw [Effect.onError, hrun], hbad step s' h⟩

end Staged

end Effect

end Lsw.Lib

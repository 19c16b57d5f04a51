/-!
# Runs

A run is a list of steps taken one after another from a first state.  `Along` says that every
step of it is taken where a condition on the state and the step allows it; what such steps
keep, the run keeps.
-/

namespace Lsw.Lib

variable {σ α : Type}

/-- The state after a list of steps. -/
def run (step : σ → α → σ) (s : σ) (as : List α) : σ := as.foldl step s

/-- Every step of the run is taken in a state that allows it. -/
def Along (step : σ → α → σ) (Allowed : σ → α → Prop) : σ → List α → Prop
  | _, [] => True
  | s, a :: as => Allowed s a ∧ Along step Allowed (step s a) as

instance decidableAlong (step : σ → α → σ) (Allowed : σ → α → Prop)
    [∀ s a, Decidable (Allowed s a)] : ∀ s as, Decidable (Along step Allowed s as)
  | _, [] => inferInstanceAs (Decidable True)
  | s, a :: as =>
    have := decidableAlong step Allowed (step s a) as
    inferInstanceAs (Decidable (_ ∧ _))

@[simp] theorem run_nil (step : σ → α → σ) (s : σ) : run step s [] = s := rfl

@[simp] theorem run_cons (step : σ → α → σ) (s : σ) (a : α) (as : List α) :
    run step s (a :: as) = run step (step s a) as := rfl

theorem run_append (step : σ → α → σ) (s : σ) (as bs : List α) :
    run step s (as ++ bs) = run step (run step s as) bs := List.foldl_append

theorem along_of_forall_mem {step : σ → α → σ} {P : α → Prop} {s : σ} {as : List α}
    (h : ∀ a ∈ as, P a) : Along step (fun _ a => P a) s as := by
  induction as generalizing s with
  | nil => trivial
  | cons a as ih => exact ⟨h a List.mem_cons_self, ih fun b hb => h b (List.mem_cons_of_mem _ hb)⟩

theorem along_append {step : σ → α → σ} {Allowed : σ → α → Prop} {s : σ} {as bs : List α} :
    Along step Allowed s (as ++ bs) ↔
      Along step Allowed s as ∧ Along step Allowed (run step s as) bs := by
  induction as generalizing s with
  | nil => simp [Along]
  | cons a as ih => simp [Along, ih, and_assoc]

/-- What every allowed step keeps holds at the end of the run. -/
theorem run_invariant {step : σ → α → σ} {Allowed : σ → α → Prop} {I : σ → Prop}
    (hstep : ∀ s a, I s → Allowed s a → I (step s a)) {s : σ} {as : List α} (hinit : I s)
    (halong : Along step Allowed s as) : I (run step s as) := by
  induction as generalizing s with
  | nil => exact hinit
  | cons a as ih => exact ih (hstep s a hinit halong.1) halong.2

/-- What holds of every allowed step that is taken where an invariant does. -/
theorem along_of_invariant {step : σ → α → σ} {Allowed Q : σ → α → Prop} {I : σ → Prop}
    (hstep : ∀ s a, I s → Allowed s a → I (step s a)) (hQ : ∀ s a, I s → Allowed s a → Q s a)
    {s : σ} {as : List α} (hinit : I s) (halong : Along step Allowed s as) : Along step Q s as := by
  induction as generalizing s with
  | nil => trivial
  | cons a as ih => exact ⟨hQ s a hinit halong.1, ih (hstep s a hinit halong.1) halong.2⟩

end Lsw.Lib

import Mathlib.Logic.Function.Basic

/-!
Runs of a step function that may refuse a step. Each model of this development
gives its atomic steps as `step : σ → α → Option σ`, with `none` when no CPU is
at the point the step needs; a list of steps run one after the other is
`List.foldlM` in `Option`, and a property every step keeps holds after the run.
-/

namespace NosKernel.Runs

variable {σ α : Type} {step : σ → α → Option σ}

theorem foldlM_induction (R : σ → Prop) (hstep : ∀ s a s', R s → step s a = some s' → R s')
    {s s' : σ} {as : List α} (h : R s) (hrun : as.foldlM step s = some s') : R s' := by
  induction as generalizing s with
  | nil => cases hrun; exact h
  | cons a as ih =>
      cases hs : step s a with
      | none => simp [hs] at hrun
      | some s₁ =>
          simp only [List.foldlM_cons, hs, Option.bind_eq_bind, Option.some_bind] at hrun
          exact ih (hstep s a s₁ h hs) hrun

theorem foldlM_getD_induction (R : σ → Prop) (hstep : ∀ s a s', R s → step s a = some s' → R s')
    {s : σ} (as : List α) (h : R s) (hrun : (as.foldlM step s).isSome) :
    R ((as.foldlM step s).getD s) := by
  obtain ⟨s', hs'⟩ := Option.isSome_iff_exists.mp hrun
  rw [hs', Option.getD_some]
  exact foldlM_induction R hstep h hs'

end NosKernel.Runs

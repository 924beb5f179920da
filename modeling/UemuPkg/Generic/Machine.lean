/-
  UemuPkg.Generic.Machine

  Deterministic machines.  A machine is a step function; its run from `s` is the
  sequence `step^[k] s`.  A machine with inputs has a step for each of them, and answers.
-/

import Mathlib.Logic.Function.Iterate

namespace Machine

variable {σ : Type*} {step : σ → σ} {s : σ}

/-- Progress: while `done` has not been reached, the invariant is kept and the
    measure falls. -/
theorem reaches_of_measure (inv done : σ → Prop) (μ : σ → Nat)
    (hstep : ∀ s, inv s → ¬ done s → inv (step s) ∧ μ (step s) < μ s) (hs : inv s) :
    ∃ k, inv (step^[k] s) ∧ done (step^[k] s) := by
  induction hm : μ s using Nat.strongRecOn generalizing s with
  | _ m ih =>
      by_cases hdone : done s
      · exact ⟨0, hs, hdone⟩
      · obtain ⟨hinv, hlt⟩ := hstep s hs hdone
        obtain ⟨k, hk⟩ := ih (μ (step s)) (hm ▸ hlt) hinv rfl
        exact ⟨k + 1, by rwa [Function.iterate_succ_apply]⟩

/-- An invariant that is only kept while `bound` holds of the next state. -/
theorem invariant_of_bounded (inv bound : σ → Prop)
    (hstep : ∀ s, inv s → bound (step s) → inv (step s)) (hs : inv s)
    (hbound : ∀ k, bound (step^[k] s)) (k : Nat) : inv (step^[k] s) := by
  induction k with
  | zero => exact hs
  | succ k ih =>
      have hnext := hbound (k + 1)
      rw [Function.iterate_succ_apply'] at hnext ⊢
      exact hstep _ ih hnext

-- ============================================================================
-- Machines with inputs
-- ============================================================================

variable {τ ι β : Type*} {next : σ → ι → σ} {next' : τ → ι → τ} {answer : σ → ι → β}
  {answer' : τ → ι → β} {t : τ}

/-- What a machine answers to its inputs, in order. -/
def answers (next : σ → ι → σ) (answer : σ → ι → β) : σ → List ι → List β
  | _, [] => []
  | s, i :: inputs => answer s i :: answers next answer (next s i) inputs

/-- Two machines in related states answer alike and end in related states. -/
theorem answers_eq_of_simulation (R : σ → τ → Prop)
    (hnext : ∀ s t i, R s t → R (next s i) (next' t i))
    (hanswer : ∀ s t i, R s t → answer s i = answer' t i) (h : R s t) (inputs : List ι) :
    answers next answer s inputs = answers next' answer' t inputs ∧
      R (inputs.foldl next s) (inputs.foldl next' t) := by
  induction inputs generalizing s t with
  | nil => exact ⟨rfl, h⟩
  | cons i inputs ih =>
      obtain ⟨hanswers, hend⟩ := ih (hnext s t i h)
      refine ⟨?_, hend⟩
      rw [answers, answers, hanswer s t i h, hanswers]

end Machine

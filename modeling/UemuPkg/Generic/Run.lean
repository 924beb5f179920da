/-
  UemuPkg.Generic.Run

  Runs of a system under actions.  `step s a` is the state after action `a`, or
  `none` where `a` cannot happen.  Nothing is said about the order in which the
  actions come: a theorem about every list of actions is one about every
  interleaving.
-/

import Mathlib.Tactic.TypeStar

namespace Run

variable {σ α : Type*} {step : σ → α → Option σ} {s s' : σ} {actions : List α}

/-- The state after a list of actions. -/
def run (step : σ → α → Option σ) : σ → List α → Option σ
  | s, [] => some s
  | s, a :: actions => (step s a).bind fun s' => run step s' actions

/-- Every action of a run is taken in a state in which `p` allows it. -/
def AllSteps (step : σ → α → Option σ) (p : σ → α → Prop) : σ → List α → Prop
  | _, [] => True
  | s, a :: actions => p s a ∧ ∀ s', step s a = some s' → AllSteps step p s' actions

/-- Every state of a run, the first and the last included, satisfies `p`. -/
def Always (step : σ → α → Option σ) (p : σ → Prop) : σ → List α → Prop
  | s, [] => p s
  | s, a :: actions => p s ∧ ∀ s', step s a = some s' → Always step p s' actions

@[simp] theorem run_singleton (s : σ) (a : α) : run step s [a] = step s a :=
  Option.bind_fun_some _

theorem AllSteps.cons {p : σ → α → Prop} {a : α} (hstep : step s a = some s') (hp : p s a)
    (h : AllSteps step p s' actions) : AllSteps step p s (a :: actions) :=
  ⟨hp, fun _ ht => Option.some.inj (hstep.symm.trans ht) ▸ h⟩

theorem allSteps_true (s : σ) (actions : List α) : AllSteps step (fun _ _ => True) s actions := by
  induction actions generalizing s with
  | nil => trivial
  | cons a actions ih => exact ⟨trivial, fun s' _ => ih s'⟩

/-- A run after a run. -/
theorem run_append {t : σ} {rest : List α} (h : run step s actions = some t) :
    run step s (actions ++ rest) = run step t rest := by
  induction actions generalizing s with
  | nil => exact congrArg (run step · rest) (Option.some.inj h)
  | cons a actions ih =>
      obtain ⟨u, hu, hrun⟩ := Option.bind_eq_some_iff.mp h
      rw [List.cons_append, run, hu]
      exact ih hrun

/-- A run of `a :: actions` is a step and a run. -/
theorem run_cons {a : α} (h : run step s (a :: actions) = some s') :
    ∃ t, step s a = some t ∧ run step t actions = some s' :=
  Option.bind_eq_some_iff.mp h

/-- A run of two lists is a run after a run. -/
theorem run_append_some {rest : List α} (h : run step s (actions ++ rest) = some s') :
    ∃ t, run step s actions = some t ∧ run step t rest = some s' := by
  induction actions generalizing s with
  | nil => exact ⟨s, rfl, h⟩
  | cons a actions ih =>
      obtain ⟨u, hu, hrun⟩ := run_cons h
      obtain ⟨t, hactions, hrest⟩ := ih hrun
      exact ⟨t, by rw [run, hu]; exact hactions, hrest⟩

/-- What every step keeps holds at the end. -/
theorem run_invariant (inv : σ → Prop)
    (hstep : ∀ s a s', inv s → step s a = some s' → inv s')
    (hrun : run step s actions = some s') (hs : inv s) : inv s' := by
  induction actions generalizing s with
  | nil => exact Option.some.inj hrun ▸ hs
  | cons a actions ih =>
      obtain ⟨t, ht, hrest⟩ := run_cons hrun
      exact ih hrest (hstep s a t hs ht)

theorem Always.head {p : σ → Prop} (h : Always step p s actions) : p s := by
  cases actions with
  | nil => exact h
  | cons a actions => exact h.1

/-- What the steps that `q` allows keep while `p` holds is there at the end of a run of
    such steps. -/
theorem run_invariant_of {p : σ → Prop} {q : σ → α → Prop} (inv : σ → Prop)
    (hstep : ∀ s a s', inv s → q s a → p s' → step s a = some s' → inv s')
    (hrun : run step s actions = some s') (hall : AllSteps step q s actions)
    (halways : Always step p s actions) (hs : inv s) : inv s' := by
  induction actions generalizing s with
  | nil => exact Option.some.inj hrun ▸ hs
  | cons a actions ih =>
      obtain ⟨t, ht, hrest⟩ := run_cons hrun
      have hrestAlways := halways.2 t ht
      exact ih hrest (hall.2 t ht) hrestAlways (hstep s a t hs hall.1 hrestAlways.head ht)

/-- A fault that the steps outside `p`, and only these, cause, and that no step
    repairs: it is absent at the end exactly if `p` allowed every step. -/
theorem not_bad_iff_allSteps (inv bad : σ → Prop) {p : σ → α → Prop}
    (hgood : ∀ s a s', inv s → p s a → step s a = some s' → inv s')
    (hbad : ∀ s a s', inv s → ¬ p s a → step s a = some s' → bad s')
    (hstays : ∀ s a s', bad s → step s a = some s' → bad s')
    (hdisjoint : ∀ s, inv s → ¬ bad s)
    (hrun : run step s actions = some s') (hs : inv s) :
    ¬ bad s' ↔ AllSteps step p s actions := by
  induction actions generalizing s with
  | nil =>
      obtain rfl := Option.some.inj hrun
      exact iff_of_true (hdisjoint s hs) trivial
  | cons a actions ih =>
      obtain ⟨t, ht, hrest⟩ := run_cons hrun
      have htail : ∀ t', step s a = some t' → t' = t :=
        fun t' ht' => Option.some.inj (ht'.symm.trans ht)
      by_cases hp : p s a
      · rw [ih hrest (hgood s a t hs hp ht)]
        refine ⟨?_, ?_⟩
        · intro hall
          exact ⟨hp, fun t' ht' => htail t' ht' ▸ hall⟩
        · intro hall
          exact hall.2 t ht
      · have hend := run_invariant bad hstays hrest (hbad s a t hs hp ht)
        exact iff_of_false (not_not_intro hend) fun hall => hp hall.1

/-- A property that the steps outside `q`, and only these, break holds of every state
    of a run exactly if `q` allowed every step. -/
theorem always_iff_allSteps (p : σ → Prop) {q : σ → α → Prop}
    (hkeep : ∀ s a s', p s → q s a → step s a = some s' → p s')
    (hbreak : ∀ s a s', p s → ¬ q s a → step s a = some s' → ¬ p s')
    (hrun : run step s actions = some s') (hs : p s) :
    Always step p s actions ↔ AllSteps step q s actions := by
  induction actions generalizing s with
  | nil => exact iff_of_true hs trivial
  | cons a actions ih =>
      obtain ⟨t, ht, hrest⟩ := run_cons hrun
      have htail : ∀ t', step s a = some t' → t' = t :=
        fun t' ht' => Option.some.inj (ht'.symm.trans ht)
      by_cases hq : q s a
      · have hiff := ih hrest (hkeep s a t hs hq ht)
        refine ⟨?_, ?_⟩
        · rintro ⟨-, hall⟩
          exact ⟨hq, fun t' ht' => htail t' ht' ▸ hiff.mp (hall t ht)⟩
        · rintro ⟨-, hall⟩
          exact ⟨hs, fun t' ht' => htail t' ht' ▸ hiff.mpr (hall t ht)⟩
      · refine iff_of_false ?_ fun hall => hq hall.1
        rintro ⟨-, hall⟩
        exact hbreak s a t hs hq ht (hall t ht).head

/-- Where the steps of a run keep an invariant, two conditions on a step may stand for
    each other if the invariant makes them equivalent. -/
theorem allSteps_congr {p q r : σ → α → Prop} (inv : σ → Prop)
    (hkeep : ∀ s a s', inv s → r s a → step s a = some s' → inv s')
    (hiff : ∀ s a s', inv s → r s a → step s a = some s' → (p s a ↔ q s a))
    (hrun : run step s actions = some s') (hall : AllSteps step r s actions) (hs : inv s) :
    AllSteps step p s actions ↔ AllSteps step q s actions := by
  induction actions generalizing s with
  | nil => exact Iff.rfl
  | cons a actions ih =>
      obtain ⟨t, ht, hrest⟩ := run_cons hrun
      have htail := ih hrest (hall.2 t ht) (hkeep s a t hs hall.1 ht)
      refine and_congr (hiff s a t hs hall.1 ht) ?_
      refine forall_congr' fun t' => forall_congr' fun ht' => ?_
      rw [Option.some.inj (ht'.symm.trans ht)]
      exact htail

-- ============================================================================
-- What a run emits
-- ============================================================================

/-- What the steps of a run emit, in order. -/
def emitted {E : Type*} (step : σ → α → Option σ) (emit : σ → α → List E) : σ → List α → List E
  | _, [] => []
  | s, a :: actions =>
    match step s a with
    | none => []
    | some s' => emit s a ++ emitted step emit s' actions

/-- What every step keeps of the state and all that was emitted before holds at the end. -/
theorem run_emitted {E : Type*} {emit : σ → α → List E} (inv : σ → List E → Prop)
    (hstep : ∀ s a s' events, inv s events → step s a = some s' → inv s' (events ++ emit s a))
    (hrun : run step s actions = some s') {events : List E} (hs : inv s events) :
    inv s' (events ++ emitted step emit s actions) := by
  induction actions generalizing s events with
  | nil =>
      rw [emitted, List.append_nil]
      exact Option.some.inj hrun ▸ hs
  | cons a actions ih =>
      obtain ⟨t, ht, hrest⟩ := run_cons hrun
      simp only [emitted, ht, ← List.append_assoc]
      exact ih hrest (hstep s a t events hs ht)

end Run

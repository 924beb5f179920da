/-
  UemuPkg.Generic.Loop

  Loops with no bound of their own.  A computation that may run for ever is
  indexed by fuel: `f fuel = none` says that the fuel ran out, and
  `Returns f r` says that from some fuel on the result is `r`.  A loop body
  ends its turn with `again` or `leave`, and may hold loops itself.
-/

import Mathlib.Tactic.TypeStar

namespace FuelLoop

variable {σ ρ τ : Type*}

/-- How one turn of a loop ends: with the next state, or with the loop's result. -/
inductive Turn (σ ρ : Type*) where
  | again (s : σ)
  | leave (r : ρ)
  deriving DecidableEq

/-- Repeat `body` until it leaves.  The body gets the fuel that remains, for the
    loops inside it. -/
def loop (body : Nat → σ → Option (Turn σ ρ)) : Nat → σ → Option ρ
  | 0, _ => none
  | fuel + 1, s =>
    match body fuel s with
    | none => none
    | some (.again s') => loop body fuel s'
    | some (.leave r) => some r

/-- The computation ends with `r`, however much more fuel it is given. -/
def Returns (f : Nat → Option ρ) (r : ρ) : Prop :=
  ∃ n, ∀ fuel, n ≤ fuel → f fuel = some r

-- ============================================================================
-- Computations
-- ============================================================================

theorem returns_of_eq {f : Nat → Option ρ} {r : ρ} (h : ∀ fuel, f fuel = some r) : Returns f r :=
  ⟨0, fun fuel _ => h fuel⟩

theorem returns_pure (r : ρ) : Returns (fun _ => some r) r := returns_of_eq fun _ => rfl

/-- A computation has one result. -/
theorem Returns.unique {f : Nat → Option ρ} {r r' : ρ} (h : Returns f r) (h' : Returns f r') :
    r = r' := by
  obtain ⟨n, hn⟩ := h
  obtain ⟨m, hm⟩ := h'
  have heq := (hn (max n m) (by omega)).symm.trans (hm (max n m) (by omega))
  exact Option.some.inj heq

theorem Returns.bind {f : Nat → Option ρ} {g : ρ → Nat → Option τ} {r : ρ} {t : τ}
    (hf : Returns f r) (hg : Returns (g r) t) :
    Returns (fun fuel => (f fuel).bind fun x => g x fuel) t := by
  obtain ⟨n, hn⟩ := hf
  obtain ⟨m, hm⟩ := hg
  refine ⟨max n m, fun fuel hle => ?_⟩
  simp only [hn fuel (by omega), Option.bind_some, hm fuel (by omega)]

theorem Returns.map {f : Nat → Option ρ} {r : ρ} (g : ρ → τ) (hf : Returns f r) :
    Returns (fun fuel => (f fuel).map g) (g r) := by
  obtain ⟨n, hn⟩ := hf
  exact ⟨n, fun fuel hle => by simp only [hn fuel hle, Option.map_some]⟩

/-- A recursion that spends one unit of fuel before its body. -/
theorem Returns.of_succ {f g : Nat → Option ρ} {r : ρ} (hg : ∀ fuel, g (fuel + 1) = f fuel)
    (hf : Returns f r) : Returns g r := by
  obtain ⟨n, hn⟩ := hf
  refine ⟨n + 1, fun fuel hle => ?_⟩
  obtain ⟨k, rfl⟩ : ∃ k, fuel = k + 1 := ⟨fuel - 1, by omega⟩
  rw [hg, hn k (by omega)]

-- ============================================================================
-- Loops
-- ============================================================================

variable {body : Nat → σ → Option (Turn σ ρ)} {s s' : σ} {r : ρ}

theorem Returns.loop_leave (hb : Returns (fun fuel => body fuel s) (.leave r)) :
    Returns (fun fuel => loop body fuel s) r := by
  obtain ⟨n, hn⟩ := hb
  refine ⟨n + 1, fun fuel hle => ?_⟩
  obtain ⟨k, rfl⟩ : ∃ k, fuel = k + 1 := ⟨fuel - 1, by omega⟩
  simp only [loop, hn k (by omega)]

theorem Returns.loop_again (hb : Returns (fun fuel => body fuel s) (.again s'))
    (hl : Returns (fun fuel => loop body fuel s') r) :
    Returns (fun fuel => loop body fuel s) r := by
  obtain ⟨n, hn⟩ := hb
  obtain ⟨m, hm⟩ := hl
  refine ⟨max n m + 1, fun fuel hle => ?_⟩
  obtain ⟨k, rfl⟩ : ∃ k, fuel = k + 1 := ⟨fuel - 1, by omega⟩
  simp only [loop, hn k (by omega), hm k (by omega)]

/-- Partial correctness of a loop: what each turn keeps holds of every result. -/
theorem loop_post (inv : σ → Prop) (post : ρ → Prop)
    (hagain : ∀ fuel s s', inv s → body fuel s = some (.again s') → inv s')
    (hleave : ∀ fuel s r, inv s → body fuel s = some (.leave r) → post r)
    {fuel : Nat} (hs : inv s) (hr : loop body fuel s = some r) : post r := by
  induction fuel generalizing s with
  | zero => cases hr
  | succ fuel ih =>
      rw [loop] at hr
      split at hr
      · cases hr
      · rename_i s' hturn
        exact ih (hagain _ _ _ hs hturn) hr
      · rename_i r' hturn
        obtain rfl := Option.some.inj hr
        exact hleave _ _ _ hs hturn

/-- Total correctness of a loop: an invariant that each turn keeps while a measure
    falls, until a turn leaves with a result as wanted. -/
theorem loop_returns_post (inv : σ → Prop) (post : ρ → Prop) (μ : σ → Nat)
    (hturn : ∀ s, inv s →
      (∃ r, Returns (fun fuel => body fuel s) (.leave r) ∧ post r) ∨
      ∃ s', Returns (fun fuel => body fuel s) (.again s') ∧ inv s' ∧ μ s' < μ s)
    (hs : inv s) : ∃ r, Returns (fun fuel => loop body fuel s) r ∧ post r := by
  induction hm : μ s using Nat.strongRecOn generalizing s with
  | _ m ih =>
      rcases hturn s hs with ⟨r, hleave, hpost⟩ | ⟨s', hagain, hinv, hlt⟩
      · exact ⟨r, hleave.loop_leave, hpost⟩
      · obtain ⟨r, hreturns, hpost⟩ := ih (μ s') (hm ▸ hlt) hinv rfl
        exact ⟨r, hagain.loop_again hreturns, hpost⟩

/-- The same with one result in view. -/
theorem loop_returns_of_measure (inv : σ → Prop) (μ : σ → Nat)
    (hturn : ∀ s, inv s →
      Returns (fun fuel => body fuel s) (.leave r) ∨
      ∃ s', Returns (fun fuel => body fuel s) (.again s') ∧ inv s' ∧ μ s' < μ s)
    (hs : inv s) : Returns (fun fuel => loop body fuel s) r := by
  obtain ⟨_, hreturns, rfl⟩ := loop_returns_post inv (· = r) μ
    (fun s hinv => (hturn s hinv).imp_left fun hleave => ⟨r, hleave, rfl⟩) hs
  exact hreturns

end FuelLoop

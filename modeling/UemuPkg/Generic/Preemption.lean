/-
  UemuPkg.Generic.Preemption

  Code at priority levels.  Between any two steps of a piece of code something else may
  happen that its level does not keep away; code raises its level to keep more away.  A
  section at a level whose interference its accesses do not notice is atomic: it can be
  taken to run at the moment of its first access, with all that interferes before or behind
  it.
-/

import Mathlib.Logic.Relation
import UemuPkg.Generic.Effects

namespace Preemption

open Effects (Program)
open Relation (ReflTransGen)

variable {E σ α β : Type} {R : E → Type}

/-- The accesses of a program, and changes of the level. -/
inductive LevelCall (E : Type) where
  /-- Returns the level before. -/
  | raise (level : Nat)
  | restore (level : Nat)
  | access (e : E)

def LevelCall.Result (R : E → Type) : LevelCall E → Type
  | .raise _ => Nat
  | .restore _ => Unit
  | .access e => R e

abbrev Code (E : Type) (R : E → Type) := Program (LevelCall E) (LevelCall.Result R)

def raise (level : Nat) : Code E R Nat := Program.perform (LevelCall.raise level)

def restore (level : Nat) : Code E R Unit := Program.perform (LevelCall.restore level)

def access (e : E) : Code E R (R e) := Program.perform (LevelCall.access e)

/-- A program that leaves the level alone. -/
def atPresent : Program E R α → Code E R α
  | .ret a => .ret a
  | .call e next => .call (.access e) fun r => atPresent (next r)

instance : MonadLift (Program E R) (Code E R) where
  monadLift := atPresent

/-- A section. -/
def atLevel (level : Nat) (body : Program E R α) : Code E R α := do
  let old ← raise level
  let a ← atPresent body
  restore old
  return a

theorem atPresent_bind (prog : Program E R α) (f : α → Program E R β) :
    atPresent (prog >>= f) = atPresent prog >>= fun a => atPresent (f a) := by
  induction prog with
  | ret a => rfl
  | call e next ih => exact congrArg (Program.call (LevelCall.access e)) (funext ih)

theorem atLevel_bind (level : Nat) (body : Program E R α) (f : α → Code E R β) :
    atLevel level body >>= f
      = raise level >>= fun old => atPresent body >>= fun a => restore old >>= fun _ => f a := by
  rw [atLevel, Program.bind_bind]
  congr 1
  funext old
  rw [Program.bind_bind]
  rfl

/-- Code that restores the level on each of its branches is a section. -/
theorem section_eq {level : Nat} {first : Program E R β} {body : β → Program E R α}
    {rest : Nat → β → Code E R α}
    (h : ∀ old b, rest old b = atPresent (body b) >>= fun a => restore old >>= fun _ => pure a) :
    (raise level >>= fun old => atPresent first >>= rest old) = atLevel level (first >>= body) := by
  rw [atLevel]
  congr 1
  funext old
  rw [atPresent_bind, Program.bind_bind]
  congr 1
  funext b
  exact h old b

-- ============================================================================
-- Executions
-- ============================================================================

/-- What the accesses do, and what can happen besides at a level. -/
structure World (E : Type) (R : E → Type) (σ : Type) where
  answer : σ → (e : E) → R e × σ
  interferes : Nat → σ → σ → Prop

/-- A higher level keeps away no less. -/
def World.Ranked (W : World E R σ) : Prop :=
  ∀ low high s t, low ≤ high → W.interferes high s t → W.interferes low s t

/-- The code, run at a level from a state on, returns a value at a level in a state. -/
inductive Executes (W : World E R σ) : Code E R α → Nat → σ → α → Nat → σ → Prop
  | ret (a : α) (level : Nat) (s : σ) : Executes W (.ret a) level s a level s
  | interfere {code : Code E R α} {level level' : Nat} {s t s' : σ} {a : α}
      (h : W.interferes level s t) (rest : Executes W code level t a level' s') :
      Executes W code level s a level' s'
  | raise {next : Nat → Code E R α} {level level' : Nat} {s s' : σ} {a : α} (new : Nat)
      (rest : Executes W (next level) new s a level' s') :
      Executes W (.call (.raise new) next) level s a level' s'
  | restore {next : Unit → Code E R α} {level level' : Nat} {s s' : σ} {a : α} (old : Nat)
      (rest : Executes W (next ()) old s a level' s') :
      Executes W (.call (.restore old) next) level s a level' s'
  | access {e : E} {next : R e → Code E R α} {level level' : Nat} {s s' : σ} {a : α}
      (rest : Executes W (next (W.answer s e).1) level (W.answer s e).2 a level' s') :
      Executes W (.call (.access e) next) level s a level' s'

/-- Any number of interferences. -/
def World.Interferes (W : World E R σ) (level : Nat) : σ → σ → Prop :=
  ReflTransGen (W.interferes level)

variable {W : World E R σ} {level level' level'' low : Nat} {s s' t u : σ} {a : α} {b : β}
  {code : Code E R α}

theorem Executes.after (h : W.Interferes level s t) (hexecutes : Executes W code level t a level' s') :
    Executes W code level s a level' s' := by
  induction h using ReflTransGen.head_induction_on with
  | refl => exact hexecutes
  | head hfirst _ ih => exact .interfere hfirst ih

/-- Code that is done only waits. -/
theorem executes_ret_iff {b' : β} :
    Executes W (.ret b : Code E R β) level s b' level' s' ↔
      b' = b ∧ level' = level ∧ W.Interferes level s s' := by
  constructor
  · intro h
    generalize hcode : (.ret b : Code E R β) = code at h
    induction h with
    | ret a level s =>
        cases hcode
        exact ⟨rfl, rfl, .refl⟩
    | interfere h rest ih =>
        obtain ⟨hvalue, hlevel, hrest⟩ := ih hcode
        exact ⟨hvalue, hlevel, .head h hrest⟩
    | raise new rest ih => cases hcode
    | restore old rest ih => cases hcode
    | access rest ih => cases hcode
  · rintro ⟨rfl, rfl, h⟩
    exact .after h (.ret _ _ _)

theorem executes_raise_iff {new : Nat} {next : Nat → Code E R α} :
    Executes W (.call (.raise new) next) level s a level' s' ↔
      ∃ t, W.Interferes level s t ∧ Executes W (next level) new t a level' s' := by
  constructor
  · intro h
    generalize hcode : (.call (.raise new) next : Code E R α) = code at h
    induction h with
    | ret a level s => cases hcode
    | interfere h rest ih =>
        obtain ⟨t, ht, hnext⟩ := ih hcode
        exact ⟨t, .head h ht, hnext⟩
    | raise new rest ih =>
        cases hcode
        exact ⟨_, .refl, rest⟩
    | restore old rest ih => cases hcode
    | access rest ih => cases hcode
  · rintro ⟨t, ht, hnext⟩
    exact .after ht (.raise new hnext)

theorem executes_restore_iff {old : Nat} {next : Unit → Code E R α} :
    Executes W (.call (.restore old) next) level s a level' s' ↔
      ∃ t, W.Interferes level s t ∧ Executes W (next ()) old t a level' s' := by
  constructor
  · intro h
    generalize hcode : (.call (.restore old) next : Code E R α) = code at h
    induction h with
    | ret a level s => cases hcode
    | interfere h rest ih =>
        obtain ⟨t, ht, hnext⟩ := ih hcode
        exact ⟨t, .head h ht, hnext⟩
    | raise new rest ih => cases hcode
    | restore old rest ih =>
        cases hcode
        exact ⟨_, .refl, rest⟩
    | access rest ih => cases hcode
  · rintro ⟨t, ht, hnext⟩
    exact .after ht (.restore old hnext)

theorem executes_access_iff {e : E} {next : R e → Code E R α} :
    Executes W (.call (.access e) next) level s a level' s' ↔
      ∃ t, W.Interferes level s t ∧
        Executes W (next (W.answer t e).1) level (W.answer t e).2 a level' s' := by
  constructor
  · intro h
    generalize hcode : (.call (.access e) next : Code E R α) = code at h
    induction h with
    | ret a level s => cases hcode
    | interfere h rest ih =>
        obtain ⟨t, ht, hnext⟩ := ih hcode
        exact ⟨t, .head h ht, hnext⟩
    | raise new rest ih => cases hcode
    | restore old rest ih => cases hcode
    | access rest ih =>
        cases hcode
        exact ⟨_, .refl, rest⟩
  · rintro ⟨t, ht, hnext⟩
    exact .after ht (.access hnext)

/-- A sequence is executed part by part. -/
theorem executes_bind_iff {f : α → Code E R β} :
    Executes W (code >>= f) level s b level' s' ↔
      ∃ a middle t, Executes W code level s a middle t ∧ Executes W (f a) middle t b level' s' := by
  constructor
  · intro h
    induction code generalizing level s with
    | ret a => exact ⟨a, level, s, .ret a level s, h⟩
    | call e next ih =>
        cases e with
        | raise new =>
            obtain ⟨t, ht, hnext⟩ := executes_raise_iff.mp h
            obtain ⟨a, middle, u, hfirst, hsecond⟩ := ih _ hnext
            exact ⟨a, middle, u, executes_raise_iff.mpr ⟨t, ht, hfirst⟩, hsecond⟩
        | restore old =>
            obtain ⟨t, ht, hnext⟩ := executes_restore_iff.mp h
            obtain ⟨a, middle, u, hfirst, hsecond⟩ := ih _ hnext
            exact ⟨a, middle, u, executes_restore_iff.mpr ⟨t, ht, hfirst⟩, hsecond⟩
        | access e =>
            obtain ⟨t, ht, hnext⟩ := executes_access_iff.mp h
            obtain ⟨a, middle, u, hfirst, hsecond⟩ := ih _ hnext
            exact ⟨a, middle, u, executes_access_iff.mpr ⟨t, ht, hfirst⟩, hsecond⟩
  · rintro ⟨a, middle, t, hfirst, hsecond⟩
    induction hfirst with
    | ret a level s => exact hsecond
    | interfere h rest ih => exact .interfere h (ih hsecond)
    | raise new rest ih => exact .raise new (ih hsecond)
    | restore old rest ih => exact .restore old (ih hsecond)
    | access rest ih => exact .access (ih hsecond)

-- ============================================================================
-- Sections
-- ============================================================================

/-- The accesses do not notice what interferes at the level, nor keep it from happening. -/
def World.Undisturbed (W : World E R σ) (level : Nat) (p : E → Prop) : Prop :=
  ∀ s t e, p e → W.interferes level s t →
    (W.answer t e).1 = (W.answer s e).1 ∧ W.interferes level (W.answer s e).2 (W.answer t e).2

variable {body : Program E R α} {p : E → Prop}

theorem World.Undisturbed.run (hquiet : W.Undisturbed level p) (hbody : body.Calls p)
    (h : W.interferes level s t) :
    (body.run W.answer t).1 = (body.run W.answer s).1 ∧
      W.interferes level (body.run W.answer s).2 (body.run W.answer t).2 := by
  induction body generalizing s t with
  | ret a => exact ⟨rfl, h⟩
  | call e next ih =>
      obtain ⟨hanswer, hafter⟩ := hquiet s t e hbody.1 h
      rw [Program.run, Program.run, hanswer]
      exact ih _ (hbody.2 _) hafter

theorem World.Undisturbed.run_interferes (hquiet : W.Undisturbed level p) (hbody : body.Calls p)
    (h : W.Interferes level s t) :
    (body.run W.answer t).1 = (body.run W.answer s).1 ∧
      W.Interferes level (body.run W.answer s).2 (body.run W.answer t).2 := by
  induction h with
  | refl => exact ⟨rfl, .refl⟩
  | tail _ hlast ih =>
      obtain ⟨hvalue, hafter⟩ := hquiet.run hbody hlast
      exact ⟨hvalue.trans ih.1, ih.2.tail hafter⟩

/-- What interferes with undisturbed accesses can as well come after them. -/
theorem executes_atPresent_iff (hquiet : W.Undisturbed level p) (hbody : body.Calls p) :
    Executes W (atPresent body) level s a level' s' ↔
      a = (body.run W.answer s).1 ∧ level' = level ∧
        W.Interferes level (body.run W.answer s).2 s' := by
  induction body generalizing s with
  | ret b => exact executes_ret_iff
  | call e next ih =>
      refine executes_access_iff.trans ⟨?_, ?_⟩
      · rintro ⟨t, ht, hnext⟩
        obtain ⟨hvalue, hlevel, hrest⟩ := (ih _ (hbody.2 _)).mp hnext
        obtain ⟨hsame, hafter⟩ := hquiet.run_interferes hbody ht
        exact ⟨hvalue.trans hsame, hlevel, hafter.trans hrest⟩
      · intro h
        exact ⟨s, .refl, (ih _ (hbody.2 _)).mpr h⟩

/-- The first access may be disturbed: it is the moment of them all. -/
theorem executes_atPresent_iff_later (hquiet : W.Undisturbed level p) (hbody : body.CallsLater p) :
    Executes W (atPresent body) level s a level' s' ↔
      level' = level ∧ ∃ t, W.Interferes level s t ∧ a = (body.run W.answer t).1 ∧
        W.Interferes level (body.run W.answer t).2 s' := by
  cases body with
  | ret b =>
      refine executes_ret_iff.trans ⟨?_, ?_⟩
      · rintro ⟨ha, hlevel, h⟩
        exact ⟨hlevel, s, .refl, ha, h⟩
      · rintro ⟨hlevel, t, ht, ha, h⟩
        exact ⟨ha, hlevel, ht.trans h⟩
  | call e next =>
      refine executes_access_iff.trans ⟨?_, ?_⟩
      · rintro ⟨t, ht, hnext⟩
        obtain ⟨ha, hlevel, h⟩ := (executes_atPresent_iff hquiet (hbody _)).mp hnext
        exact ⟨hlevel, t, ht, ha, h⟩
      · rintro ⟨hlevel, t, ht, ha, h⟩
        exact ⟨t, ht, (executes_atPresent_iff hquiet (hbody _)).mpr ⟨ha, hlevel, h⟩⟩

theorem World.Ranked.interferes (hranked : W.Ranked) (hlow : low ≤ level)
    (h : W.Interferes level s t) : W.Interferes low s t :=
  ReflTransGen.mono (fun s t hst => hranked low level s t hlow hst) _ _ h

/-- A section is atomic. -/
theorem executes_atLevel_iff (hranked : W.Ranked) (hquiet : W.Undisturbed level p)
    (hbody : body.CallsLater p) (hlow : low ≤ level) :
    Executes W (atLevel level body) low s a level' s' ↔
      level' = low ∧ ∃ t, W.Interferes low s t ∧ a = (body.run W.answer t).1 ∧
        W.Interferes low (body.run W.answer t).2 s' := by
  have hsection : Executes W (atLevel level body) low s a level' s' ↔
      ∃ t, W.Interferes low s t ∧ ∃ b middle u,
        Executes W (atPresent body) level t b middle u ∧
          ∃ v, W.Interferes middle u v ∧ a = b ∧ level' = low ∧ W.Interferes low v s' := by
    refine executes_raise_iff.trans (exists_congr fun t => and_congr_right fun _ => ?_)
    show Executes W (atPresent body >>= fun a => restore low >>= fun _ => pure a) level t a level'
      s' ↔ _
    refine executes_bind_iff.trans (exists₃_congr fun b middle u => and_congr_right fun _ => ?_)
    exact executes_restore_iff.trans
      (exists_congr fun v => and_congr_right fun _ => executes_ret_iff)
  rw [hsection]
  constructor
  · rintro ⟨t, ht, b, middle, u, hbodyRun, v, huv, rfl, rfl, hv⟩
    obtain ⟨rfl, x, hx, rfl, hu⟩ := (executes_atPresent_iff_later hquiet hbody).mp hbodyRun
    exact ⟨rfl, x, ht.trans (hranked.interferes hlow hx), rfl,
      (hranked.interferes hlow (hu.trans huv)).trans hv⟩
  · rintro ⟨rfl, t, ht, rfl, hv⟩
    refine ⟨t, ht, _, level, _, ?_, _, .refl, rfl, rfl, hv⟩
    exact (executes_atPresent_iff_later hquiet hbody).mpr ⟨rfl, t, .refl, rfl, .refl⟩

end Preemption

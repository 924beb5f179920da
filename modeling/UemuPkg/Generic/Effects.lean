/-
  UemuPkg.Generic.Effects

  Programs that make calls.  `E` lists the calls, `R e` is the type of what the call
  `e` returns.  A program branches on everything that a call can return, so what is
  shown of all its calls holds for every environment that answers them.
-/

import Mathlib.Tactic.TypeStar

namespace Effects

inductive Program (E : Type) (R : E → Type) (α : Type) : Type where
  | ret (a : α)
  | call (e : E) (next : R e → Program E R α)

namespace Program

variable {E σ α β : Type} {R : E → Type} {p q : E → Prop}

def bind : Program E R α → (α → Program E R β) → Program E R β
  | .ret a, f => f a
  | .call e next, f => .call e fun r => (next r).bind f

instance : Monad (Program E R) where
  pure := .ret
  bind := Program.bind

theorem bind_bind {γ : Type} (prog : Program E R α) (f : α → Program E R β)
    (g : β → Program E R γ) : prog >>= f >>= g = prog >>= fun a => f a >>= g := by
  induction prog with
  | ret a => rfl
  | call e next ih => exact congrArg (Program.call e) (funext ih)

/-- The program that makes one call and returns its result. -/
def perform (e : E) : Program E R (R e) := .call e .ret

-- ============================================================================
-- What a program calls
-- ============================================================================

/-- Every call that the program can make satisfies `p`. -/
def Calls (p : E → Prop) : Program E R α → Prop
  | .ret _ => True
  | .call e next => p e ∧ ∀ r, (next r).Calls p

theorem calls_ret (a : α) : (.ret a : Program E R α).Calls p := trivial

theorem Calls.call {e : E} {next : R e → Program E R α} (he : p e)
    (hnext : ∀ r, (next r).Calls p) : (Program.call e next).Calls p := ⟨he, hnext⟩

theorem calls_perform {e : E} (he : p e) : (perform e : Program E R (R e)).Calls p :=
  .call he fun _ => trivial

/-- `e` is among the calls that the program can make. -/
def Makes (e : E) : Program E R α → Prop
  | .ret _ => False
  | .call e' next => e = e' ∨ ∃ r, (next r).Makes e

theorem Calls.of_makes {prog : Program E R α} (h : prog.Calls p) {e : E} (he : prog.Makes e) :
    p e := by
  induction prog with
  | ret a => cases he
  | call e' next ih =>
      rcases he with rfl | ⟨r, hr⟩
      · exact h.1
      · exact ih r (h.2 r) hr

/-- Both parts of a sequence keep to what is allowed. -/
theorem Calls.bind {prog : Program E R α} {f : α → Program E R β} (h : prog.Calls p)
    (hf : ∀ a, (f a).Calls p) : (prog >>= f).Calls p := by
  induction prog with
  | ret a => exact hf a
  | call e next ih => exact .call h.1 fun r => ih r (h.2 r)

/-- Every call behind the first satisfies `p`. -/
def CallsLater (p : E → Prop) : Program E R α → Prop
  | .ret _ => True
  | .call _ next => ∀ r, (next r).Calls p

theorem Calls.later {prog : Program E R α} (h : prog.Calls p) : prog.CallsLater p := by
  cases prog with
  | ret a => trivial
  | call e next => exact h.2

-- ============================================================================
-- Running a program
-- ============================================================================

/-- The result of a program and the environment after it, in an environment that
    answers its calls. -/
def run (answer : σ → (e : E) → R e × σ) : Program E R α → σ → α × σ
  | .ret a, s => (a, s)
  | .call e next, s => (next (answer s e).1).run answer (answer s e).2

end Program

end Effects

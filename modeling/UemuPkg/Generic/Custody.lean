/-
  UemuPkg.Generic.Custody

  What a program acquires and releases.  The resources are held in a stack: only the
  last one may be released, and only one that is held may be used.  A program that
  keeps to this has, at every moment, released no resource more often than it acquired
  it, and the difference is what it holds.  No resource need be fresh: one that is
  handed out twice counts twice.
-/

import Mathlib.Data.List.Count
import UemuPkg.Generic.Protocol

namespace Effects

/-- The resource that the answer to a call hands out, the one that a call takes back and
    the one that it works on. -/
structure Custody (E : Type) (R : E → Type) (κ : Type) where
  acquires : (e : E) → R e → Option κ
  releases : E → Option κ
  uses : E → Option κ

namespace Custody

variable {E κ α : Type} {R : E → Type} (C : Custody E R κ)

/-- How often the trace acquires `k`. -/
def acquired [DecidableEq κ] (k : κ) (trace : List (Entry E R)) : Nat :=
  trace.countP fun entry => C.acquires entry.call entry.answer == some k

/-- How often the trace releases `k`. -/
def released [DecidableEq κ] (k : κ) (trace : List (Entry E R)) : Nat :=
  trace.countP fun entry => C.releases entry.call == some k

/-- What is held, the last one first, and the rule that it goes back in that order. -/
def stack : Protocol E R (List κ) where
  allows held e := (∀ k ∈ C.releases e, held.head? = some k) ∧ ∀ k ∈ C.uses e, k ∈ held
  next held e r :=
    (C.acquires e r).toList ++
      match C.releases e with
      | none => held
      | some _ => held.tail

variable {C} {k : κ} {held : List κ} {trace : List (Entry E R)}

variable {prog rest : Program E R α} {post : α → List κ → Prop} {a : α}

-- ============================================================================
-- Rules for a program that goes on after a call
-- ============================================================================

/-- A call that works on what is held and releases nothing. -/
theorem keeps_use {e : E} {f : R e → Program E R α} (hreleases : C.releases e = none)
    (huses : C.uses e = some k) (hk : k ∈ held)
    (h : ∀ r, (f r).Keeps C.stack post ((C.acquires e r).toList ++ held)) :
    (Program.perform e >>= f).Keeps C.stack post held := by
  refine (Program.keeps_perform_bind e f).mpr ⟨⟨?_, ?_⟩, fun r => ?_⟩
  · intro j hj
    rw [hreleases] at hj
    cases hj
  · intro j hj
    rw [huses] at hj
    exact Option.some.inj hj ▸ hk
  · show (f r).Keeps C.stack post ((C.acquires e r).toList ++ _)
    rw [hreleases]
    exact h r

/-- A call that neither works on anything nor releases it. -/
theorem keeps_acquire {e : E} {f : R e → Program E R α} (hreleases : C.releases e = none)
    (huses : C.uses e = none)
    (h : ∀ r, (f r).Keeps C.stack post ((C.acquires e r).toList ++ held)) :
    (Program.perform e >>= f).Keeps C.stack post held := by
  refine (Program.keeps_perform_bind e f).mpr ⟨⟨?_, ?_⟩, fun r => ?_⟩
  · intro j hj
    rw [hreleases] at hj
    cases hj
  · intro j hj
    rw [huses] at hj
    cases hj
  · show (f r).Keeps C.stack post ((C.acquires e r).toList ++ _)
    rw [hreleases]
    exact h r

/-- A call that releases what is held last. -/
theorem keeps_release {e : E} {f : R e → Program E R α} (hreleases : C.releases e = some k)
    (huses : C.uses e = none) (hacquires : ∀ r, C.acquires e r = none)
    (h : ∀ r, (f r).Keeps C.stack post held) :
    (Program.perform e >>= f).Keeps C.stack post (k :: held) := by
  refine (Program.keeps_perform_bind e f).mpr ⟨⟨?_, ?_⟩, fun r => ?_⟩
  · intro j hj
    rw [hreleases] at hj
    exact hj
  · intro j hj
    rw [huses] at hj
    cases hj
  · show (f r).Keeps C.stack post ((C.acquires e r).toList ++ _)
    rw [hreleases, hacquires]
    exact h r

-- ============================================================================
-- Releases against acquisitions
-- ============================================================================

variable [DecidableEq κ]

/-- What a call adds to and takes from the stack. -/
theorem count_next {e : E} (h : C.stack.allows held e) (r : R e) :
    (C.stack.next held e r).count k + (if C.releases e == some k then 1 else 0)
      = held.count k + if C.acquires e r == some k then 1 else 0 := by
  have hacquired : (C.acquires e r).toList.count k = if C.acquires e r == some k then 1 else 0 := by
    cases C.acquires e r with
    | none => rfl
    | some j => simp [List.count_singleton]
  show List.count k ((C.acquires e r).toList ++ _) + _ = _
  rw [List.count_append, hacquired]
  cases hreleases : C.releases e with
  | none => simp [Nat.add_comm]
  | some j =>
      obtain ⟨rest, rfl⟩ : ∃ rest, held = j :: rest := by
        cases held with
        | nil => simpa using h.1 j hreleases
        | cons i rest => exact ⟨rest, congrArg (· :: rest) (Option.some.inj (h.1 j hreleases))⟩
      simp only [List.tail_cons, List.count_cons, beq_iff_eq, Option.some.injEq]
      omega

/-- What has been released and what is held together are what was held and what has been
    acquired. -/
theorem count_after (h : C.stack.Accepts held trace) :
    (C.stack.after held trace).count k + C.released k trace
      = held.count k + C.acquired k trace := by
  induction trace generalizing held with
  | nil => rfl
  | cons entry trace ih =>
      have hnext := count_next (k := k) h.1 entry.answer
      have hrest := ih h.2
      rw [released, acquired] at hrest ⊢
      rw [List.countP_cons, List.countP_cons]
      rw [Protocol.after]
      omega

/-- Nothing is released that is not held. -/
theorem released_le (h : prog.Keeps C.stack post []) (htrace : prog.Reaches trace rest) (k : κ) :
    C.released k trace ≤ C.acquired k trace := by
  have hcount := count_after (k := k) (h.accepts htrace)
  rw [List.count_nil] at hcount
  omega

/-- A program that returns with nothing held has released everything as often as it
    acquired it. -/
theorem released_eq (h : prog.Keeps C.stack post []) (htrace : prog.Reaches trace (.ret a))
    (hheld : ∀ held, post a held → held = []) (k : κ) :
    C.released k trace = C.acquired k trace := by
  have hcount := count_after (k := k) (h.accepts htrace)
  rw [hheld _ (h.returns htrace), List.count_nil] at hcount
  omega

end Custody

end Effects

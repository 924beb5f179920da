/-
  UemuPkg.Generic.Cursor

  Enumeration by a cursor.  `Enumerates next n ns` says that the walk
  `for (; n >= 0; n = next (n))` visits exactly the offsets `ns`, in order.
-/

import Mathlib.Tactic.TypeStar

namespace Cursor

variable {next : Int → Int}

inductive Enumerates (next : Int → Int) : Int → List Int → Prop where
  | stop {n : Int} (h : n < 0) : Enumerates next n []
  | visit {n : Int} {ns : List Int} (h : 0 ≤ n) (rest : Enumerates next (next n) ns) :
      Enumerates next n (n :: ns)

/-- The walk from `n` ends at the negative offset `e`. -/
inductive EndsAt (next : Int → Int) : Int → Int → Prop where
  | stop {n : Int} (h : n < 0) : EndsAt next n n
  | visit {n e : Int} (h : 0 ≤ n) (rest : EndsAt next (next n) e) : EndsAt next n e

/-- A walk ends at one offset only. -/
theorem EndsAt.unique {n e e' : Int} (h : EndsAt next n e) (h' : EndsAt next n e') : e = e' := by
  induction h with
  | stop hneg =>
      cases h' with
      | stop _ => rfl
      | visit hpos _ => omega
  | visit hpos _ ih =>
      cases h' with
      | stop hneg => omega
      | visit _ rest => exact ih rest

/-- A walk that visits a list of offsets has an end. -/
theorem Enumerates.endsAt {n : Int} {ns : List Int} (h : Enumerates next n ns) :
    ∃ e, EndsAt next n e := by
  induction h with
  | stop hneg => exact ⟨_, .stop hneg⟩
  | visit hpos _ ih =>
      obtain ⟨e, he⟩ := ih
      exact ⟨e, .visit hpos he⟩

/-- Every offset visited is the first one or the successor of another. -/
theorem Enumerates.mem {n m : Int} {ns : List Int} (h : Enumerates next n ns) (hm : m ∈ ns) :
    0 ≤ m ∧ (m = n ∨ ∃ k, m = next k) := by
  induction h with
  | stop _ => cases hm
  | @visit n ns hpos _ ih =>
      rcases List.mem_cons.mp hm with rfl | hrest
      · exact ⟨hpos, .inl rfl⟩
      · obtain ⟨hm0, rfl | hsucc⟩ := ih hrest
        · exact ⟨hm0, .inr ⟨n, rfl⟩⟩
        · exact ⟨hm0, .inr hsucc⟩

/-- Offsets grow until the walk ends, and never pass `bound`. -/
structure Advances (next : Int → Int) (bound : Int) : Prop where
  lt_next : ∀ n, 0 ≤ n → next n < 0 ∨ n < next n
  next_le : ∀ n, next n ≤ bound

/-- A walk whose offsets grow below a bound ends. -/
theorem Advances.enumerates {bound : Int} (ha : Advances next bound) (n : Int) :
    ∃ ns, Enumerates next n ns := by
  by_cases h0 : n < 0
  · exact ⟨[], .stop h0⟩
  · have hle := ha.next_le n
    obtain ⟨ns, hns⟩ : ∃ ns, Enumerates next (next n) ns := by
      rcases ha.lt_next n (by omega) with hneg | hlt
      · exact ⟨[], .stop hneg⟩
      · exact ha.enumerates (next n)
    exact ⟨n :: ns, .visit (by omega) hns⟩
termination_by (bound - n).toNat

/-- A walk whose offsets grow stays at or above its start. -/
theorem Advances.le_of_mem {bound n m : Int} {ns : List Int} (ha : Advances next bound)
    (h : Enumerates next n ns) (hm : m ∈ ns) : n ≤ m := by
  induction h with
  | stop _ => cases hm
  | @visit n ns hpos rest ih =>
      rcases List.mem_cons.mp hm with rfl | hrest
      · exact Int.le_refl m
      · have hle := ih hrest
        rcases ha.lt_next n hpos with hneg | hlt
        · cases rest with
          | stop _ => cases hrest
          | visit hpos' _ => omega
        · omega

/-- A walk whose offsets grow visits each of them once, in ascending order. -/
theorem Advances.pairwise {bound n : Int} {ns : List Int} (ha : Advances next bound)
    (h : Enumerates next n ns) : ns.Pairwise (· < ·) := by
  induction h with
  | stop _ => exact .nil
  | @visit n ns hpos rest ih =>
      refine List.pairwise_cons.mpr ⟨?_, ih⟩
      intro m hm
      have hle := ha.le_of_mem rest hm
      rcases ha.lt_next n hpos with hneg | hlt
      · cases rest with
        | stop _ => cases hm
        | visit hpos' _ => omega
      · omega

/-- A walk that steps to the least offset with a property above it passes none over. -/
theorem Enumerates.mem_of_least {p : Int → Prop} {ns : List Int} {s m n : Int}
    (hleast : ∀ k, 0 ≤ next k → ∀ m, k < m → p m → next k ≤ m)
    (h : Enumerates next (next s) ns) (hm : p m) (hsm : s < m) (hn : n ∈ ns) (hmn : m ≤ n)
    (hsorted : ns.Pairwise (· < ·)) : m ∈ ns := by
  generalize hfirst : next s = first at h
  induction h generalizing s with
  | stop _ => cases hn
  | @visit first ns hpos rest ih =>
      subst hfirst
      rcases Int.lt_or_eq_of_le (hleast s hpos m hsm hm) with hlater | rfl
      · obtain ⟨-, htail⟩ := List.pairwise_cons.mp hsorted
        refine List.mem_cons_of_mem _ ?_
        rcases List.mem_cons.mp hn with rfl | hrest
        · omega
        · exact ih hlater hrest htail rfl
      · exact List.mem_cons_self

end Cursor

/-
  UemuPkg.Generic.Lifetime

  Names that are issued and dropped.  `live events` lists the names that a history
  leaves in use: those issued and not dropped since, each once, in the order in
  which they were first issued.
-/

import Mathlib.Data.List.Nodup

namespace Lifetime

inductive Event (κ : Type*) where
  | issued (k : κ)
  | dropped (k : κ)
  deriving DecidableEq

variable {κ : Type*} [DecidableEq κ] {k : κ} {events : List (Event κ)}

/-- The names in use after a history. -/
def live : List (Event κ) → List κ
  | [] => []
  | .issued k :: rest =>
    if .dropped k ∈ rest then live rest else k :: (live rest).filter (· ≠ k)
  | .dropped _ :: rest => live rest

theorem live_cons_issued_of_mem {rest : List (Event κ)} (h : .dropped k ∈ rest) :
    live (.issued k :: rest) = live rest := if_pos h

theorem live_cons_issued_of_not_mem {rest : List (Event κ)} (h : .dropped k ∉ rest) :
    live (.issued k :: rest) = k :: (live rest).filter (· ≠ k) := if_neg h

/-- A name is in use if it was issued at some point and has not been dropped since. -/
theorem mem_live_iff :
    k ∈ live events ↔ ∃ before since, events = before ++ .issued k :: since ∧
      .dropped k ∉ since := by
  induction events with
  | nil =>
      refine iff_of_false List.not_mem_nil ?_
      rintro ⟨before, since, h, -⟩
      cases before <;> cases h
  | cons event rest ih =>
      have hcons : (∃ before since, event :: rest = before ++ .issued k :: since ∧
            .dropped k ∉ since)
          ↔ (event = .issued k ∧ .dropped k ∉ rest) ∨ k ∈ live rest := by
        rw [ih]
        refine ⟨?_, ?_⟩
        · rintro ⟨_ | ⟨e, before⟩, since, h, hsince⟩
          · obtain ⟨rfl, rfl⟩ := List.cons.inj h
            exact .inl ⟨rfl, hsince⟩
          · obtain ⟨rfl, rfl⟩ := List.cons.inj h
            exact .inr ⟨before, since, rfl, hsince⟩
        · rintro (⟨rfl, hrest⟩ | ⟨before, since, rfl, hsince⟩)
          · exact ⟨[], rest, rfl, hrest⟩
          · exact ⟨event :: before, since, rfl, hsince⟩
      rw [hcons]
      cases event with
      | dropped j => simp [live]
      | issued j =>
          by_cases hdropped : .dropped j ∈ rest
          · rw [live_cons_issued_of_mem hdropped]
            refine ⟨.inr, ?_⟩
            rintro (⟨hj, hrest⟩ | hlive)
            · cases hj
              exact absurd hdropped hrest
            · exact hlive
          · rw [live_cons_issued_of_not_mem hdropped, List.mem_cons, List.mem_filter]
            by_cases hkj : k = j
            · subst hkj
              exact iff_of_true (.inl rfl) (.inl ⟨rfl, hdropped⟩)
            · simp only [hkj, false_or, ne_eq, not_false_eq_true, decide_true, and_true,
                Event.issued.injEq, Ne.symm (a := k) hkj, false_and]

/-- No name is listed twice. -/
theorem nodup_live (events : List (Event κ)) : (live events).Nodup := by
  induction events with
  | nil => exact .nil
  | cons event rest ih =>
      cases event with
      | dropped j => exact ih
      | issued j =>
          by_cases hdropped : .dropped j ∈ rest
          · rwa [live_cons_issued_of_mem hdropped]
          · rw [live_cons_issued_of_not_mem hdropped, List.nodup_cons]
            refine ⟨?_, ih.filter _⟩
            intro hmem
            simpa using (List.mem_filter.mp hmem).2

/-- Issuing a name adds it at the end, unless it is in use already. -/
theorem live_concat_issued (events : List (Event κ)) (k : κ) :
    live (events ++ [.issued k]) = if k ∈ live events then live events else live events ++ [k] := by
  induction events with
  | nil => rfl
  | cons event rest ih =>
      cases event with
      | dropped j => exact ih
      | issued j =>
          have hmem : .dropped j ∈ rest ++ [.issued k] ↔ .dropped j ∈ rest := by simp
          rw [List.cons_append]
          by_cases hdropped : .dropped j ∈ rest
          · rw [live_cons_issued_of_mem (hmem.mpr hdropped), live_cons_issued_of_mem hdropped, ih]
          · rw [live_cons_issued_of_not_mem (mt hmem.mp hdropped),
              live_cons_issued_of_not_mem hdropped, ih]
            by_cases hkj : k = j
            · subst hkj
              rw [if_pos List.mem_cons_self]
              congr 1
              split <;> simp
            · by_cases hlive : k ∈ live rest
              · simp [hlive, hkj]
              · simp [hlive, hkj]

/-- Dropping a name takes it out and keeps the order of the others. -/
theorem live_concat_dropped (events : List (Event κ)) (k : κ) :
    live (events ++ [.dropped k]) = (live events).filter (· ≠ k) := by
  induction events with
  | nil => rfl
  | cons event rest ih =>
      cases event with
      | dropped j => exact ih
      | issued j =>
          rw [List.cons_append]
          by_cases hdropped : .dropped j ∈ rest
          · rw [live_cons_issued_of_mem (List.mem_append_left _ hdropped),
              live_cons_issued_of_mem hdropped, ih]
          · rw [live_cons_issued_of_not_mem hdropped]
            by_cases hkj : j = k
            · subst hkj
              rw [live_cons_issued_of_mem (by simp), ih, List.filter_cons_of_neg (by simp)]
              simp
            · rw [live_cons_issued_of_not_mem (by simp [hdropped, hkj]), ih,
                List.filter_cons_of_pos (by simpa using hkj), List.filter_filter,
                List.filter_filter]
              simp only [Bool.and_comm]

end Lifetime

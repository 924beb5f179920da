/-
  UemuPkg.Generic.Credit

  Credit on a list of events.  Some events grant a credit, which replaces what was left
  of the one before; others spend one unit.  `Account` lists the disciplined histories
  by their last event; what it means for all of a history follows by induction.  At the
  end, streaks of equal elements in a list that grows in the same way.
-/

import Mathlib.Data.List.DropRight

namespace Credit

variable {E : Type*} {events before after between : List E} {e x : E}

/-- An event in a list that ends in `x` is the last one, or one before it. -/
theorem split_concat (h : events ++ [x] = before ++ e :: after) :
    (after = [] ∧ events = before ∧ x = e) ∨
      ∃ rest, after = rest ++ [x] ∧ events = before ++ e :: rest := by
  rcases List.eq_nil_or_concat' after with rfl | ⟨rest, last, rfl⟩
  · obtain ⟨hevents, hx⟩ := List.append_inj' h rfl
    exact .inl ⟨rfl, hevents, List.head_eq_of_cons_eq hx⟩
  · rw [← List.cons_append, ← List.append_assoc] at h
    obtain ⟨hevents, hx⟩ := List.append_inj' h rfl
    obtain rfl := List.head_eq_of_cons_eq hx
    exact .inr ⟨rest, rfl, hevents⟩

-- ============================================================================
-- What the discipline means
-- ============================================================================

variable (grant : E → Option Nat) (spends : E → Bool)

/-- Between a grant and the next one no more is spent than was granted. -/
def Within (events : List E) : Prop :=
  ∀ before e between after n, events = before ++ e :: (between ++ after) →
    grant e = some n → (∀ x ∈ between, grant x = none) → between.countP spends ≤ n

/-- What is spent is spent from a credit: the last grant before it was not 0. -/
def Covered (events : List E) : Prop :=
  ∀ before e after, events = before ++ e :: after → spends e = true →
    ∃ earlier g since n, before = earlier ++ g :: since ∧ grant g = some n ∧ n ≠ 0 ∧
      ∀ x ∈ since, grant x = none

-- ============================================================================
-- Disciplined histories
-- ============================================================================

/-- What is left of the last credit. -/
inductive Standing where
  /-- All of it: the last event has granted it. -/
  | granted (n : Nat)
  | left (n : Nat)

def Standing.amount : Standing → Nat
  | .granted n => n
  | .left n => n

/-- A credit is granted only after the one before has been used. -/
inductive Account : List E → Standing → Prop where
  | start : Account [] (.left 0)
  | refuse {events : List E} {e : E} {m : Nat} (h : Account events (.left m))
      (hgrant : grant e = some 0) (hspends : spends e = false) :
      Account (events ++ [e]) (.left 0)
  | grant {events : List E} {e : E} {m n : Nat} (h : Account events (.left m))
      (hgrant : grant e = some n) (hn : n ≠ 0) (hspends : spends e = false) :
      Account (events ++ [e]) (.granted n)
  | spend {events : List E} {e : E} {s : Standing} {n : Nat} (h : Account events s)
      (hamount : s.amount = n + 1) (hgrant : grant e = none) (hspends : spends e = true) :
      Account (events ++ [e]) (.left n)
  | other {events : List E} {e : E} {n : Nat} (h : Account events (.left n))
      (hgrant : grant e = none) (hspends : spends e = false) :
      Account (events ++ [e]) (.left n)

variable {grant spends} {s : Standing} {n : Nat}

theorem Account.granted_ne_zero (h : Account grant spends events (.granted n)) : n ≠ 0 := by
  cases h with
  | grant _ _ hn _ => exact hn

/-- What has been spent since the last grant and what is left make up the grant at most. -/
theorem Account.spent_add_le (h : Account grant spends events s)
    (hsplit : events = before ++ e :: between) (hgrant : grant e = some n)
    (hsince : ∀ x ∈ between, grant x = none) : between.countP spends + s.amount ≤ n := by
  -- An event that grants nothing comes after the grant, so the grant is in the history before.
  have hearlier : ∀ {events : List E} {x : E} {between : List E}, grant x = none →
      events ++ [x] = before ++ e :: between → (∀ y ∈ between, grant y = none) →
      ∃ rest, between = rest ++ [x] ∧ events = before ++ e :: rest ∧
        ∀ y ∈ rest, grant y = none := by
    intro events x between hx hsplit hsince
    rcases split_concat hsplit with ⟨-, -, rfl⟩ | ⟨rest, rfl, hevents⟩
    · rw [hx] at hgrant
      cases hgrant
    · exact ⟨rest, rfl, hevents, fun y hy => hsince y (List.mem_append_left _ hy)⟩
  induction h generalizing between with
  | start => exact absurd hsplit.symm (List.append_ne_nil_of_right_ne_nil _ (List.cons_ne_nil _ _))
  | @refuse events x m h hx _ ih =>
      rcases split_concat hsplit with ⟨rfl, -, -⟩ | ⟨rest, rfl, -⟩
      · exact Nat.zero_le n
      · rw [hsince x List.mem_concat_self] at hx
        cases hx
  | @grant events x m k h hx _ _ ih =>
      rcases split_concat hsplit with ⟨rfl, -, rfl⟩ | ⟨rest, rfl, -⟩
      · obtain rfl := Option.some.inj (hx.symm.trans hgrant)
        exact Nat.le_of_eq (Nat.zero_add k)
      · rw [hsince x List.mem_concat_self] at hx
        cases hx
  | @spend events x s k h hamount hx hspends ih =>
      obtain ⟨rest, rfl, hevents, hrest⟩ := hearlier hx hsplit hsince
      have hle := ih hevents hrest
      rw [List.countP_append, List.countP_singleton, if_pos hspends, Standing.amount]
      omega
  | @other events x k h hx hspends ih =>
      obtain ⟨rest, rfl, hevents, hrest⟩ := hearlier hx hsplit hsince
      have hle := ih hevents hrest
      rw [List.countP_append, List.countP_singleton, hspends]
      simp only [Standing.amount, Bool.false_eq_true, if_false] at hle ⊢
      omega

/-- The beginning of a disciplined history is one. -/
theorem Account.of_isPrefix (h : Account grant spends events s) {earlier : List E}
    (hearlier : earlier <+: events) : ∃ s', Account grant spends earlier s' := by
  induction h with
  | start =>
      rw [List.prefix_nil.mp hearlier]
      exact ⟨_, .start⟩
  | @refuse events x m h hx hspends ih =>
      rcases List.prefix_concat_iff.mp hearlier with rfl | hbefore
      · exact ⟨_, .refuse h hx hspends⟩
      · exact ih hbefore
  | @grant events x m k h hx hk hspends ih =>
      rcases List.prefix_concat_iff.mp hearlier with rfl | hbefore
      · exact ⟨_, .grant h hx hk hspends⟩
      · exact ih hbefore
  | @spend events x s k h hamount hx hspends ih =>
      rcases List.prefix_concat_iff.mp hearlier with rfl | hbefore
      · exact ⟨_, .spend h hamount hx hspends⟩
      · exact ih hbefore
  | @other events x k h hx hspends ih =>
      rcases List.prefix_concat_iff.mp hearlier with rfl | hbefore
      · exact ⟨_, .other h hx hspends⟩
      · exact ih hbefore

theorem Account.within (h : Account grant spends events s) : Within grant spends events := by
  intro before e between after n hsplit hgrant hsince
  have hbegins : before ++ e :: between <+: events :=
    ⟨after, by rw [hsplit, List.append_assoc, List.cons_append]⟩
  obtain ⟨s', hbefore⟩ := h.of_isPrefix hbegins
  exact Nat.le_trans (Nat.le_add_right _ _) (hbefore.spent_add_le rfl hgrant hsince)

/-- Where something is left, there is a grant that it is left of. -/
theorem Account.exists_grant (h : Account grant spends events s) (hleft : s.amount ≠ 0) :
    ∃ earlier g since n, events = earlier ++ g :: since ∧ grant g = some n ∧ n ≠ 0 ∧
      ∀ x ∈ since, grant x = none := by
  -- A later event that grants nothing joins the ones since the grant.
  have hlater : ∀ {events : List E} {x : E}, grant x = none →
      (∃ earlier g since n, events = earlier ++ g :: since ∧ grant g = some n ∧ n ≠ 0 ∧
        ∀ y ∈ since, grant y = none) →
      ∃ earlier g since n, events ++ [x] = earlier ++ g :: since ∧ grant g = some n ∧ n ≠ 0 ∧
        ∀ y ∈ since, grant y = none := by
    rintro events x hx ⟨earlier, g, since, n, rfl, hg, hn, hsince⟩
    refine ⟨earlier, g, since ++ [x], n, by rw [List.append_assoc, List.cons_append], hg, hn, ?_⟩
    intro y hy
    rcases List.mem_append.mp hy with hy | hy
    · exact hsince y hy
    · rw [List.mem_singleton.mp hy]
      exact hx
  induction h with
  | start => exact absurd rfl hleft
  | refuse => exact absurd rfl hleft
  | @grant events x m k h hx hk _ _ => exact ⟨events, x, [], k, rfl, hx, hk, nofun⟩
  | spend h hamount hx _ ih => exact hlater hx (ih (by rw [hamount]; exact Nat.succ_ne_zero _))
  | other h hx _ ih => exact hlater hx (ih hleft)

/-- At an event that spends there is something left. -/
theorem Account.of_spends (h : Account grant spends (events ++ [e]) s) (hspends : spends e = true) :
    ∃ s', Account grant spends events s' ∧ s'.amount ≠ 0 := by
  generalize hsplit : events ++ [e] = history at h
  cases h with
  | start => exact absurd hsplit (List.append_ne_nil_of_right_ne_nil _ (List.cons_ne_nil _ _))
  | refuse h _ hnot | grant h _ _ hnot | other h _ hnot =>
      rw [List.head_eq_of_cons_eq (List.append_inj' hsplit rfl).2, hnot] at hspends
      cases hspends
  | spend h hamount _ _ =>
      rw [(List.append_inj' hsplit rfl).1]
      exact ⟨_, h, by rw [hamount]; exact Nat.succ_ne_zero _⟩

theorem Account.covered (h : Account grant spends events s) : Covered grant spends events := by
  intro before e after hsplit hspends
  have hbegins : before ++ [e] <+: events :=
    ⟨after, by rw [hsplit, List.append_assoc, List.singleton_append]⟩
  obtain ⟨s', hupTo⟩ := h.of_isPrefix hbegins
  obtain ⟨s'', hbefore, hleft⟩ := hupTo.of_spends hspends
  exact hbefore.exists_grant hleft

/-- A grant that is not 0 is used by the next event, or it is the last event. -/
theorem Account.used_or_granted (h : Account grant spends events s)
    (hsplit : events = before ++ e :: after) (hgrant : grant e = some n) (hn : n ≠ 0) :
    (after = [] ∧ s = .granted n) ∨ ∃ x rest, after = x :: rest ∧ spends x = true := by
  -- If it is used in the history before, or was left there, it is not the last event.
  have hused : ∀ {x : E} {rest : List E},
      (∃ y more, rest = y :: more ∧ spends y = true) →
      ∃ y more, rest ++ [x] = y :: more ∧ spends y = true := by
    rintro x rest ⟨y, more, rfl, hy⟩
    exact ⟨y, more ++ [x], rfl, hy⟩
  induction h generalizing after with
  | start => exact absurd hsplit.symm (List.append_ne_nil_of_right_ne_nil _ (List.cons_ne_nil _ _))
  | @refuse events x m h hx _ ih =>
      rcases split_concat hsplit with ⟨-, -, rfl⟩ | ⟨rest, rfl, hevents⟩
      · exact absurd (Option.some.inj (hgrant.symm.trans hx)) hn
      · rcases ih hevents with ⟨-, hs⟩ | hbefore
        · cases hs
        · exact .inr (hused hbefore)
  | @grant events x m k h hx _ _ ih =>
      rcases split_concat hsplit with ⟨rfl, -, rfl⟩ | ⟨rest, rfl, hevents⟩
      · exact .inl ⟨rfl, by rw [Option.some.inj (hx.symm.trans hgrant)]⟩
      · rcases ih hevents with ⟨-, hs⟩ | hbefore
        · cases hs
        · exact .inr (hused hbefore)
  | @spend events x s k h _ hx hspends ih =>
      rcases split_concat hsplit with ⟨-, -, rfl⟩ | ⟨rest, rfl, hevents⟩
      · rw [hx] at hgrant
        cases hgrant
      · rcases ih hevents with ⟨rfl, -⟩ | hbefore
        · exact .inr ⟨x, [], rfl, hspends⟩
        · exact .inr (hused hbefore)
  | @other events x k h hx _ ih =>
      rcases split_concat hsplit with ⟨-, -, rfl⟩ | ⟨rest, rfl, hevents⟩
      · rw [hx] at hgrant
        cases hgrant
      · rcases ih hevents with ⟨-, hs⟩ | hbefore
        · cases hs
        · exact .inr (hused hbefore)

end Credit

-- ============================================================================
-- Streaks
-- ============================================================================

namespace Streak

variable {α : Type*} [DecidableEq α] {a b : α} {l : List α} {n : Nat}

/-- How often `a` stands at the end of the list. -/
def streak (a : α) (l : List α) : Nat := (l.rtakeWhile (· = a)).length

theorem streak_nil : streak a [] = 0 := rfl

theorem streak_concat_self : streak a (l ++ [a]) = streak a l + 1 := by
  rw [streak, List.rtakeWhile_concat_pos (· = a) _ _ (decide_eq_true rfl), List.length_append]
  rfl

theorem streak_concat_of_ne (h : b ≠ a) : streak a (l ++ [b]) = 0 := by
  rw [streak, List.rtakeWhile_concat_neg (· = a) _ _ (by simpa using h)]
  rfl

theorem replicate_suffix_iff : List.replicate n a <:+ l ↔ n ≤ streak a l := by
  induction l using List.reverseRecOn generalizing n with
  | nil => rw [List.suffix_nil, List.replicate_eq_nil_iff, streak_nil, Nat.le_zero]
  | append_singleton l b ih =>
      cases n with
      | zero => exact iff_of_true List.nil_suffix (Nat.zero_le _)
      | succ n =>
          rw [List.replicate_succ', List.suffix_concat_iff]
          by_cases hb : b = a
          · rw [hb, streak_concat_self, Nat.succ_le_succ_iff, ← ih]
            refine ⟨?_, ?_⟩
            · rintro (h | ⟨t, h, ht⟩)
              · exact absurd h (List.append_ne_nil_of_right_ne_nil _ (List.cons_ne_nil _ _))
              · rw [(List.append_inj' h rfl).1]
                exact ht
            · exact fun h => .inr ⟨_, rfl, h⟩
          · rw [streak_concat_of_ne hb]
            refine iff_of_false ?_ (by omega)
            rintro (h | ⟨t, h, -⟩)
            · exact absurd h (List.append_ne_nil_of_right_ne_nil _ (List.cons_ne_nil _ _))
            · exact hb (List.head_eq_of_cons_eq (List.append_inj' h rfl).2).symm

/-- A streak of `n` stands somewhere in the list if it does at the end, or before. -/
theorem replicate_infix_concat_iff :
    List.replicate n a <:+: l ++ [b] ↔ n ≤ streak a (l ++ [b]) ∨ List.replicate n a <:+: l := by
  rw [List.infix_concat_iff, replicate_suffix_iff]

end Streak

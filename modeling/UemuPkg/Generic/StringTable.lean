/-
  UemuPkg.Generic.StringTable

  Tables of terminated strings.  Each string is followed by a terminator `z`, and
  the table ends at the first two terminators in a row.  `decode` splits a table
  and returns its strings and what follows it; `decode_encode_iff` says which
  lists of strings survive.
-/

import Mathlib.Data.List.TakeWhile

namespace StringTable

variable {α : Type*} {z : α} {s : List α} {ss : List (List α)}

/-- The strings, each with its terminator. -/
def encode (z : α) (strings : List (List α)) : List α := strings.flatMap fun s => s ++ [z]

@[simp] theorem encode_nil : encode z [] = [] := rfl

theorem encode_cons_append (s : List α) (ss : List (List α)) (rest : List α) :
    encode z (s :: ss) ++ rest = s ++ z :: (encode z ss ++ rest) := by
  rw [encode, List.flatMap_cons, List.append_assoc, List.append_assoc]
  rfl

/-- A terminator follows exactly if there is no string, or an empty one. -/
theorem head_encode (hs : ∀ t ∈ ss, z ∉ t) (rest : List α) :
    (encode z ss ++ z :: rest).head? = some z ↔ ∀ t ∈ ss.head?, t = [] := by
  cases ss with
  | nil => simp
  | cons t ss =>
      rw [encode_cons_append]
      cases t with
      | nil => simp
      | cons c t =>
          have hc : c ≠ z := fun h => hs _ List.mem_cons_self (h ▸ List.mem_cons_self)
          simp [hc]

variable [DecidableEq α]

/-- Read the rest of a string, of which `current` has been read, and the strings
    after it, up to the double terminator. -/
def decodeFrom (z : α) : List α → List α → Option (List (List α) × List α)
  | _, [] => none
  | current, b :: rest =>
    if b = z then
      if rest.head? = some z then
        some ([current], rest.tail)
      else
        (decodeFrom z [] rest).map fun r => (current :: r.1, r.2)
    else
      decodeFrom z (current ++ [b]) rest

/-- A table that starts with the double terminator holds no string. -/
def decode (z : α) (bytes : List α) : Option (List (List α) × List α) :=
  if bytes.take 2 = [z, z] then some ([], bytes.drop 2) else decodeFrom z [] bytes

-- ============================================================================
-- Reading one string
-- ============================================================================

/-- The characters of a string are passed over up to its terminator. -/
theorem decodeFrom_append (hs : z ∉ s) (current rest : List α) :
    decodeFrom z current (s ++ rest) = decodeFrom z (current ++ s) rest := by
  induction s generalizing current with
  | nil => rw [List.nil_append, List.append_nil]
  | cons b s ih =>
      rw [List.mem_cons, not_or] at hs
      rw [List.cons_append, decodeFrom, if_neg (Ne.symm hs.1), ih hs.2, List.append_assoc]
      rfl

theorem decodeFrom_last (hs : z ∉ s) {rest : List α} (hrest : rest.head? = some z) :
    decodeFrom z [] (s ++ z :: rest) = some ([s], rest.tail) := by
  rw [decodeFrom_append hs, List.nil_append, decodeFrom, if_pos rfl, if_pos hrest]

theorem decodeFrom_more (hs : z ∉ s) {rest : List α} (hrest : rest.head? ≠ some z) :
    decodeFrom z [] (s ++ z :: rest)
      = (decodeFrom z [] rest).map fun r => (s :: r.1, r.2) := by
  rw [decodeFrom_append hs, List.nil_append, decodeFrom, if_pos rfl, if_neg hrest]

-- ============================================================================
-- Reading a table
-- ============================================================================

/-- Strings after the first are all read if none of them is empty. -/
theorem decodeFrom_encode (hs : ∀ t ∈ s :: ss, z ∉ t) (hne : ∀ t ∈ ss, t ≠ [])
    (rest : List α) :
    decodeFrom z [] (encode z (s :: ss) ++ z :: rest) = some (s :: ss, rest) := by
  induction ss generalizing s with
  | nil =>
      rw [encode_cons_append]
      exact decodeFrom_last (hs s List.mem_cons_self) rfl
  | cons t ss ih =>
      have htail : ∀ u ∈ t :: ss, z ∉ u := fun u hu => hs u (List.mem_cons_of_mem s hu)
      have hhead : (encode z (t :: ss) ++ z :: rest).head? ≠ some z := by
        rw [Ne, head_encode htail]
        intro h
        exact hne t List.mem_cons_self (h t rfl)
      rw [encode_cons_append, decodeFrom_more (hs s List.mem_cons_self) hhead,
        ih htail fun u hu => hne u (List.mem_cons_of_mem t hu)]
      rfl

/-- In general the strings before the first empty one are read, the first string
    being exempt. -/
theorem decodeFrom_encode_fst (hs : ∀ t ∈ s :: ss, z ∉ t) (rest : List α) :
    (decodeFrom z [] (encode z (s :: ss) ++ z :: rest)).map Prod.fst
      = some (s :: ss.takeWhile (· ≠ [])) := by
  induction ss generalizing s with
  | nil =>
      rw [encode_cons_append, decodeFrom_last (hs s List.mem_cons_self) rfl]
      rfl
  | cons t ss ih =>
      have htail : ∀ u ∈ t :: ss, z ∉ u := fun u hu => hs u (List.mem_cons_of_mem s hu)
      rw [encode_cons_append]
      by_cases ht : t = []
      · have hhead : (encode z (t :: ss) ++ z :: rest).head? = some z := by
          rw [head_encode htail]
          intro u hu
          rw [← Option.some.inj hu]
          exact ht
        rw [decodeFrom_last (hs s List.mem_cons_self) hhead,
          List.takeWhile_cons_of_neg (by simp [ht])]
        rfl
      · have hhead : (encode z (t :: ss) ++ z :: rest).head? ≠ some z := by
          rw [Ne, head_encode htail]
          intro h
          exact ht (h t rfl)
        have hrec := ih htail
        rw [decodeFrom_more (hs s List.mem_cons_self) hhead, Option.map_map,
          List.takeWhile_cons_of_pos (by simp [ht])]
        obtain ⟨r, hr, hfst⟩ := Option.map_eq_some_iff.mp hrec
        rw [hr, ← hfst]
        rfl

/-- What is decoded starts with the first string, if it is not empty. -/
theorem decode_encode_fst (hs : ∀ t ∈ s :: ss, z ∉ t) (rest : List α) :
    (decode z (encode z (s :: ss) ++ z :: rest)).map Prod.fst = some [] ∨
      (decode z (encode z (s :: ss) ++ z :: rest)).map Prod.fst
        = some (s :: ss.takeWhile (· ≠ [])) := by
  rw [decode]
  split
  · exact .inl rfl
  · exact .inr (decodeFrom_encode_fst hs rest)

/-- A nonempty list of strings survives exactly if only its first string is empty,
    if any is, and another string follows it. -/
theorem decode_encode_iff (hs : ∀ t ∈ s :: ss, z ∉ t) :
    decode z (encode z (s :: ss) ++ [z]) = some (s :: ss, [])
      ↔ s :: ss ≠ [[]] ∧ ∀ t ∈ ss, t ≠ [] := by
  refine ⟨?_, ?_⟩
  · intro h
    refine ⟨?_, ?_⟩
    · intro hsingle
      obtain ⟨rfl, rfl⟩ := List.cons.inj hsingle
      have hempty : decode z (encode z [[]] ++ [z]) = some ([], []) := if_pos rfl
      rw [hempty] at h
      cases h
    · rcases decode_encode_fst hs [] with hfst | hfst
      · rw [h] at hfst
        cases hfst
      · rw [h, Option.map_some, Option.some.injEq, List.cons.injEq] at hfst
        intro t ht
        rw [hfst.2] at ht
        simpa using List.mem_takeWhile_imp ht
  · rintro ⟨hsingle, hne⟩
    have hfirst : (encode z (s :: ss) ++ [z]).take 2 ≠ [z, z] := by
      rw [encode_cons_append]
      intro htake
      cases s with
      | nil =>
          cases ss with
          | nil => exact hsingle rfl
          | cons t ss =>
              obtain ⟨c, t, rfl⟩ := List.exists_cons_of_ne_nil (hne t List.mem_cons_self)
              have hc : c ≠ z := fun h =>
                hs (c :: t) (by simp) (h ▸ List.mem_cons_self)
              rw [encode_cons_append] at htake
              simp [hc] at htake
      | cons c s =>
          have hc : c ≠ z := fun h => hs (c :: s) List.mem_cons_self (h ▸ List.mem_cons_self)
          simp [hc] at htake
    rw [decode, if_neg hfirst]
    exact decodeFrom_encode hs hne []

/-- With its first character cut off, no nonempty list of strings is decoded. -/
theorem decode_encode_tail_ne (hs : ∀ t ∈ s :: ss, z ∉ t) (rest : List α) :
    (decode z ((encode z (s :: ss) ++ z :: z :: rest).tail)).map Prod.fst ≠ some (s :: ss) := by
  intro h
  rw [encode_cons_append] at h
  cases s with
  | cons c s =>
      have hs' : ∀ t ∈ s :: ss, z ∉ t := by
        intro t ht hz
        rcases List.mem_cons.mp ht with rfl | ht
        · exact hs (c :: t) List.mem_cons_self (List.mem_cons_of_mem c hz)
        · exact hs t (List.mem_cons_of_mem (c :: s) ht) hz
      rw [List.cons_append, List.tail_cons, ← encode_cons_append] at h
      rcases decode_encode_fst hs' (z :: rest) with hfst | hfst <;> rw [hfst] at h
      · cases h
      · have hlen := congrArg List.length (List.cons.inj (Option.some.inj h)).1
        simp at hlen
  | nil =>
      rw [List.nil_append, List.tail_cons] at h
      cases ss with
      | nil =>
          have hempty : decode z (encode z [] ++ z :: z :: rest) = some ([], rest) := if_pos rfl
          rw [hempty] at h
          cases h
      | cons t ss =>
          have htail : ∀ u ∈ t :: ss, z ∉ u := fun u hu => hs u (List.mem_cons_of_mem [] hu)
          rcases decode_encode_fst htail (z :: rest) with hfst | hfst <;> rw [hfst] at h
          · cases h
          · have hle := (List.takeWhile_sublist (fun u : List α => decide (u ≠ [])) (l := ss)).length_le
            have hlen := congrArg List.length (Option.some.inj h)
            simp only [List.length_cons] at hlen
            omega

end StringTable

/-
  UemuPkg.Generic.Ceiling

  Operations that each run as one section at a common level, the ceiling, called by a
  program and by handlers that preempt it and one another.  They are serializable: what
  has happened to the state is a sequence of whole operations.
-/

import UemuPkg.Generic.Preemption
import UemuPkg.Generic.Protocol

namespace Preemption

open Effects (Program)

variable {E σ ι α : Type} {R : E → Type}

/-- One operation after the other. -/
def operate (code : ι → Code E R α) : List ι → Code E R (List α)
  | [] => return []
  | i :: is => do
    let a ← code i
    let as ← operate code is
    return a :: as

/-- A handler of a higher level, up to the ceiling, may preempt at any step.  It calls the
    operations and is preempted in its turn, until there are `depth` of them. -/
def nested (answer : σ → (e : E) → R e × σ) (ceiling : Nat) (code : ι → Code E R α) :
    Nat → World E R σ
  | 0 => { answer, interferes := fun _ _ _ => False }
  | depth + 1 =>
    { answer
      interferes := fun low s t => ∃ level, low < level ∧ level ≤ ceiling ∧ ∃ is as,
        Executes (nested answer ceiling code depth) (operate code is) level s as level t }

/-- The operations one after the other, not preempted: what each returns, and the state. -/
def serially (answer : σ → (e : E) → R e × σ) (ops : ι → Program E R α) :
    σ → List ι → List (ι × α) × σ
  | s, [] => ([], s)
  | s, i :: is =>
    let own := (ops i).run answer s
    let later := serially answer ops own.2 is
    ((i, own.1) :: later.1, later.2)

variable {answer : σ → (e : E) → R e × σ} {ops : ι → Program E R α} {code : ι → Code E R α}
  {ceiling level level' depth : Nat} {s s' t : σ}

theorem serially_append (is js : List ι) :
    serially answer ops s (is ++ js)
      = ((serially answer ops s is).1 ++ (serially answer ops (serially answer ops s is).2 js).1,
          (serially answer ops (serially answer ops s is).2 js).2) := by
  induction is generalizing s with
  | nil => rfl
  | cons i is ih =>
      simp only [List.cons_append, serially]
      rw [ih]

/-- The pairs are results, in order, of a sequence of whole operations between the states. -/
def Serial (answer : σ → (e : E) → R e × σ) (ops : ι → Program E R α) (s : σ)
    (calls : List (ι × α)) (s' : σ) : Prop :=
  ∃ history, calls.Sublist (serially answer ops s history).1 ∧
    (serially answer ops s history).2 = s'

variable {calls calls' : List (ι × α)}

theorem Serial.refl (s : σ) : Serial answer ops s [] s := ⟨[], List.Sublist.refl _, rfl⟩

theorem Serial.single (i : ι) :
    Serial answer ops s [(i, ((ops i).run answer s).1)] ((ops i).run answer s).2 :=
  ⟨[i], List.Sublist.refl _, rfl⟩

theorem Serial.append (h : Serial answer ops s calls t) (h' : Serial answer ops t calls' s') :
    Serial answer ops s (calls ++ calls') s' := by
  obtain ⟨history, hcalls, rfl⟩ := h
  obtain ⟨history', hcalls', rfl⟩ := h'
  refine ⟨history ++ history', ?_, ?_⟩
  · rw [serially_append]
    exact hcalls.append hcalls'
  · rw [serially_append]

/-- The results of others are left out. -/
theorem Serial.forget (h : Serial answer ops s calls s') : Serial answer ops s [] s' := by
  obtain ⟨history, -, hstate⟩ := h
  exact ⟨history, List.nil_sublist _, hstate⟩

theorem nested_answer (depth : Nat) : (nested answer ceiling code depth).answer = answer := by
  cases depth <;> rfl

theorem nested_ranked (depth : Nat) : (nested answer ceiling code depth).Ranked := by
  intro low high s t hle h
  cases depth with
  | zero => exact h
  | succ depth =>
      obtain ⟨level, hlt, hrest⟩ := h
      exact ⟨level, Nat.lt_of_le_of_lt hle hlt, hrest⟩

/-- At the ceiling there is nothing that preempts. -/
theorem not_interferes_ceiling (depth : Nat) :
    ¬ (nested answer ceiling code depth).interferes ceiling s t := by
  intro h
  cases depth with
  | zero => exact h
  | succ depth =>
      obtain ⟨level, hlt, hle, -⟩ := h
      exact absurd hle (Nat.not_le_of_lt hlt)

theorem nested_undisturbed (depth : Nat) :
    (nested answer ceiling code depth).Undisturbed ceiling fun _ => True :=
  fun _ _ _ _ h => absurd h (not_interferes_ceiling depth)

/-- What preempts is serial. -/
def SerialInterference (answer : σ → (e : E) → R e × σ) (ops : ι → Program E R α)
    (W : World E R σ) : Prop :=
  ∀ level s t, W.interferes level s t → Serial answer ops s [] t

theorem SerialInterference.interferes {W : World E R σ} (hW : SerialInterference answer ops W)
    (h : W.Interferes level s t) : Serial answer ops s [] t := by
  induction h with
  | refl => exact .refl s
  | tail _ hlast ih => exact ih.append (hW _ _ _ hlast)

/-- A caller under serial interference is serial. -/
theorem operate_serial (hcode : ∀ i, code i = atLevel ceiling (ops i))
    (hW : SerialInterference answer ops (nested answer ceiling code depth))
    (hlevel : level ≤ ceiling) {requests : List ι} {replies : List α}
    (h : Executes (nested answer ceiling code depth) (operate code requests) level s replies
      level' s') :
    level' = level ∧ replies.length = requests.length ∧
      Serial answer ops s (requests.zip replies) s' := by
  induction requests generalizing s replies level' s' with
  | nil =>
      obtain ⟨rfl, rfl, hrest⟩ := executes_ret_iff.mp h
      exact ⟨rfl, rfl, hW.interferes hrest⟩
  | cons i is ih =>
      obtain ⟨a, middle, t, hfirst, hlater⟩ := executes_bind_iff.mp h
      obtain ⟨as, last, u, hsecond, hret⟩ := executes_bind_iff.mp hlater
      obtain ⟨rfl, rfl, hrest⟩ := executes_ret_iff.mp hret
      rw [hcode] at hfirst
      obtain ⟨rfl, v, hv, ha, hafter⟩ := (executes_atLevel_iff (nested_ranked depth)
        (nested_undisturbed depth) (Program.calls_true _).later hlevel).mp hfirst
      rw [nested_answer] at ha hafter
      obtain ⟨hlast, hlength, hserial⟩ := ih hsecond
      refine ⟨hlast, congrArg (· + 1) hlength, ?_⟩
      have hown := (hW.interferes hv).append ((Serial.single i).append (hW.interferes hafter))
      rw [← ha] at hown
      have hwhole := hown.append (hserial.append (hW.interferes hrest))
      simpa using hwhole

theorem nested_serial (hcode : ∀ i, code i = atLevel ceiling (ops i)) (depth : Nat) :
    SerialInterference answer ops (nested answer ceiling code depth) := by
  induction depth with
  | zero => exact fun _ _ _ h => absurd h id
  | succ depth ih =>
      rintro low s t ⟨level, -, hlevel, is, as, h⟩
      exact (operate_serial hcode ih hlevel h).2.2.forget

/-- However deeply the handlers nest, all that happens is serial, and so are the results. -/
theorem executes_nested_serial (hcode : ∀ i, code i = atLevel ceiling (ops i))
    (hlevel : level ≤ ceiling) {requests : List ι} {replies : List α}
    (h : Executes (nested answer ceiling code depth) (operate code requests) level s replies
      level' s') :
    level' = level ∧ replies.length = requests.length ∧
      Serial answer ops s (requests.zip replies) s' :=
  operate_serial hcode (nested_serial hcode depth) hlevel h

end Preemption

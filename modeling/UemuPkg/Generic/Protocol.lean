/-
  UemuPkg.Generic.Protocol

  The order in which a program makes its calls.  `Reaches` follows a program through
  any answers to its calls and may stop at any of them, so what is shown of every
  trace holds at every moment of an execution, of one that never ends as well.

  A protocol is a state that the calls and their answers change, and says in each
  state which calls are in order.  `Keeps` computes, from the end of the program
  backwards, what has to hold at its start for it to keep to the protocol; it is shown
  for a sequence part by part, and read off the traces by `Keeps.reaches`.
-/

import UemuPkg.Generic.Effects

namespace Effects

variable {E E' σ α β : Type} {R : E → Type} {R' : E' → Type}

/-- A call and what it returned. -/
structure Entry (E : Type) (R : E → Type) where
  call : E
  answer : R call

namespace Program

/-- After the calls of the trace the program has `rest` left to do. -/
inductive Reaches : Program E R α → List (Entry E R) → Program E R α → Prop
  | refl (prog : Program E R α) : Reaches prog [] prog
  | call {e : E} {next : R e → Program E R α} {rest : Program E R α} {trace : List (Entry E R)}
      (r : R e) (h : Reaches (next r) trace rest) :
      Reaches (.call e next) (⟨e, r⟩ :: trace) rest

/-- The trace of a program in an environment that answers its calls. -/
def record (answer : σ → (e : E) → R e × σ) : Program E R α → σ → List (Entry E R)
  | .ret _, _ => []
  | .call e next, s =>
    ⟨e, (answer s e).1⟩ :: (next (answer s e).1).record answer (answer s e).2

theorem reaches_record (answer : σ → (e : E) → R e × σ) (prog : Program E R α) (s : σ) :
    prog.Reaches (prog.record answer s) (.ret (prog.run answer s).1) := by
  induction prog generalizing s with
  | ret a => exact .refl _
  | call e next ih => exact .call _ (ih _ _)

-- ============================================================================
-- The laws of sequencing
-- ============================================================================

theorem bind_ret (prog : Program E R α) : prog >>= Program.ret = prog := by
  induction prog with
  | ret a => rfl
  | call e next ih => exact congrArg (Program.call e) (funext ih)

/-- The calls of a trace are among those that the program can make. -/
theorem Calls.reaches {p : E → Prop} {prog rest : Program E R α} {trace : List (Entry E R)}
    (h : prog.Calls p) (htrace : prog.Reaches trace rest) : ∀ entry ∈ trace, p entry.call := by
  induction htrace with
  | refl prog => exact fun entry hmem => absurd hmem List.not_mem_nil
  | call r _ ih =>
      intro entry hmem
      rcases List.mem_cons.mp hmem with rfl | hmem
      · exact h.1
      · exact ih (h.2 r) entry hmem

theorem Calls.perform_bind {p : E → Prop} {e : E} {f : R e → Program E R α} (he : p e)
    (hf : ∀ r, (f r).Calls p) : (perform e >>= f).Calls p := ⟨he, hf⟩

theorem Calls.mono {p q : E → Prop} {prog : Program E R α} (h : prog.Calls p)
    (hpq : ∀ e, p e → q e) : prog.Calls q := by
  induction prog with
  | ret a => trivial
  | call e next ih => exact ⟨hpq e h.1, fun r => ih r (h.2 r)⟩

theorem calls_true (prog : Program E R α) : prog.Calls fun _ => True := by
  induction prog with
  | ret a => trivial
  | call e next ih => exact ⟨trivial, ih⟩

/-- A sequence runs its second part where the first has ended. -/
theorem run_bind (answer : σ → (e : E) → R e × σ) (prog : Program E R α) (f : α → Program E R β)
    (s : σ) :
    (prog >>= f).run answer s = (f (prog.run answer s).1).run answer (prog.run answer s).2 := by
  induction prog generalizing s with
  | ret a => rfl
  | call e next ih => exact ih _ _

/-- What the allowed calls leave alone a program that makes only such calls leaves alone. -/
theorem Calls.run_keeps {τ : Type} {answer : σ → (e : E) → R e × σ} {p : E → Prop} {view : σ → τ}
    {prog : Program E R α} (h : prog.Calls p)
    (hkeep : ∀ s e, p e → view (answer s e).2 = view s) (s : σ) :
    view (prog.run answer s).2 = view s := by
  induction prog generalizing s with
  | ret a => rfl
  | call e next ih => exact (ih _ (h.2 _) _).trans (hkeep s e h.1)

theorem record_bind (answer : σ → (e : E) → R e × σ) (prog : Program E R α)
    (f : α → Program E R β) (s : σ) :
    (prog >>= f).record answer s
      = prog.record answer s ++ (f (prog.run answer s).1).record answer (prog.run answer s).2 := by
  induction prog generalizing s with
  | ret a => rfl
  | call e next ih => exact congrArg (List.cons _) (ih _ _)

-- ============================================================================
-- Calls made of other calls
-- ============================================================================

/-- The program with each call replaced by the program that carries it out. -/
def expand (body : (e : E) → Program E' R' (R e)) : Program E R α → Program E' R' α
  | .ret a => .ret a
  | .call e next => body e >>= fun r => (next r).expand body

/-- The call of the trace of a sequence is one of its first part, or the first part has
    ended before it. -/
theorem Reaches.of_bind {prog : Program E R α} {f : α → Program E R β}
    {before since : List (Entry E R)} {entry : Entry E R} {rest : Program E R β}
    (h : (prog >>= f).Reaches (before ++ entry :: since) rest) :
    (∃ mid, prog.Reaches (before ++ [entry]) mid) ∨
      ∃ first a second, before = first ++ second ∧ prog.Reaches first (.ret a) ∧
        (f a).Reaches (second ++ entry :: since) rest := by
  induction prog generalizing before with
  | ret a => exact .inr ⟨[], a, before, rfl, .refl _, h⟩
  | call e next ih =>
      cases before with
      | nil =>
          obtain _ | ⟨r, hnext⟩ := h
          exact .inl ⟨next r, .call r (.refl _)⟩
      | cons earlier before =>
          obtain _ | ⟨r, hnext⟩ := h
          rcases ih r hnext with ⟨mid, hmid⟩ | ⟨first, a, second, rfl, hfirst, hsecond⟩
          · exact .inl ⟨mid, .call r hmid⟩
          · exact .inr ⟨_ :: first, a, second, rfl, .call r hfirst, hsecond⟩

/-- The calls of the first trace, each carried out to its end, are those of the second. -/
inductive Expands (body : (e : E) → Program E' R' (R e)) :
    List (Entry E R) → List (Entry E' R') → Prop
  | nil : Expands body [] []
  | cons {entry : Entry E R} {past : List (Entry E R)} {trace done : List (Entry E' R')}
      (h : (body entry.call).Reaches trace (.ret entry.answer)) (rest : Expands body past done) :
      Expands body (entry :: past) (trace ++ done)

/-- The program has come to `e` with the calls `past`, and `entry` is one of the calls that
    carry out `e`. -/
def CarriesOut (body : (e : E) → Program E' R' (R e)) (prog : Program E R α)
    (before : List (Entry E' R')) (entry : Entry E' R') (past : List (Entry E R)) (e : E) : Prop :=
  (∃ next, prog.Reaches past (.call e next)) ∧
    ∃ done current mid, before = done ++ current ∧ Expands body past done ∧
      (body e).Reaches (current ++ [entry]) mid

/-- Each call of an expanded program carries out one of the program. -/
theorem Reaches.carriesOut {body : (e : E) → Program E' R' (R e)} {prog : Program E R α}
    {before since : List (Entry E' R')} {entry : Entry E' R'} {rest : Program E' R' α}
    (h : (prog.expand body).Reaches (before ++ entry :: since) rest) :
    ∃ past e, prog.CarriesOut body before entry past e := by
  induction prog generalizing before with
  | ret a =>
      generalize htrace : before ++ entry :: since = trace at h
      obtain ⟨⟩ := h
      simp at htrace
  | call e next ih =>
      rcases h.of_bind with ⟨mid, hmid⟩ | ⟨first, r, second, rfl, hfirst, hsecond⟩
      · exact ⟨[], e, ⟨next, .refl _⟩, [], before, mid, rfl, .nil, hmid⟩
      · obtain ⟨past, e', ⟨next', hpast⟩, done, current, mid, rfl, hdone, hcurrent⟩ := ih r hsecond
        refine ⟨⟨e, r⟩ :: past, e', ⟨next', .call r hpast⟩, first ++ done, current, mid, ?_,
          .cons hfirst hdone, hcurrent⟩
        exact (List.append_assoc _ _ _).symm

/-- It is one that the body of `e` can make. -/
theorem CarriesOut.calls {body : (e : E) → Program E' R' (R e)} {prog : Program E R α}
    {before : List (Entry E' R')} {entry : Entry E' R'} {past : List (Entry E R)} {e : E}
    {p : E' → Prop} (h : prog.CarriesOut body before entry past e) (hbody : (body e).Calls p) :
    p entry.call := by
  obtain ⟨-, done, current, mid, -, -, hcurrent⟩ := h
  exact hbody.reaches hcurrent entry (List.mem_append_right _ List.mem_cons_self)

end Program

-- ============================================================================
-- Protocols
-- ============================================================================

/-- Which calls are in order in a state, and the state after the answer. -/
structure Protocol (E : Type) (R : E → Type) (σ : Type) where
  allows : σ → E → Prop
  next : σ → (e : E) → R e → σ

namespace Protocol

variable {P : Protocol E R σ} {s : σ} {trace : List (Entry E R)}

/-- The state after a trace. -/
def after (P : Protocol E R σ) : σ → List (Entry E R) → σ
  | s, [] => s
  | s, entry :: trace => P.after (P.next s entry.call entry.answer) trace

/-- Every call of the trace is in order when it is made. -/
def Accepts (P : Protocol E R σ) : σ → List (Entry E R) → Prop
  | _, [] => True
  | s, entry :: trace =>
    P.allows s entry.call ∧ P.Accepts (P.next s entry.call entry.answer) trace

theorem Accepts.append_right {before rest : List (Entry E R)} (h : P.Accepts s (before ++ rest)) :
    P.Accepts (P.after s before) rest := by
  induction before generalizing s with
  | nil => exact h
  | cons entry before ih => exact ih h.2

/-- A call in an accepted trace was in order after the calls before it. -/
theorem Accepts.allows_of_append {before rest : List (Entry E R)} {entry : Entry E R}
    (h : P.Accepts s (before ++ entry :: rest)) : P.allows (P.after s before) entry.call :=
  h.append_right.1

/-- The protocol that decides on a call by all that was called before. -/
def history (allowed : List (Entry E R) → E → Prop) : Protocol E R (List (Entry E R)) where
  allows := allowed
  next past e r := past ++ [⟨e, r⟩]

theorem after_history (allowed : List (Entry E R) → E → Prop) (past trace : List (Entry E R)) :
    (history allowed).after past trace = past ++ trace := by
  induction trace generalizing past with
  | nil => exact (List.append_nil past).symm
  | cons entry trace ih =>
      rw [after, ih]
      exact List.append_assoc past [entry] trace

/-- Each call of an accepted trace was allowed by what came before it. -/
theorem Accepts.of_history {allowed : List (Entry E R) → E → Prop} {before since : List (Entry E R)}
    {entry : Entry E R} (h : (history allowed).Accepts [] (before ++ entry :: since)) :
    allowed before entry.call := by
  have hallowed := h.allows_of_append
  rwa [after_history] at hallowed

end Protocol

namespace Program

variable {P : Protocol E R σ} {s : σ} {prog rest : Program E R α} {trace : List (Entry E R)}
  {post : α → σ → Prop}

/-- From the state on, the program makes only calls that are in order, and where it
    returns, its result and the state satisfy `post`. -/
def Keeps (P : Protocol E R σ) (post : α → σ → Prop) : Program E R α → σ → Prop
  | .ret a, s => post a s
  | .call e next, s => P.allows s e ∧ ∀ r, (next r).Keeps P post (P.next s e r)

/-- A sequence keeps to the protocol if its first part does and ends where the second
    part can take over. -/
theorem keeps_bind (prog : Program E R α) (f : α → Program E R β) {post : β → σ → Prop} :
    (prog >>= f).Keeps P post s ↔ prog.Keeps P (fun a t => (f a).Keeps P post t) s := by
  induction prog generalizing s with
  | ret a => exact Iff.rfl
  | call e next ih => exact and_congr_right fun _ => forall_congr' fun r => ih r

theorem keeps_perform_bind (e : E) (f : R e → Program E R α) :
    (perform e >>= f).Keeps P post s ↔ P.allows s e ∧ ∀ r, (f r).Keeps P post (P.next s e r) :=
  Iff.rfl

theorem Keeps.mono {post' : α → σ → Prop} (h : prog.Keeps P post s)
    (hpost : ∀ a t, post a t → post' a t) : prog.Keeps P post' s := by
  induction prog generalizing s with
  | ret a => exact hpost a s h
  | call e next ih => exact ⟨h.1, fun r => ih r (h.2 r)⟩

/-- A program whose calls are in order wherever `inv` holds, and keep `inv`. -/
theorem Calls.keeps {p : E → Prop} (inv : σ → Prop) (hallows : ∀ s e, inv s → p e → P.allows s e)
    (hnext : ∀ s e r, inv s → p e → inv (P.next s e r)) (h : prog.Calls p) (hs : inv s) :
    prog.Keeps P (fun _ => inv) s := by
  induction prog generalizing s with
  | ret a => exact hs
  | call e next ih =>
      exact ⟨hallows s e hs h.1, fun r => ih r (h.2 r) (hnext s e r hs h.1)⟩

/-- Bodies that keep to the protocol where `inv` holds, and keep `inv`. -/
theorem Keeps.expand {P : Protocol E' R' σ} {body : (e : E) → Program E' R' (R e)} (inv : σ → Prop)
    (hbody : ∀ e s, inv s → (body e).Keeps P (fun _ => inv) s) (prog : Program E R α)
    (hs : inv s) : (prog.expand body).Keeps P (fun _ => inv) s := by
  induction prog generalizing s with
  | ret a => exact hs
  | call e next ih =>
      exact (keeps_bind _ _).mpr ((hbody e s hs).mono fun r t ht => ih r ht)

/-- A trace of a program that keeps to the protocol is accepted, and what is left of
    the program keeps to it from there on. -/
theorem Keeps.reaches (h : prog.Keeps P post s) (htrace : prog.Reaches trace rest) :
    P.Accepts s trace ∧ rest.Keeps P post (P.after s trace) := by
  induction htrace generalizing s with
  | refl prog => exact ⟨trivial, h⟩
  | call r _ ih => exact ⟨⟨h.1, (ih (h.2 r)).1⟩, (ih (h.2 r)).2⟩

theorem Keeps.accepts (h : prog.Keeps P post s) (htrace : prog.Reaches trace rest) :
    P.Accepts s trace := (h.reaches htrace).1

/-- What holds where a program that keeps to the protocol has returned. -/
theorem Keeps.returns {a : α} (h : prog.Keeps P post s) (htrace : prog.Reaches trace (.ret a)) :
    post a (P.after s trace) := (h.reaches htrace).2

/-- A program only adds to the history. -/
theorem Keeps.history_grows {allowed : List (Entry E R) → E → Prop} {past : List (Entry E R)}
    {post : α → List (Entry E R) → Prop} (h : prog.Keeps (.history allowed) post past) :
    prog.Keeps (.history allowed) (fun a p => past <+: p ∧ post a p) past := by
  induction prog generalizing past with
  | ret a => exact ⟨List.prefix_refl past, h⟩
  | call e next ih =>
      refine ⟨h.1, fun r => (ih r (h.2 r)).mono fun a p hp => ?_⟩
      exact ⟨(List.prefix_append past _).trans hp.1, hp.2⟩

/-- A sequence, whose second part finds all that the first part has called. -/
theorem Keeps.bind_history {allowed : List (Entry E R) → E → Prop} {past : List (Entry E R)}
    {f : α → Program E R β} {mid : α → List (Entry E R) → Prop}
    {post : β → List (Entry E R) → Prop} (h : prog.Keeps (.history allowed) mid past)
    (hf : ∀ a p, past <+: p → mid a p → (f a).Keeps (.history allowed) post p) :
    (prog >>= f).Keeps (.history allowed) post past :=
  (keeps_bind _ _).mpr (h.history_grows.mono fun a p hp => hf a p hp.1 hp.2)

/-- What the protocol asks for before every call, and the program ensures at its end,
    holds at every moment. -/
theorem Keeps.always {inv : σ → Prop} (hallows : ∀ s e, P.allows s e → inv s)
    (hpost : ∀ a s, post a s → inv s) (h : prog.Keeps P post s)
    (htrace : prog.Reaches trace rest) : inv (P.after s trace) := by
  have hrest := (h.reaches htrace).2
  cases rest with
  | ret a => exact hpost a _ hrest
  | call e next => exact hallows _ e hrest.1

end Program

end Effects

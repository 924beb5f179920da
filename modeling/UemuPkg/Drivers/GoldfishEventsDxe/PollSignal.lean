/-
  UemuPkg.Drivers.GoldfishEventsDxe.PollSignal

  When a poll signals `KeyNotifyProcessEvent`.  The local `HaveNotify` is set where a press
  is buffered and nowhere else, so it starts with whatever the stack holds: after a poll
  without a press the event is signalled, or not, by chance.
-/

import UemuPkg.Drivers.GoldfishEventsDxe.KeyNotify
import UemuPkg.Drivers.GoldfishEventsDxe.Keystrokes

namespace UemuPkg

-- ============================================================================
-- HaveNotify
-- ============================================================================

/-- `PollKeyboard` on a stack that holds `content` in the place of `HaveNotify`, a
    `BOOLEAN`.  The code asks of it only whether it is `FALSE`. -/
def pollKeyboardFrom (dev : GoldfishEventsDev) (content : UINT8) (fifo : List UINT32) :
    PollResult :=
  pollKeyboard dev (content != 0) fifo

/-- A record sets `HaveNotify` if it is a press with a key. -/
theorem pollRecord_haveNotify (dev : GoldfishEventsDev) (type code value : UINT32) :
    (pollRecord dev type code value).2 = (pressOf dev.toModifiers type code value).isSome := by
  rw [pollRecord_eq, pressOf]
  by_cases htype : type = EV_KEY
  · rw [if_neg (not_not_intro htype), if_neg (not_not_intro htype)]
    dsimp only
    by_cases hkey : (convertKeyCode dev.toModifiers (code.setWidth 16) (value == 1)).2 = .null
    · rw [if_pos hkey, if_pos ((EfiInputKey.eq_null_iff _).mp hkey)]
      rfl
    · rw [if_neg hkey, if_neg (mt (EfiInputKey.eq_null_iff _).mpr hkey)]
      rfl
  · rw [if_pos htype, if_pos htype]
    rfl

/-- The loop keeps `HaveNotify`, and sets it if it dequeues a press. -/
theorem pollLoop_haveNotify (dev : GoldfishEventsDev) (haveNotify : Bool) (fifo : List UINT32) :
    (pollLoop dev haveNotify fifo).2.1 = true ↔ haveNotify = true ∨ pollPresses dev fifo ≠ [] := by
  have hone : ∀ dev type code value, (pollRecord dev type code value).2 = true ↔
      (pressOf dev.toModifiers type code value).toList ≠ [] := by
    intro dev type code value
    rw [pollRecord_haveNotify]
    cases pressOf dev.toModifiers type code value with
    | none => decide
    | some p => exact iff_of_true rfl (List.cons_ne_nil p [])
  have hstop : ∀ b : Bool, b = true ↔ b = true ∨ ([] : List Press) ≠ [] := by
    intro b
    simp only [ne_eq, not_true_eq_false, or_false]
  fun_induction pollLoop dev haveNotify fifo with
  | case1 dev haveNotify => exact hstop haveNotify
  | case2 dev haveNotify => exact hstop haveNotify
  | case3 dev haveNotify type hne polled =>
      rw [pollPresses, if_neg hne, Bool.or_eq_true, hone]
  | case4 dev haveNotify code => exact hstop haveNotify
  | case5 dev haveNotify type code hne polled =>
      rw [pollPresses, if_neg hne, Bool.or_eq_true, hone]
  | case6 dev haveNotify code value rest => exact hstop haveNotify
  | case7 dev haveNotify type code value rest hne polled ih =>
      refine ih.trans ?_
      rw [pollPresses, if_neg hne, Bool.or_eq_true, hone, or_assoc, ne_eq, ne_eq, ne_eq,
        List.append_eq_nil_iff, not_and_or]

/-- Nothing else depends on `HaveNotify`. -/
theorem pollLoop_dev (dev : GoldfishEventsDev) (a b : Bool) (fifo : List UINT32) :
    (pollLoop dev a fifo).1 = (pollLoop dev b fifo).1 ∧
      (pollLoop dev a fifo).2.2 = (pollLoop dev b fifo).2.2 := by
  fun_induction pollLoop dev a fifo generalizing b with
  | case1 dev a => exact ⟨rfl, rfl⟩
  | case2 dev a => exact ⟨rfl, rfl⟩
  | case3 dev a type hne polled =>
      rw [pollLoop, if_neg hne]
      exact ⟨rfl, rfl⟩
  | case4 dev a code => exact ⟨rfl, rfl⟩
  | case5 dev a type code hne polled =>
      rw [pollLoop, if_neg hne]
      exact ⟨rfl, rfl⟩
  | case6 dev a code value rest => exact ⟨rfl, rfl⟩
  | case7 dev a type code value rest hne polled ih =>
      rw [pollLoop.eq_4, if_neg hne]
      exact ih _

-- ============================================================================
-- The signal
-- ============================================================================

/-- The event is signalled exactly if the call has dequeued a press with a key, and there
    is a registration. -/
def SignalsExactly (dev : GoldfishEventsDev) (content : UINT8) (fifo : List UINT32) : Prop :=
  (pollKeyboardFrom dev content fifo).signalled = true ↔
    pollPresses dev fifo ≠ [] ∧ dev.notifyList ≠ []

/-- What a call signals. -/
theorem pollKeyboardFrom_signalled (dev : GoldfishEventsDev) (content : UINT8)
    (fifo : List UINT32) :
    (pollKeyboardFrom dev content fifo).signalled = true ↔
      (content ≠ 0 ∨ pollPresses dev fifo ≠ []) ∧ dev.notifyList ≠ [] := by
  show ((pollLoop dev (content != 0) fifo).2.1 &&
    !(pollLoop dev (content != 0) fifo).1.notifyList.isEmpty) = true ↔ _
  rw [Bool.and_eq_true, pollLoop_haveNotify, pollLoop_notifyList, bne_iff_ne, Bool.not_eq_true',
    List.isEmpty_eq_false_iff]

/-- All that a call does, apart from the signal, it does on any stack. -/
theorem pollKeyboardFrom_eq_iff (dev : GoldfishEventsDev) (a b : UINT8) (fifo : List UINT32) :
    pollKeyboardFrom dev a fifo = pollKeyboardFrom dev b fifo ↔
      ((pollKeyboardFrom dev a fifo).signalled = true ↔
        (pollKeyboardFrom dev b fifo).signalled = true) := by
  obtain ⟨hdev, hfifo⟩ := pollLoop_dev dev (a != 0) (b != 0) fifo
  rw [← Bool.eq_iff_iff]
  constructor
  · intro h
    rw [h]
  · intro hsignalled
    show PollResult.mk (pollLoop dev (a != 0) fifo).1 (pollLoop dev (a != 0) fifo).2.2
      (pollKeyboardFrom dev a fifo).signalled = _
    rw [hsignalled, hdev, hfifo]
    rfl

/-- `PollKeyboard` signals as it should exactly if its local happens to be `FALSE`, or a
    press with a key sets it, or nobody is registered; and two calls that differ in the
    stack only have the same effects exactly if both or none start with `FALSE`, or one of
    the other two holds. -/
theorem pollKeyboard_signals_iff (dev : GoldfishEventsDev) (fifo : List UINT32) :
    (∀ content, SignalsExactly dev content fifo ↔
      content = 0 ∨ pollPresses dev fifo ≠ [] ∨ dev.notifyList = []) ∧
    ∀ a b, pollKeyboardFrom dev a fifo = pollKeyboardFrom dev b fifo ↔
      (a = 0 ↔ b = 0) ∨ pollPresses dev fifo ≠ [] ∨ dev.notifyList = [] := by
  constructor
  · intro content
    rw [SignalsExactly, pollKeyboardFrom_signalled]
    tauto
  · intro a b
    rw [pollKeyboardFrom_eq_iff, pollKeyboardFrom_signalled, pollKeyboardFrom_signalled]
    tauto

/-- A registered escape key and no event: the call signals on a stack that holds 1, and does
    not on one that holds 0. -/
theorem pollKeyboard_signals_nothing :
    ∃ dev : GoldfishEventsDev, dev.notifyList ≠ [] ∧ pollPresses dev [] = [] ∧
      (pollKeyboardFrom dev 1 []).signalled = true ∧ ¬ SignalsExactly dev 1 [] ∧
      (pollKeyboardFrom dev 0 []).signalled = false ∧
      pollKeyboardFrom dev 1 [] ≠ pollKeyboardFrom dev 0 [] := by
  let dev : GoldfishEventsDev :=
    { idleDev with notifyList := [⟨0x1000, ⟨⟨SCAN_ESC, CHAR_NULL⟩, ⟨0, 0⟩⟩, 0x10⟩] }
  have hlist : dev.notifyList ≠ [] := List.cons_ne_nil _ _
  refine ⟨dev, hlist, rfl, rfl, ?_, rfl, ?_⟩
  · intro h
    exact (h.mp rfl).1 rfl
  · intro h
    have hsignalled := congrArg PollResult.signalled h
    exact Bool.noConfusion hsignalled

end UemuPkg

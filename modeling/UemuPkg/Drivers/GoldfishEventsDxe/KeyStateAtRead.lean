/-
  UemuPkg.Drivers.GoldfishEventsDxe.KeyStateAtRead

  The two deliveries of a press.  `PollKeyboard` stores the modifier state of the press
  in the notify queue; `ReadKeyStrokeEx` takes the modifier state of the read.  They
  agree exactly if the flags at the read are those of the press.
-/

import UemuPkg.Drivers.GoldfishEventsDxe.KeystrokeHistory

namespace UemuPkg

open Run (run AllSteps)

/-- The last press of the epoch; a key that waits is its key. -/
def KeystrokeState.lastPress (s : KeystrokeState) : Option Press :=
  (pressesIn s.epoch).getLast?

/-- The key data that `ReadKeyStrokeEx` returns is what the poll stored for the press. -/
def SameKeystroke (s : KeystrokeState) : KeystrokeAction → Prop
  | .readKeyStrokeEx keyData => ∀ dev returned,
      readKeyStrokeEx s.dev keyData = (.success, dev, some returned) →
        ∃ p, s.lastPress = some p ∧ s.dev.notifyKeyData = p.keyData ∧ returned = p.keyData
  | _ => True

/-- When `ReadKeyStrokeEx` finds a key, the modifier flags are those of its press. -/
def FlagsAsPressed (s : KeystrokeState) : KeystrokeAction → Prop
  | .readKeyStrokeEx keyData => keyData.isSome = true → s.dev.keyReady = true →
      ∀ p, s.lastPress = some p → s.dev.toModifiers = p.modifiers
  | _ => True

/-- The key state tells the flags. -/
theorem buildKeyState_inj {m m' : Modifiers} : buildKeyState m = buildKeyState m' ↔ m = m' := by
  refine ⟨?_, fun h => h ▸ rfl⟩
  obtain ⟨shift, ctrl, alt⟩ := m
  obtain ⟨shift', ctrl', alt'⟩ := m'
  revert shift ctrl alt shift' ctrl' alt'
  decide

theorem sameKeystroke_iff {s : KeystrokeState} (h : s.Sound) (action : KeystrokeAction) :
    SameKeystroke s action ↔ FlagsAsPressed s action := by
  cases action with
  | readKeyStrokeEx keyData =>
      rw [SameKeystroke, FlagsAsPressed]
      rcases readKeyStrokeEx_cases s.dev keyData with
        ⟨hready, hsome, hread⟩ | ⟨hnot, status, hstatus, hread⟩
      · obtain ⟨p, hlast, hkey, hnotify⟩ := h.follows.last hready
        have hpress : s.lastPress = some p := hlast
        have hreturned : (⟨s.dev.key, buildKeyState s.dev.toModifiers⟩ : EfiKeyData) = p.keyData
            ↔ s.dev.toModifiers = p.modifiers := by
          rw [Press.keyData, EfiKeyData.mk.injEq, buildKeyState_inj]
          exact and_iff_right hkey
        refine ⟨?_, ?_⟩
        · intro hsame _ _ q hq
          obtain ⟨q', hq', -, hdata⟩ := hsame _ _ hread
          obtain rfl := Option.some.inj (hpress.symm.trans hq)
          obtain rfl := Option.some.inj (hpress.symm.trans hq')
          exact hreturned.mp hdata
        · intro hflags dev returned hreturn
          rw [hread] at hreturn
          obtain ⟨-, hreturn⟩ := Prod.mk.inj hreturn
          obtain ⟨-, hdata⟩ := Prod.mk.inj hreturn
          refine ⟨p, hpress, hnotify, ?_⟩
          rw [← Option.some.inj hdata]
          exact hreturned.mpr (hflags hsome hready p hpress)
      · refine iff_of_true ?_ ?_
        · intro dev returned hreturn
          rw [hread] at hreturn
          exact absurd (Prod.mk.inj hreturn).1 hstatus
        · intro hsome hready
          rw [hnot hsome] at hready
          cases hready
  | arrive words => exact Iff.rfl
  | poll haveNotify => exact Iff.rfl
  | readKeyStroke key => exact Iff.rfl
  | reset => exact Iff.rfl
  | registerKeyNotify keyData fn notifyHandle newNotify => exact Iff.rfl
  | unregisterKeyNotify handle => exact Iff.rfl
  | dispatch => exact Iff.rfl

/-- In every run from initialisation, `ReadKeyStrokeEx` returns of each press what
    `PollKeyboard` stored of it exactly if the modifier flags are those of the press
    whenever it finds a key. -/
theorem sameKeystroke_always_iff {actions : List KeystrokeAction} {s : KeystrokeState}
    (hrun : run KeystrokeState.step .initial actions = some s) :
    AllSteps KeystrokeState.step SameKeystroke .initial actions ↔
      AllSteps KeystrokeState.step FlagsAsPressed .initial actions :=
  Run.allSteps_congr KeystrokeState.Sound (fun _ _ _ h _ hstep => h.step hstep)
    (fun _ action _ h _ _ => sameKeystroke_iff h action)
    hrun (Run.allSteps_true _ _) .initial

/-- The `a` key, read before any other event. -/
theorem sameKeystroke_always_iff_one_key :
    AllSteps KeystrokeState.step SameKeystroke .initial
        [.arrive [1, 30, 1], .poll false, .readKeyStrokeEx (some ⟨.null, ⟨0, 0⟩⟩)] ↔
      AllSteps KeystrokeState.step FlagsAsPressed .initial
        [.arrive [1, 30, 1], .poll false, .readKeyStrokeEx (some ⟨.null, ⟨0, 0⟩⟩)] := by
  have hrun : run KeystrokeState.step .initial
      [.arrive [1, 30, 1], .poll false, .readKeyStrokeEx (some ⟨.null, ⟨0, 0⟩⟩)] = some _ := rfl
  exact sameKeystroke_always_iff hrun

/-- Shift and `a` go down, shift comes up, and then the key is read: the poll has
    stored `A` with the shift state, and the read returns `A` without it. -/
theorem shift_released_before_read :
    ∃ s dev returned, run KeystrokeState.step .initial
        [.arrive [1, 42, 1, 1, 30, 1, 1, 42, 0], .poll false] = some s ∧
      readKeyStrokeEx s.dev (some ⟨.null, ⟨0, 0⟩⟩) = (.success, dev, some returned) ∧
      s.dev.notifyKeyData.key = returned.key ∧
      s.dev.notifyKeyData.keyState.keyShiftState = 0x80000003 ∧
      returned.keyState.keyShiftState = 0x80000000 ∧
      ¬ SameKeystroke s (.readKeyStrokeEx (some ⟨.null, ⟨0, 0⟩⟩)) := by
  refine ⟨_, _, _, rfl, rfl, rfl, rfl, rfl, ?_⟩
  intro hsame
  obtain ⟨p, hp, -, hreturned⟩ := hsame _ _ rfl
  obtain rfl := Option.some.inj hp
  exact absurd hreturned (by decide)

end UemuPkg

/-
  UemuPkg.Generic.Mailbox

  A mailbox with room for one message.  A message that is put in replaces the one that
  is there; taking it out and clearing the box leave it empty.  The content is known
  from the last event alone, and each message is taken, or lost, or still there.
-/

import Mathlib.Data.List.Basic
import Mathlib.Data.List.Induction

namespace Mailbox

variable {α : Type*}

inductive Event (α : Type*) where
  | put (a : α)
  | take
  | clear

/-- A mailbox, the messages taken from it, and those replaced or cleared before they
    were taken. -/
structure Box (α : Type*) where
  content : Option α
  taken : List α
  lost : List α

def Box.empty : Box α where
  content := none
  taken := []
  lost := []

def Box.next (box : Box α) : Event α → Box α
  | .put a => { box with content := some a, lost := box.lost ++ box.content.toList }
  | .take => { box with content := none, taken := box.taken ++ box.content.toList }
  | .clear => { box with content := none, lost := box.lost ++ box.content.toList }

/-- The mailbox after some events. -/
def after (events : List (Event α)) : Box α := events.foldl Box.next .empty

/-- The messages that were put in. -/
def puts (events : List (Event α)) : List α :=
  events.filterMap fun
    | .put a => some a
    | _ => none

/-- The message that the last event has put in. -/
def lastPut (events : List (Event α)) : Option α :=
  match events.getLast? with
  | some (.put a) => some a
  | _ => none

variable {events : List (Event α)}

@[simp] theorem after_nil : after ([] : List (Event α)) = .empty := rfl

@[simp] theorem after_concat (events : List (Event α)) (event : Event α) :
    after (events ++ [event]) = (after events).next event := by
  simp [after]

@[simp] theorem puts_nil : puts ([] : List (Event α)) = [] := rfl

@[simp] theorem puts_put (a : α) : puts [.put a] = [a] := rfl
@[simp] theorem puts_take : puts [(.take : Event α)] = [] := rfl
@[simp] theorem puts_clear : puts [(.clear : Event α)] = [] := rfl

@[simp] theorem puts_append (xs ys : List (Event α)) : puts (xs ++ ys) = puts xs ++ puts ys :=
  List.filterMap_append

/-- Only the last event counts. -/
theorem content_after (events : List (Event α)) : (after events).content = lastPut events := by
  rcases List.eq_nil_or_concat' events with rfl | ⟨before, event, rfl⟩
  · rfl
  · cases event <;> simp [lastPut, Box.next]

/-- Every message is in one place. -/
theorem puts_perm (events : List (Event α)) :
    (puts events).Perm
      ((after events).taken ++ (after events).lost ++ (after events).content.toList) := by
  induction events using List.reverseRecOn with
  | nil => exact List.Perm.refl _
  | append_singleton events event ih =>
      rw [after_concat, puts_append]
      cases event with
      | put a =>
          show (puts events ++ [a]).Perm _
          simp only [Box.next, Option.toList_some, ← List.append_assoc]
          exact ih.append_right [a]
      | take =>
          show (puts events ++ []).Perm _
          simp only [Box.next, Option.toList_none, List.append_nil]
          refine ih.trans ?_
          rw [List.append_assoc, List.append_assoc]
          exact List.perm_append_comm.append_left _
      | clear =>
          show (puts events ++ []).Perm _
          simp only [Box.next, Option.toList_none, List.append_nil, ← List.append_assoc]
          exact ih

end Mailbox

import Mathlib.Logic.Function.Basic

/-!
# Queues in front of a broadcast channel

Every node puts items into a queue of its own; its publisher takes them out one at a time
and hands each to a channel that brings it to every node, to all in one order. An item can
fail to be published, and a message can be lost on its way to one node. `way` lists what
is still on its way from one node to another: it grows at its end, and every other
operation leaves a sublist of it.
-/

structure Bus (ι α : Type) where
  queue : ι → List α := fun _ => []
  held : ι → Option α := fun _ => none
  inbox : ι → List (ι × α) := fun _ => []

namespace Bus

variable {ι α : Type} [DecidableEq ι]

def push (bus : Bus ι α) (node : ι) (item : α) : Bus ι α :=
  { bus with queue := Function.update bus.queue node (bus.queue node ++ [item]) }

def take (bus : Bus ι α) (node : ι) : Option (Bus ι α) :=
  match bus.held node, bus.queue node with
  | none, item :: rest =>
    some { bus with
      held := Function.update bus.held node (some item)
      queue := Function.update bus.queue node rest }
  | _, _ => none

/-- The publisher is done with its item, which the channel took or not. -/
def publish (bus : Bus ι α) (node : ι) (taken : Bool) : Option (Bus ι α) :=
  match bus.held node with
  | some item =>
    some { bus with
      held := Function.update bus.held node none
      inbox := if taken then fun other => bus.inbox other ++ [(node, item)] else bus.inbox }
  | none => none

def next (bus : Bus ι α) (node : ι) : Option ((ι × α) × Bus ι α) :=
  match bus.inbox node with
  | [] => none
  | message :: rest => some (message, { bus with inbox := Function.update bus.inbox node rest })

def way (bus : Bus ι α) (receiver sender : ι) : List α :=
  ((bus.inbox receiver).filter (·.1 = sender)).map Prod.snd ++
    ((bus.held sender).toList ++ bus.queue sender)

theorem way_push (bus : Bus ι α) (node : ι) (item : α) (receiver sender : ι) :
    (bus.push node item).way receiver sender =
      if sender = node then bus.way receiver sender ++ [item] else bus.way receiver sender := by
  by_cases same : sender = node
  · subst same
    simp [way, push]
  · simp [way, push, same]

variable {bus after : Bus ι α} {node : ι}

theorem way_take (taken : bus.take node = some after) (receiver sender : ι) :
    after.way receiver sender = bus.way receiver sender := by
  unfold take at taken
  split at taken <;> cases taken
  rename_i item rest idle queued
  by_cases same : sender = node
  · subst same
    simp [way, idle, queued]
  · simp [way, same]

theorem way_publish {taken : Bool} (published : bus.publish node taken = some after)
    (receiver sender : ι) : (after.way receiver sender).Sublist (bus.way receiver sender) := by
  unfold publish at published
  split at published <;> cases published
  rename_i item held
  by_cases same : sender = node
  · subst same
    cases taken <;> simp [way, held]
  · have other : ¬ node = sender := Ne.symm same
    cases taken <;> simp [way, same, other]

theorem way_next {message : ι × α} (taken : bus.next node = some (message, after))
    (receiver sender : ι) : bus.way receiver sender =
      if receiver = node ∧ sender = message.1 then message.2 :: after.way receiver sender
      else after.way receiver sender := by
  unfold next at taken
  split at taken
  · contradiction
  · rename_i first rest inbox
    cases taken
    by_cases here : receiver = node
    · subst here
      by_cases from_ : sender = message.1
      · subst from_
        simp [way, inbox]
      · have other : ¬ message.1 = sender := Ne.symm from_
        simp [way, inbox, from_, other]
    · simp [way, here]

theorem way_next_sublist {message : ι × α} (taken : bus.next node = some (message, after))
    (receiver sender : ι) : (after.way receiver sender).Sublist (bus.way receiver sender) := by
  rw [way_next taken receiver sender]
  split
  · exact List.sublist_cons_self _ _
  · exact List.Sublist.refl _

end Bus

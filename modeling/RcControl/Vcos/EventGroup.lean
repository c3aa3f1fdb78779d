import RcControl.Vcos.EventFlags

namespace RcControl.Vcos

open RcControl.Data

/-! What event flags are for: clients raise events, and wait for events, each in one step.

A client that waits is answered by the step that raises its events, or when its time is over, if
its time is limited. -/

variable {Id : Type*} {width : Nat}

/-- Any of the events or all of them, to be left or to be taken away. -/
structure Request (width : Nat) where
  events : BitVec width
  all : Bool
  consume : Bool
deriving DecidableEq

inductive Change (width : Nat) where
  | raise (mask : BitVec width)
  | keep (mask : BitVec width)
deriving DecidableEq

inductive Asked (width : Nat) where
  | change (change : Change width)
  | await (request : Request width) (wait limited : Bool)
deriving DecidableEq

inductive Answered (width : Nat) where
  | done
  | events (events : BitVec width)
  | late
deriving DecidableEq

inductive Client (width : Nat) where
  | idle
  | asked (asked : Asked width)
  | waiting (limited : Bool)
  | answered (answered : Answered width)
deriving DecidableEq

structure Group (Id : Type*) (width : Nat) where
  events : BitVec width
  waiting : List (Id × Request width)
  client : Id → Client width

inductive Action (Id : Type*) (width : Nat) where
  | call (id : Id) (asked : Asked width)
  /-- What a client asked for takes effect. -/
  | act (id : Id)
  | expire (id : Id)
  | reply (id : Id)

def Request.met (request : Request width) (events : BitVec width) : Bool :=
  if request.all then events &&& request.events == request.events else events &&& request.events != 0

/-- The events that are taken away when the request is met. -/
def Request.takes (request : Request width) : BitVec width :=
  if request.consume then request.events else 0

def Change.apply : Change width → BitVec width → BitVec width
  | .raise mask, events => events ||| mask
  | .keep mask, events => events &&& mask

def unionOf (masks : List (BitVec width)) : BitVec width := masks.foldr (· ||| ·) 0

namespace Group

def initial (Id : Type*) (width : Nat) : Group Id width where
  events := 0
  waiting := []
  client _ := .idle

variable [DecidableEq Id] (group : Group Id width) (id : Id)

def setClient (client : Client width) : Group Id width :=
  { group with client := Function.update group.client id client }

/-- All who are met by the events are answered, and what they take goes. -/
def release (events : BitVec width) : Group Id width :=
  let met := group.waiting.filter fun waiter => waiter.2.met events
  { events := events &&& ~~~unionOf (met.map fun waiter => waiter.2.takes)
    waiting := group.waiting.filter fun waiter => !waiter.2.met events
    client := fun id => if id ∈ met.map Prod.fst then .answered (.events events) else group.client id }

def act : Group Id width :=
  match group.client id with
  | .asked (.change change) =>
      (group.release (change.apply group.events)).setClient id (.answered .done)
  | .asked (.await request wait limited) =>
      if request.met group.events then
        { group.setClient id (.answered (.events group.events)) with
          events := group.events &&& ~~~request.takes }
      else if wait then
        { group.setClient id (.waiting limited) with waiting := group.waiting ++ [(id, request)] }
      else group.setClient id (.answered .late)
  | _ => group

def expire : Group Id width :=
  if group.client id = .waiting true then
    { group.setClient id (.answered .late) with
      waiting := group.waiting.filter fun waiter => decide (waiter.1 ≠ id) }
  else group

def next : Action Id width → Group Id width
  | .call id asked => if group.client id = .idle then group.setClient id (.asked asked) else group
  | .act id => group.act id
  | .expire id => group.expire id
  | .reply id =>
      match group.client id with
      | .answered _ => group.setClient id .idle
      | _ => group

def emit : Action Id width → Option (Observed Id (Asked width) (Answered width))
  | .call id asked => if group.client id = .idle then some (.called id asked) else none
  | .act _ | .expire _ => none
  | .reply id =>
      match group.client id with
      | .answered answered => some (.returned id answered)
      | _ => none

end Group

def eventGroup (Id : Type*) (width : Nat) [DecidableEq Id] :
    Machine (Group Id width) (Action Id width) (Option (Observed Id (Asked width) (Answered width))) where
  next := Group.next
  emit := Group.emit

section Requests

variable {request : Request width} {events mask : BitVec width}

/-- Fewer events meet no more requests. -/
theorem Request.met_and (unmet : request.met events = false) (mask : BitVec width) :
    request.met (events &&& mask) = false := by
  simp only [Request.met] at unmet ⊢
  split at unmet
  · rename_i all
    rw [if_pos all]
    refine beq_false_of_ne fun same => ?_
    have whole : events &&& request.events = request.events := by
      calc events &&& request.events
          = events &&& (events &&& mask &&& request.events) := by rw [same]
        _ = events &&& mask &&& request.events := by
            rw [BitVec.and_assoc events mask, ← BitVec.and_assoc events events, BitVec.and_self]
        _ = request.events := same
    rw [whole, beq_self_eq_true] at unmet
    cases unmet
  · rename_i any
    have none : events &&& request.events = 0 := by simpa using unmet
    rw [if_neg any, BitVec.and_assoc, BitVec.and_comm mask, ← BitVec.and_assoc, none]
    simp

end Requests

end RcControl.Vcos

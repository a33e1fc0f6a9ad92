/-
**Subscriptions.**

A bus knows the subscriptions in the order in which they were made, each for one kind of event. Its
numbers are never given twice, not even after all subscriptions are gone.
-/

import Reorg.Bus.Event

namespace Reorg

/-- The number of a subscription. -/
abbrev SubscriptionId := Nat

/-- A subscription to the events of one kind. -/
structure Subscription where
  id : SubscriptionId
  kind : EventKind
deriving DecidableEq

/-- The subscriptions, and the number of the next one. -/
structure Bus where
  nextId : SubscriptionId
  subscriptions : List Subscription
deriving DecidableEq

namespace Bus

/-- The bus that nobody has subscribed on. -/
def initial : Bus := ⟨0, []⟩

/-- Gives the next identifier to a subscription to a kind of event. -/
def subscribe (bus : Bus) (kind : EventKind) : SubscriptionId × Bus :=
  (bus.nextId, ⟨bus.nextId + 1, bus.subscriptions ++ [⟨bus.nextId, kind⟩]⟩)

/-- Ends a subscription, and says whether there was one. -/
def unsubscribe (bus : Bus) (id : SubscriptionId) : Bool × Bus :=
  (bus.subscriptions.any fun subscription => subscription.id == id,
    { bus with
      subscriptions := bus.subscriptions.filter fun subscription => subscription.id != id })

/-- Ends all subscriptions. -/
def unsubscribeAll (bus : Bus) : Bus := { bus with subscriptions := [] }

/-- The subscriptions to events of a kind, in the order in which they were made. -/
def subscribers (bus : Bus) (kind : EventKind) : List SubscriptionId :=
  (bus.subscriptions.filter fun subscription => subscription.kind == kind).map Subscription.id

/-- The number of subscriptions to events of a kind. -/
def count (bus : Bus) (kind : EventKind) : Nat := (bus.subscribers kind).length

/-- The numbers of subscriptions to each kind of event, as a text. -/
def summary (bus : Bus) : String :=
  "\x7b" ++ ", ".intercalate (EventKind.all.map fun kind =>
    kind.name ++ s!": {bus.count kind}") ++ "\x7d"

end Bus

/-- The text that names a subscription. -/
def SubscriptionId.text (id : SubscriptionId) : String := s!"sub-{id}"

end Reorg

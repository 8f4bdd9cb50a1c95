import SkillEngine.Ident

/-!
# Listener lists

A listener list numbers its subscriptions in order and never gives a number twice. It delivers
events in subscription order; what a listener is, is up to the list's owner.
-/

namespace SkillEngine

/-- Listeners in subscription order, with the number that the next one will get. -/
structure Subscribers (α : Type) where
  /-- The live subscriptions. -/
  entries : List (SubscriptionId × α)
  /-- The next number. -/
  next : Nat
  deriving Inhabited

namespace Subscribers

variable {α : Type}

/-- A list that nobody listens on. -/
def empty : Subscribers α := ⟨[], 0⟩

/-- Adds a listener after the others and tells its number. -/
def subscribe (list : Subscribers α) (listener : α) : SubscriptionId × Subscribers α :=
  (⟨list.next⟩, ⟨list.entries ++ [(⟨list.next⟩, listener)], list.next + 1⟩)

/-- The list without one subscription. -/
def unsubscribe (list : Subscribers α) (id : SubscriptionId) : Subscribers α :=
  { list with entries := list.entries.filter fun entry => entry.1 != id }

/-- The subscription is live. -/
def subscribed (list : Subscribers α) (id : SubscriptionId) : Bool :=
  list.entries.any fun entry => entry.1 == id

/-- The listeners, in the order in which an event reaches them. -/
def listeners (list : Subscribers α) : List α := list.entries.map (·.2)

/-- The list without listeners; numbers given before stay taken. -/
def clear (list : Subscribers α) : Subscribers α := { list with entries := [] }

/-- The number of live subscriptions. -/
def size (list : Subscribers α) : Nat := list.entries.length

/-- Nobody is listening. -/
def isEmpty (list : Subscribers α) : Bool := list.entries.isEmpty

end Subscribers

end SkillEngine

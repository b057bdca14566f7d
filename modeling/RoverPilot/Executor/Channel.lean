/-!
The channel that takes reports to the model.

* `Channel`: a bounded queue of messages with a receiving end;
* `Channel.offer`: a message is taken, refused, or must wait for room;
* `Channel.receive`, `Channel.close`: a message leaves, the receiving end goes.
-/

namespace RoverPilot

/-- A bounded queue of messages. -/
structure Channel where
  /-- How many messages may wait. -/
  capacity : Nat
  /-- The messages that wait, the oldest first. -/
  messages : List (List Char) := []
  /-- Whether the receiving end is gone. -/
  closed : Bool := false
  deriving DecidableEq, Repr

/-- What becomes of a message offered to a channel. -/
inductive Offer where
  | taken (c : Channel)
  | refused
  /-- There is no room yet. -/
  | full
  deriving DecidableEq, Repr

namespace Channel

/-- A channel for as many messages as wanted, but at least one. -/
def withCapacity (n : Nat) : Channel := { capacity := max n 1 }

/-- Whether there is room for another message. -/
def hasRoom (c : Channel) : Bool := decide (c.messages.length < c.capacity)

/-- A message is offered. -/
def offer (c : Channel) (message : List Char) : Offer :=
  if c.closed then .refused
  else if c.hasRoom then .taken { c with messages := c.messages ++ [message] }
  else .full

/-- The oldest message leaves. -/
def receive (c : Channel) : Option (List Char) × Channel :=
  (c.messages.head?, { c with messages := c.messages.tail })

/-- All messages leave. -/
def drain (c : Channel) : List (List Char) × Channel := (c.messages, { c with messages := [] })

/-- The receiving end goes, and the messages that wait are lost. -/
def close (c : Channel) : Channel := { c with messages := [], closed := true }

/-- A taken message waits behind the others. -/
theorem messages_of_offer {c d : Channel} {message : List Char} (h : c.offer message = .taken d) :
    d.messages = c.messages ++ [message] ∧ d.capacity = c.capacity ∧ d.closed = false := by
  rw [offer] at h
  split at h
  · simp at h
  · rename_i hclosed
    split at h
    · simp only [Offer.taken.injEq] at h
      subst h
      exact ⟨rfl, rfl, by simpa using hclosed⟩
    · simp at h

/-- A message is refused exactly when the receiving end is gone. -/
theorem offer_eq_refused_iff {c : Channel} {message : List Char} :
    c.offer message = .refused ↔ c.closed = true := by
  rw [offer]
  split
  · rename_i h
    simp [h]
  · rename_i h
    split <;> simp [h]

end Channel

/-- Why a report was not delivered. -/
inductive DeliveryError where
  | clientClosed
  deriving DecidableEq, Repr

/-- The words for a report that was not delivered. -/
def DeliveryError.message : DeliveryError → String
  | .clientClosed => "Model client closed"

end RoverPilot

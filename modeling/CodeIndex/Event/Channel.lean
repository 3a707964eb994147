import CodeIndex.Fault
import CodeIndex.Json
/-!
# Event channels

A channel takes notices in and hands them out in the same order. Once its receiver is closed no
further notice is taken, but those taken before can still be received.
-/

namespace CodeIndex.Event

/-- An event as it is sent: its name and its payload. -/
structure Notice where
  name : String
  payload : Json

/-- A channel between those who emit and one who receives. -/
structure Channel where
  /-- What was sent and not received, the earliest first. -/
  waiting : List Notice
  /-- The receiver takes no more. -/
  closed : Bool

namespace Channel

/-- A fresh channel. -/
def empty : Channel := ⟨[], false⟩

/-- Sends a notice, unless the receiver is closed. -/
def emit (c : Channel) (n : Notice) : Except Fault Channel :=
  if c.closed then .error (.invalidInput (.receiverDropped n.name))
  else .ok { c with waiting := c.waiting ++ [n] }

/-- The next notice, and the channel without it. -/
def receive (c : Channel) : Option Notice × Channel :=
  (c.waiting.head?, { c with waiting := c.waiting.tail })

/-- Closes the receiver. -/
def close (c : Channel) : Channel := { c with closed := true }

end Channel

end CodeIndex.Event

/-!
# Handoff

One place where a byte changes hands.  A consumer asks for a byte and waits; a
producer's byte is taken only while somebody waits and has not been served.
Closing releases the consumer and refuses everything from then on.
-/

namespace Redstone

structure Handoff where
  /-- Somebody has asked and has not come back yet. -/
  waiting : Bool
  /-- The byte that was accepted for the one who waits. -/
  value : Option UInt8
  closed : Bool
  deriving DecidableEq, Repr

namespace Handoff

def initial : Handoff where
  waiting := false
  value := none
  closed := false

/-- What a consumer sees: it still waits, or it comes back, perhaps with a byte. -/
inductive Reply where
  | pending
  | received (value : Option UInt8)
  deriving DecidableEq, Repr

/-- A consumer asks.  It comes back at once with nothing if the handoff is closed. -/
def ask (handoff : Handoff) : Reply × Handoff :=
  if handoff.closed then (.received none, handoff)
  else (.pending, { handoff with waiting := true, value := none })

/-- The waiting consumer looks again, and comes back if it is served or released. -/
def wake (handoff : Handoff) : Reply × Handoff :=
  if handoff.value.isNone && !handoff.closed then (.pending, handoff)
  else
    (.received handoff.value, { handoff with waiting := false, value := none })

/-- A producer offers a byte; the answer tells whether it was taken. -/
def give (handoff : Handoff) (value : UInt8) : Bool × Handoff :=
  if !handoff.waiting || handoff.closed || handoff.value.isSome then
    (false, handoff)
  else (true, { handoff with value := some value })

/-- Releases the one who waits and refuses everything from then on. -/
def close (handoff : Handoff) : Handoff :=
  { handoff with closed := true }

def isWaiting (handoff : Handoff) : Bool :=
  handoff.waiting && handoff.value.isNone

theorem give_taken_iff (handoff : Handoff) (value : UInt8) :
    (handoff.give value).1 = true ↔
      handoff.isWaiting = true ∧ handoff.closed = false := by
  obtain ⟨waiting, slot, closed⟩ := handoff
  cases waiting <;> cases slot <;> cases closed <;> simp [give, isWaiting]

end Handoff

end Redstone

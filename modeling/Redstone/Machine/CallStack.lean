/-!
# Call stack

Sixteen slots that move together.  A push moves every slot one down, and what
was in the last slot is lost; a pop moves every slot one up, and the last one
becomes zero.  Nothing counts the entries: the stack looks empty when all its
slots are zero.
-/

namespace Redstone

structure CallStack where
  slots : List UInt16
  length_slots : slots.length = 16
  deriving DecidableEq

namespace CallStack

def empty : CallStack where
  slots := List.replicate 16 0
  length_slots := by decide

def looksEmpty (stack : CallStack) : Bool :=
  stack.slots.all (· == 0)

def push (stack : CallStack) (slot : UInt16) : CallStack where
  slots := (slot &&& 0x3ff) :: stack.slots.dropLast
  length_slots := by simp [stack.length_slots]

/-- The entry that a push would lose, if the last slot is occupied. -/
def overflow? (stack : CallStack) : Option UInt16 :=
  stack.slots.getLast?.filter (· != 0)

/-- Removes the newest entry; a stack that looks empty has none. -/
def pop (stack : CallStack) : Option (UInt16 × CallStack) :=
  if stack.looksEmpty then none
  else some (stack.slots.headD 0 &&& 0x3ff,
    { slots := stack.slots.tail ++ [0]
      length_slots := by simp [stack.length_slots] })

example : (empty.push 0x7ff).slots.head? = some 0x3ff := by decide

end CallStack

end Redstone

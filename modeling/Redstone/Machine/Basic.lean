import Redstone.Machine.CallStack
import Redstone.Machine.Event
import Redstone.Machine.Memory
import Redstone.Machine.Registers

/-!
# The machine

Registers, memory, call stack, whether the machine still runs, and the number
of instructions executed so far.
-/

namespace Redstone

inductive RunState where
  | running | halted
  deriving DecidableEq, Repr

def RunState.label : RunState → String
  | running => "Running"
  | halted => "Halted"

structure Machine where
  registers : Registers
  memory : Memory
  stack : CallStack
  state : RunState
  cycles : UInt64
  deriving DecidableEq

namespace Machine

def initial : Machine where
  registers := .initial
  memory := .empty
  stack := .empty
  state := .running
  cycles := 0

def atEnd (machine : Machine) : Bool :=
  Memory.slotCount ≤ machine.registers.pc.toNat

def load (machine : Machine) (image : List UInt8) :
    Except MemoryError (Machine × List Event) :=
  match machine.memory.load image with
  | .ok memory =>
      .ok ({ machine with memory := memory }, [.imageLoaded image.length])
  | .error e => .error e

def setRegister (machine : Machine) (register : UInt8) (value : Nat) :
    Machine :=
  { machine with registers := machine.registers.write register value }

def jump (machine : Machine) (target : UInt16) : Machine :=
  { machine with registers := machine.registers.jump target }

end Machine

end Redstone

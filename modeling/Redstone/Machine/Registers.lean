/-!
# Registers

Eight byte registers, of which the first always reads zero, the slot of the
next instruction, the two flags of the arithmetic unit and the page.
-/

namespace Redstone

structure Registers where
  general : Vector UInt8 8
  pc : UInt16
  carry : Bool
  zero : Bool
  page : UInt8
  deriving DecidableEq, Repr

namespace Registers

def initial : Registers where
  general := Vector.replicate 8 0
  pc := 0
  carry := false
  zero := false
  page := 0

/-- The register that a number denotes: only its low three bits count. -/
def index (register : UInt8) : Fin 8 :=
  ⟨register.toNat % 8, Nat.mod_lt _ (by decide)⟩

def read (registers : Registers) (register : UInt8) : UInt8 :=
  registers.general.get (index register)

/-- A register takes the low byte of a value; register 0 takes nothing. -/
def write (registers : Registers) (register : UInt8) (value : Nat) :
    Registers :=
  let i := index register
  if i = 0 then registers
  else
    { registers with
      general := registers.general.set i.val (UInt8.ofNat value) i.isLt }

def setPage (registers : Registers) (page : UInt8) : Registers :=
  { registers with page := page &&& 7 }

def setFlags (registers : Registers) (carry zero : Bool) : Registers :=
  { registers with carry := carry, zero := zero }

/-- Goes on to the next slot; the counter wraps at sixteen bits. -/
def advance (registers : Registers) : Registers :=
  { registers with pc := registers.pc + 1 }

/--
Puts the counter one slot before a target.  The counter moves on after every
instruction, and then it is at the target.
-/
def jump (registers : Registers) (target : UInt16) : Registers :=
  { registers with pc := (target &&& 0x3ff) - 1 }

theorem advance_jump_pc (registers : Registers) (target : UInt16) :
    (registers.jump target).advance.pc = target &&& 0x3ff := by
  simp [jump, advance]

def flagDigit (flag : Bool) : Nat :=
  if flag then 1 else 0

def namedValues (registers : Registers) : List String :=
  let values := registers.general.toList.drop 1
  values.mapIdx fun i value =>
    String.join ["r", toString (i + 1), "=", toString value]

def summary (registers : Registers) : String :=
  let named := ", ".intercalate registers.namedValues
  let c := flagDigit registers.carry
  let z := flagDigit registers.zero
  String.join
    ["[", named, "] pc=", toString registers.pc, " C=", toString c,
      " Z=", toString z, " page=", toString registers.page]

example : initial.summary =
    "[r1=0, r2=0, r3=0, r4=0, r5=0, r6=0, r7=0] pc=0 C=0 Z=0 page=0" := by
  decide

end Registers

end Redstone

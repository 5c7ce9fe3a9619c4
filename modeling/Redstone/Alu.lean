import Redstone.Instruction.Opcode

/-!
# Arithmetic and logic unit

Nine operations on two bytes.  The carry follows the adder that the machine is
built around: an exclusive or reports which operand is larger, its complement
reports the carry of the sum, a right shift shifts the sum and reports the
carry that the sum had before, and the other logical operations never carry.
-/

namespace Redstone

inductive AluOp where
  | add | sub | xor | xno | ior | nor | and | nan | rsh
  deriving DecidableEq, Repr

namespace AluOp

def opcode : AluOp → Opcode
  | add => .add | sub => .sub | xor => .xor | xno => .xno | ior => .ior
  | nor => .nor | and => .and | nan => .nan | rsh => .rsh

/-- The operation that an opcode selects, if it selects one. -/
def ofOpcode? : Opcode → Option AluOp
  | .add => some add | .sub => some sub | .xor => some xor | .xno => some xno
  | .ior => some ior | .nor => some nor | .and => some and | .nan => some nan
  | .rsh => some rsh | _ => none

theorem ofOpcode?_eq_some_iff (op : Opcode) (alu : AluOp) :
    ofOpcode? op = some alu ↔ op = alu.opcode := by
  cases op <;> cases alu <;> simp [ofOpcode?, opcode]

end AluOp

/-- The result byte of an operation and the two flags that it sets. -/
structure AluOutput where
  result : UInt8
  carry : Bool
  zero : Bool
  deriving DecidableEq, Repr

namespace Alu

/-- A result with its carry; the zero flag tells whether the result is zero. -/
def output (result : UInt8) (carry : Bool) : AluOutput where
  result := result
  carry := carry
  zero := result == 0

def run (op : AluOp) (a b : UInt8) : AluOutput :=
  let sumCarries : Bool := 256 ≤ a.toNat + b.toNat
  match op with
  | .add => output (a + b) sumCarries
  | .sub => output (a - b) (b.toNat ≤ a.toNat)
  | .xor => output (a ^^^ b) (b.toNat < a.toNat)
  | .xno => output (~~~(a ^^^ b)) sumCarries
  | .ior => output (a ||| b) false
  | .nor => output (~~~(a ||| b)) false
  | .and => output (a &&& b) false
  | .nan => output (~~~a &&& ~~~b) false
  | .rsh => output ((a + b) >>> 1) sumCarries

/-- A difference is the sum with the complement and one; it carries unless it borrows. -/
theorem run_sub_toNat (a b : UInt8) :
    (run .sub a b).result.toNat =
      (a.toNat + (255 - b.toNat) + 1) % 256 := by
  have hb := b.toNat_lt
  simp only [run, output, UInt8.toNat_sub]
  omega

end Alu

end Redstone

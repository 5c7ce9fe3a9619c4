import Redstone.Alu
import Redstone.Instruction.Word

/-!
# Instructions

An instruction with its operands named by what they mean.  Every word with an
implemented opcode decodes to one; an instruction whose operands are too wide
for their fields loses the excess bits when it is encoded.
-/

namespace Redstone

inductive Condition where
  | zero | notZero | carry | notCarry
  deriving DecidableEq, Repr

namespace Condition

def opcode : Condition → Opcode
  | zero => .beq
  | notZero => .bne
  | carry => .bgt
  | notCarry => .blt

end Condition

/-- An instruction.  Registers are called `a`, `b` and `c`, numbers `imm`. -/
inductive Instruction where
  /-- Does nothing. -/
  | nop
  /-- Halts the machine. -/
  | halt
  /-- Combines two registers into a third. -/
  | alu (op : AluOp) (a b c : UInt8)
  /-- Adds a number to a register. -/
  | addNumber (c imm : UInt8)
  /-- Puts a number into a register. -/
  | putNumber (c imm : UInt8)
  /-- Goes to a slot. -/
  | jump (target : UInt16)
  /-- Goes to a slot if a flag test holds. -/
  | branch (condition : Condition) (target : UInt16)
  /-- Goes to a slot and remembers the next one. -/
  | call (target : UInt16)
  /-- Goes to the slot remembered last. -/
  | ret
  /-- Reads a byte of the current page into a register. -/
  | read (a imm c : UInt8)
  /-- Stores a register in a byte of the current page. -/
  | store (a imm c : UInt8)
  /-- Takes a byte from a port. -/
  | input (port c : UInt8)
  /-- Sends a register to a port. -/
  | output (c port : UInt8)
  /-- Rings the bell. -/
  | bell
  /-- Selects a page. -/
  | setPage (imm b : UInt8)
  /-- Reads the page into a register. -/
  | getPage (c : UInt8)
  deriving DecidableEq, Repr

/-- What an instruction can ask of the device behind the ports. -/
inductive Request where
  | input (port c : UInt8)
  | output (c port : UInt8)
  | bell
  deriving DecidableEq, Repr

namespace Instruction

/-- What an instruction asks of the device, if it asks anything. -/
def request? : Instruction → Option Request
  | input port c => some (.input port c)
  | output c port => some (.output c port)
  | bell => some .bell
  | nop | halt | ret | alu .. | addNumber .. | putNumber .. | jump _
  | branch .. | call _ | read .. | store .. | setPage .. | getPage _ => none

def opcode : Instruction → Opcode
  | nop => .nop
  | halt => .hlt
  | alu op .. => op.opcode
  | addNumber .. => .adi
  | putNumber .. => .ldi
  | jump _ => .jmp
  | branch condition _ => condition.opcode
  | call _ => .cal
  | ret => .ret
  | read .. => .rea
  | store .. => .sto
  | input .. => .gpi
  | output .. => .gpo
  | bell => .bel
  | setPage .. => .pas
  | getPage _ => .pag

def operands : Instruction → List UInt16
  | nop | halt | ret | bell => []
  | alu _ a b c => [a.toUInt16, b.toUInt16, c.toUInt16]
  | addNumber c imm | putNumber c imm => [c.toUInt16, imm.toUInt16]
  | jump target | branch _ target | call target => [target]
  | read a imm c | store a imm c => [a.toUInt16, imm.toUInt16, c.toUInt16]
  | input port c => [port.toUInt16, c.toUInt16]
  | output c port => [c.toUInt16, port.toUInt16]
  | setPage imm b => [imm.toUInt16, b.toUInt16]
  | getPage c => [c.toUInt16]

/-- The instruction of an opcode whose operand number `i` is `operand i`. -/
def build (opcode : Opcode) (operand : Nat → UInt16) : Instruction :=
  let byte i := (operand i).toUInt8
  match opcode with
  | .nop => nop
  | .hlt => halt
  | .add => alu .add (byte 0) (byte 1) (byte 2)
  | .adi => addNumber (byte 0) (byte 1)
  | .sub => alu .sub (byte 0) (byte 1) (byte 2)
  | .xor => alu .xor (byte 0) (byte 1) (byte 2)
  | .xno => alu .xno (byte 0) (byte 1) (byte 2)
  | .ior => alu .ior (byte 0) (byte 1) (byte 2)
  | .nor => alu .nor (byte 0) (byte 1) (byte 2)
  | .and => alu .and (byte 0) (byte 1) (byte 2)
  | .nan => alu .nan (byte 0) (byte 1) (byte 2)
  | .rsh => alu .rsh (byte 0) (byte 1) (byte 2)
  | .ldi => putNumber (byte 0) (byte 1)
  | .jmp => jump (operand 0)
  | .beq => branch .zero (operand 0)
  | .bne => branch .notZero (operand 0)
  | .bgt => branch .carry (operand 0)
  | .blt => branch .notCarry (operand 0)
  | .cal => call (operand 0)
  | .ret => ret
  | .rea => read (byte 0) (byte 1) (byte 2)
  | .sto => store (byte 0) (byte 1) (byte 2)
  | .gpi => input (byte 0) (byte 1)
  | .gpo => output (byte 0) (byte 1)
  | .bel => bell
  | .pas => setPage (byte 0) (byte 1)
  | .pag => getPage (byte 0)

theorem opcode_build (op : Opcode) (operand : Nat → UInt16) :
    (build op operand).opcode = op := by
  cases op <;> rfl

def decode (word : UInt16) : Except DecodeError Instruction :=
  match Word.decode word with
  | .ok (opcode, operands) => .ok (build opcode fun i => operands.getD i 0)
  | .error e => .error e

/-- The word of an instruction; operands lose the bits that do not fit. -/
def encode (instruction : Instruction) : UInt16 :=
  let fields := instruction.opcode.fields
  let reduced :=
    List.zipWith (fun field value => field.reduce value.toNat) fields
      instruction.operands
  Word.pack instruction.opcode reduced

def register (index : UInt8) : String :=
  String.join ["r", toString index]

def portName (index : UInt8) : String :=
  String.join ["p", toString index]

/-- The operands of an instruction as they are written in source text. -/
def operandTexts : Instruction → List String
  | nop | halt | ret | bell => []
  | alu _ a b c => [register a, register b, register c]
  | addNumber c imm | putNumber c imm => [register c, toString imm]
  | jump target | branch _ target | call target => [toString target]
  | read a imm c | store a imm c => [register a, toString imm, register c]
  | input port c => [portName port, register c]
  | output c port => [register c, portName port]
  | setPage imm b => [toString imm, register b]
  | getPage c => [register c]

def text (instruction : Instruction) : String :=
  " ".intercalate (instruction.opcode.mnemonic :: instruction.operandTexts)

example : decode 0x6029 = .ok (putNumber 1 5) := rfl

example : (read 1 7 2).text = "REA r1 7 r2" := by decide

end Instruction

end Redstone

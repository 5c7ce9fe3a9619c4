import Redstone.Instruction.Format
import Redstone.Text.Numeral

/-!
# Instruction words

An instruction word has sixteen bits: the opcode in the top five, the operands
below it as the opcode's format says.  Writing a word checks the operands
against the format; reading one ignores the bits that no field covers.
-/

namespace Redstone

/-- Why an opcode and its operands have no word. -/
inductive EncodeError where
  | operandCount (opcode : Opcode) (expected found : Nat)
  | fieldOverflow (opcode : Opcode) (index : Nat) (value : UInt16) (width : Nat)
  | wordLength (number : Nat)
  deriving DecidableEq, Repr

inductive DecodeError where
  | invalidOpcode (code : Nat)
  deriving DecidableEq, Repr

namespace EncodeError

/-- The sentence that names the operand, the count or the number at fault. -/
def message : EncodeError → String
  | operandCount opcode expected found =>
      String.join
        [opcode.mnemonic, " takes ", toString expected,
          " operand(s), encoder was given ", toString found]
  | fieldOverflow opcode index value width =>
      String.join
        [opcode.mnemonic, " operand ", toString index, " = ", toString value,
          " does not fit in ", toString width, " bits"]
  | wordLength number =>
      String.join
        ["packed instruction word ", Numeral.hex 1 number, " is not 16 bits"]

end EncodeError

namespace DecodeError

def message : DecodeError → String
  | invalidOpcode code => String.join ["unimplemented opcode ", toString code]

end DecodeError

namespace Word

def operandBits : List Field → List Nat → Nat
  | field :: fields, value :: values =>
      field.place value + operandBits fields values
  | _, _ => 0

/-- The number that an opcode and its operands make together. -/
def packedNumber (opcode : Opcode) (operands : List Nat) : Nat :=
  opcode.code * 2048 + operandBits opcode.fields operands

/-- The word of an opcode whose operands are already known to fit. -/
def pack (opcode : Opcode) (operands : List Nat) : UInt16 :=
  UInt16.ofNat (packedNumber opcode operands)

/--
The first operand that its field cannot hold, counted from `index`, with the
width of that field.
-/
def overflow? (index : Nat) :
    List Field → List UInt16 → Option (Nat × UInt16 × Nat)
  | field :: fields, value :: values =>
      if field.max < value.toNat then some (index, value, field.width)
      else overflow? (index + 1) fields values
  | _, _ => none

/--
The word of an opcode and its operands in source order.  The last check is one
of the format table: with the fields as they are every number has sixteen bits.
-/
def encode (opcode : Opcode) (operands : List UInt16) :
    Except EncodeError UInt16 :=
  if operands.length ≠ opcode.fields.length then
    .error (.operandCount opcode opcode.fields.length operands.length)
  else match overflow? 0 opcode.fields operands with
    | some (index, value, width) =>
        .error (.fieldOverflow opcode index value width)
    | none =>
        let number := packedNumber opcode (operands.map UInt16.toNat)
        if 0xffff < number then .error (.wordLength number)
        else .ok (UInt16.ofNat number)

def opcodeBits (word : UInt16) : Nat :=
  word.toNat / 2048

/-- The operands that a word holds for an opcode, in source order. -/
def operands (opcode : Opcode) (word : UInt16) : List UInt16 :=
  opcode.fields.map fun field => UInt16.ofNat (field.extract word.toNat)

def decode (word : UInt16) : Except DecodeError (Opcode × List UInt16) :=
  match Opcode.ofCode? (opcodeBits word) with
  | some opcode => .ok (opcode, operands opcode word)
  | none => .error (.invalidOpcode (opcodeBits word))

def toBytes (word : UInt16) : List UInt8 :=
  [word.toUInt8, (word >>> 8).toUInt8]

def ofBytes (low high : UInt8) : UInt16 :=
  UInt16.ofNat (high.toNat * 256 + low.toNat)

example : encode .ldi [1, 5] = .ok 0x6029 := rfl

example : decode 0x6029 = .ok (.ldi, [1, 5]) := rfl

end Word

end Redstone

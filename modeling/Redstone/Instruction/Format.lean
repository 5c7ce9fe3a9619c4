import Redstone.Instruction.Opcode

/-!
# Operand formats

The low eleven bits of an instruction word hold the operands.  A format says
where each operand stands and how wide it is, in the order in which operands
are written in source text.
-/

namespace Redstone

/-- A run of `width` bits of a word that starts at bit `shift`. -/
structure Field where
  shift : Nat
  width : Nat
  deriving DecidableEq, Repr

namespace Field

def capacity (field : Field) : Nat :=
  Nat.pow 2 field.width

def max (field : Field) : Nat :=
  field.capacity - 1

def place (field : Field) (value : Nat) : Nat :=
  value * Nat.pow 2 field.shift

def reduce (field : Field) (value : Nat) : Nat :=
  value % field.capacity

def extract (field : Field) (word : Nat) : Nat :=
  word / Nat.pow 2 field.shift % field.capacity

theorem capacity_pos (field : Field) : 0 < field.capacity :=
  Nat.two_pow_pos field.width

theorem lt_capacity_iff (field : Field) (value : Nat) :
    value < field.capacity ↔ value ≤ field.max := by
  have := field.capacity_pos
  unfold max
  omega

theorem reduce_le_max (field : Field) (value : Nat) :
    field.reduce value ≤ field.max :=
  (field.lt_capacity_iff _).1 (Nat.mod_lt _ field.capacity_pos)

theorem reduce_of_le {field : Field} {value : Nat} (h : value ≤ field.max) :
    field.reduce value = value :=
  Nat.mod_eq_of_lt ((field.lt_capacity_iff value).2 h)

end Field

inductive Format where
  /-- No operands. -/
  | none
  /-- Two register or small-number operands and a destination register. -/
  | alu
  /-- A register and an eight-bit number, the register in the low bits. -/
  | imm8ToReg
  /-- A ten-bit slot number above one padding bit. -/
  | imm10
  /-- A port and the register that receives from it. -/
  | imm3ToReg
  /-- A register and the port that it is sent to. -/
  | regToImm3
  /-- A three-bit number and a register that are combined. -/
  | imm3OrReg
  /-- One register. -/
  | regOnly
  deriving DecidableEq, Repr

namespace Format

def fields : Format → List Field
  | none => []
  | alu => [⟨6, 3⟩, ⟨3, 3⟩, ⟨0, 3⟩]
  | imm8ToReg => [⟨0, 3⟩, ⟨3, 8⟩]
  | imm10 => [⟨1, 10⟩]
  | imm3ToReg => [⟨3, 3⟩, ⟨0, 3⟩]
  | regToImm3 => [⟨6, 3⟩, ⟨3, 3⟩]
  | imm3OrReg => [⟨8, 3⟩, ⟨3, 3⟩]
  | regOnly => [⟨0, 3⟩]

def operandCount (format : Format) : Nat :=
  format.fields.length

theorem fields_fit (format : Format) :
    ∀ field ∈ format.fields, field.shift + field.width ≤ 11 := by
  cases format <;> decide

end Format

namespace Opcode

def format : Opcode → Format
  | nop | hlt | ret | bel => .none
  | add | sub | xor | xno | ior | nor | and | nan | rsh | rea | sto => .alu
  | adi | ldi => .imm8ToReg
  | jmp | beq | bne | bgt | blt | cal => .imm10
  | gpi => .imm3ToReg
  | gpo => .regToImm3
  | pas => .imm3OrReg
  | pag => .regOnly

def fields (op : Opcode) : List Field :=
  op.format.fields

end Opcode

end Redstone

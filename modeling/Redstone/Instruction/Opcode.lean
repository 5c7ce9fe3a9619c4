/-!
# Opcodes

The 27 operations of the machine, the number each has in the top five bits of
an instruction word, and the three-letter mnemonic it has in source text.
-/

namespace Redstone

/-- An operation of the machine, in the order of the numbers 0 to 26. -/
inductive Opcode where
  | nop | hlt | add | adi | sub | xor | xno | ior | nor | and | nan | rsh | ldi
  | jmp | beq | bne | bgt | blt | cal | ret | rea | sto | gpi | gpo | bel
  | pas | pag
  deriving DecidableEq, Repr

namespace Opcode

def all : List Opcode :=
  [.nop, .hlt, .add, .adi, .sub, .xor, .xno, .ior, .nor, .and, .nan, .rsh,
    .ldi, .jmp, .beq, .bne, .bgt, .blt, .cal, .ret, .rea, .sto, .gpi, .gpo,
    .bel, .pas, .pag]

def code : Opcode → Nat
  | nop => 0 | hlt => 1 | add => 2 | adi => 3 | sub => 4 | xor => 5 | xno => 6
  | ior => 7 | nor => 8 | and => 9 | nan => 10 | rsh => 11 | ldi => 12
  | jmp => 13 | beq => 14 | bne => 15 | bgt => 16 | blt => 17 | cal => 18
  | ret => 19 | rea => 20 | sto => 21 | gpi => 22 | gpo => 23 | bel => 24
  | pas => 25 | pag => 26

/-- The opcode with a given number; there is none from 27 on. -/
def ofCode? (n : Nat) : Option Opcode :=
  all[n]?

def mnemonic : Opcode → String
  | nop => "NOP" | hlt => "HLT" | add => "ADD" | adi => "ADI" | sub => "SUB"
  | xor => "XOR" | xno => "XNO" | ior => "IOR" | nor => "NOR" | and => "AND"
  | nan => "NAN" | rsh => "RSH" | ldi => "LDI" | jmp => "JMP" | beq => "BEQ"
  | bne => "BNE" | bgt => "BGT" | blt => "BLT" | cal => "CAL" | ret => "RET"
  | rea => "REA" | sto => "STO" | gpi => "GPI" | gpo => "GPO" | bel => "BEL"
  | pas => "PAS" | pag => "PAG"

/-- The opcode with a given mnemonic, written in any ASCII case. -/
def ofMnemonic? (name : String) : Option Opcode :=
  let key := name.toList.map Char.toUpper
  all.find? fun op => op.mnemonic.toList == key

theorem ofCode?_code (op : Opcode) : ofCode? op.code = some op := by
  cases op <;> rfl

theorem code_lt (op : Opcode) : op.code < 27 := by
  cases op <;> decide

theorem ofCode?_eq_none_iff (n : Nat) : ofCode? n = none ↔ 27 ≤ n := by
  simp [ofCode?, all]

theorem code_of_ofCode? {n : Nat} {op : Opcode} (h : ofCode? n = some op) :
    op.code = n := by
  have hn : n < 27 := by
    refine Nat.lt_of_not_le fun hle => ?_
    rw [(ofCode?_eq_none_iff n).2 hle] at h
    exact absurd h (by simp)
  have all_codes : ∀ m < 27, (ofCode? m).map code = some m := by decide
  have := all_codes n hn
  rw [h] at this
  simpa using this

theorem ofMnemonic?_mnemonic (op : Opcode) :
    ofMnemonic? op.mnemonic = some op := by
  cases op <;> decide

end Opcode

end Redstone

import Redstone.Proofs.Instruction.Padding

/-!
# Two codecs for one word

The machine reads and writes words as instructions with named operands, the assembler as opcodes
with lists of numbers. An instruction is its opcode and its operands, and so both read the same
from a word and write the same word. They differ only where an operand does not fit its field: the
assembler refuses it, and the machine drops the bits for which there is no room.
-/

namespace Redstone

namespace Field

theorem toNat_ofNat_reduce (field : Field) (operand : UInt16) :
    (UInt16.ofNat (field.reduce operand.toNat)).toNat = field.reduce operand.toNat := by
  have hle : field.reduce operand.toNat ≤ operand.toNat := Nat.mod_le _ _
  exact UInt16.toNat_ofNat_of_lt' (Nat.lt_of_le_of_lt hle operand.toNat_lt)

/-- Exactly the operands that fit stay what they are. -/
theorem ofNat_reduce_eq_self_iff (field : Field) (operand : UInt16) :
    UInt16.ofNat (field.reduce operand.toNat) = operand ↔ operand.toNat ≤ field.max := by
  rw [← UInt16.toNat_inj, toNat_ofNat_reduce]
  constructor
  · intro h
    rw [← h]
    exact field.reduce_le_max _
  · exact reduce_of_le

end Field

namespace Word

def narrow (fields : List Field) (operands : List UInt16) : List UInt16 :=
  List.zipWith (fun field operand => UInt16.ofNat (field.reduce operand.toNat)) fields operands

theorem fitFields_narrow {fields : List Field} {operands : List UInt16}
    (full : operands.length = fields.length) : FitFields fields (narrow fields operands) := by
  unfold FitFields
  induction fields generalizing operands with
  | nil => exact .nil
  | cons field fields ih =>
      obtain ⟨operand, operands, rfl⟩ := List.exists_cons_of_length_eq_add_one full
      refine .cons ?_ (ih (Nat.succ.inj full))
      rw [field.toNat_ofNat_reduce]
      exact field.reduce_le_max _

theorem narrow_eq_self_iff {fields : List Field} {operands : List UInt16}
    (full : operands.length = fields.length) :
    narrow fields operands = operands ↔ FitFields fields operands := by
  unfold FitFields narrow
  induction fields generalizing operands with
  | nil =>
      obtain rfl := List.length_eq_zero_iff.1 full
      simp
  | cons field fields ih =>
      obtain ⟨operand, operands, rfl⟩ := List.exists_cons_of_length_eq_add_one full
      rw [List.zipWith_cons_cons, List.cons.injEq, List.forall₂_cons,
        field.ofNat_reduce_eq_self_iff, ih (Nat.succ.inj full)]

theorem map_toNat_narrow (fields : List Field) (operands : List UInt16) :
    (narrow fields operands).map UInt16.toNat =
      List.zipWith (fun field operand => field.reduce operand.toNat) fields operands := by
  unfold narrow
  simp only [List.map_zipWith, Field.toNat_ofNat_reduce]

end Word

namespace Instruction

/-! ## An instruction is its opcode and its operands -/

theorem length_operands (instruction : Instruction) :
    instruction.operands.length = instruction.opcode.fields.length := by
  cases instruction with
  | alu op a b c => cases op <;> rfl
  | branch condition target => cases condition <;> rfl
  | _ => rfl

theorem build_operands (instruction : Instruction) :
    build instruction.opcode (fun i => instruction.operands.getD i 0) = instruction := by
  cases instruction with
  | alu op a b c => cases op <;> simp [build, opcode, AluOp.opcode, operands]
  | branch condition target => cases condition <;> rfl
  | nop | halt | ret | bell | jump _ | call _ => rfl
  | _ => simp [build, opcode, operands]

theorem eq_of_operands_eq {first second : Instruction} (hopcode : first.opcode = second.opcode)
    (hoperands : first.operands = second.operands) : first = second := by
  rw [← first.build_operands, ← second.build_operands, hopcode, hoperands]

/--
The instruction as its fields can hold it. Registers, ports and the numbers beside registers have
three bits, slots have ten, and the numbers that go into a register have all eight.
-/
def reduced : Instruction → Instruction
  | nop => nop
  | halt => halt
  | alu op a b c => alu op (a % 8) (b % 8) (c % 8)
  | addNumber c imm => addNumber (c % 8) imm
  | putNumber c imm => putNumber (c % 8) imm
  | jump target => jump (target % 1024)
  | branch condition target => branch condition (target % 1024)
  | call target => call (target % 1024)
  | ret => ret
  | read a imm c => read (a % 8) (imm % 8) (c % 8)
  | store a imm c => store (a % 8) (imm % 8) (c % 8)
  | input port c => input (port % 8) (c % 8)
  | output c port => output (c % 8) (port % 8)
  | bell => bell
  | setPage imm b => setPage (imm % 8) (b % 8)
  | getPage c => getPage (c % 8)

theorem opcode_reduced (instruction : Instruction) :
    instruction.reduced.opcode = instruction.opcode := by
  cases instruction <;> rfl

theorem operands_reduced (instruction : Instruction) :
    instruction.reduced.operands =
      Word.narrow instruction.opcode.fields instruction.operands := by
  have three (shift : Nat) (operand : UInt8) : (operand % 8).toUInt16 =
      UInt16.ofNat ((⟨shift, 3⟩ : Field).reduce operand.toUInt16.toNat) := by
    rw [← UInt16.toNat_inj, Field.toNat_ofNat_reduce, UInt8.toNat_toUInt16, UInt8.toNat_mod,
      UInt8.toNat_toUInt16]
    rfl
  have eight (shift : Nat) (operand : UInt8) : operand.toUInt16 =
      UInt16.ofNat ((⟨shift, 8⟩ : Field).reduce operand.toUInt16.toNat) := by
    have hlt := operand.toNat_lt
    symm
    rw [Field.ofNat_reduce_eq_self_iff, UInt8.toNat_toUInt16]
    exact Nat.le_of_lt_succ hlt
  have ten (shift : Nat) (operand : UInt16) : operand % 1024 =
      UInt16.ofNat ((⟨shift, 10⟩ : Field).reduce operand.toNat) := by
    rw [← UInt16.toNat_inj, Field.toNat_ofNat_reduce, UInt16.toNat_mod]
    rfl
  cases instruction with
  | nop | halt | ret | bell => rfl
  | alu op a b c =>
      have fields : (alu op a b c).opcode.fields = [⟨6, 3⟩, ⟨3, 3⟩, ⟨0, 3⟩] := by
        cases op <;> rfl
      rw [fields]
      simp only [reduced, operands, Word.narrow, List.zipWith, ← three]
  | branch condition target =>
      have fields : (branch condition target).opcode.fields = [⟨1, 10⟩] := by
        cases condition <;> rfl
      rw [fields]
      simp only [reduced, operands, Word.narrow, List.zipWith, ← ten]
  | jump _ | call _ =>
      simp only [reduced, operands, opcode, Opcode.fields, Opcode.format, Format.fields,
        Word.narrow, List.zipWith, ← ten]
  | _ =>
      simp only [reduced, operands, opcode, Opcode.fields, Opcode.format, Format.fields,
        Word.narrow, List.zipWith, ← three, ← eight]

theorem reduced_eq_self_iff (instruction : Instruction) :
    instruction.reduced = instruction ↔
      FitFields instruction.opcode.fields instruction.operands := by
  rw [← Word.narrow_eq_self_iff instruction.length_operands, ← operands_reduced]
  exact ⟨congrArg operands, eq_of_operands_eq instruction.opcode_reduced⟩

/-! ## Writing -/

theorem encode_eq_pack (instruction : Instruction) :
    instruction.encode = Word.pack instruction.opcode
      ((Word.narrow instruction.opcode.fields instruction.operands).map UInt16.toNat) := by
  rw [Word.map_toNat_narrow]
  rfl

/-- The word of an instruction is that of its opcode with the operands that are left of its own. -/
theorem encode_narrow (instruction : Instruction) :
    Word.encode instruction.opcode (Word.narrow instruction.opcode.fields instruction.operands) =
      .ok instruction.encode := by
  rw [Word.encode_eq_ok_iff]
  exact ⟨Word.fitFields_narrow instruction.length_operands, instruction.encode_eq_pack⟩

theorem encode_operands_eq_ok_iff (instruction : Instruction) (word : UInt16) :
    Word.encode instruction.opcode instruction.operands = .ok word ↔
      FitFields instruction.opcode.fields instruction.operands ∧ word = instruction.encode := by
  rw [Word.encode_eq_ok_iff]
  refine and_congr_right fun fit => ?_
  rw [encode_eq_pack, (Word.narrow_eq_self_iff instruction.length_operands).2 fit]

/-! ## Reading -/

/-- What is read as an opcode with operands is read as the instruction that has both. -/
theorem decode_of_word {word : UInt16} {op : Opcode} {values : List UInt16}
    (read : Word.decode word = .ok (op, values)) :
    ∃ instruction, decode word = .ok instruction ∧ instruction.opcode = op ∧
      instruction.operands = values := by
  obtain ⟨_, rfl⟩ := Word.decode_eq_ok_iff.1 read
  refine ⟨build op fun i => (Word.operands op word).getD i 0, ?_, opcode_build _ _,
    operands_build (Word.fit_operands op word)⟩
  unfold decode
  rw [read]

theorem decode_eq_error_iff (word : UInt16) (e : DecodeError) :
    decode word = .error e ↔ Word.decode word = .error e := by
  unfold decode
  cases Word.decode word with
  | ok read => simp
  | error other => simp

theorem decode_encode (instruction : Instruction) :
    decode instruction.encode = .ok instruction.reduced := by
  have fit := Word.fitFields_narrow instruction.length_operands
  obtain ⟨other, read, hopcode, hoperands⟩ := decode_pack fit
  rw [encode_eq_pack, read]
  rw [← instruction.opcode_reduced] at hopcode
  rw [← instruction.operands_reduced] at hoperands
  rw [eq_of_operands_eq hopcode hoperands]

theorem toUInt16_toUInt8_of_mem {op : Opcode} (narrow : op.format ≠ .imm10) {word : UInt16}
    {value : UInt16} (member : value ∈ Word.operands op word) :
    value.toUInt8.toUInt16 = value := by
  have hmax : ∀ field ∈ op.fields, field.max ≤ 255 := by
    unfold Opcode.fields
    cases hformat : op.format with
    | imm10 => exact absurd hformat narrow
    | _ => decide
  obtain ⟨field, hfield, rfl⟩ := List.mem_map.1 member
  have hle : field.extract word.toNat ≤ 255 :=
    Nat.le_trans (field.reduce_le_max _) (hmax field hfield)
  rw [← UInt16.toNat_inj, UInt8.toNat_toUInt16, UInt16.toNat_toUInt8,
    UInt16.toNat_ofNat_of_lt' (Word.extract_lt word hfield)]
  omega

/--
The machine writes an instruction as the assembler writes its opcode with the operands that its
fields can hold; the assembler accepts the operands as they are exactly if all fit, and then writes
the same word. What is written is read as the instruction without the bits that did not fit, hence
as itself exactly if all did. The machine refuses the words that the assembler's reader refuses,
for the same reason, and any other word it reads as the instruction with the same opcode, the same
operands and the operation that the opcode selects; operands that become bytes are bytes.
-/
theorem codecs_agree :
    (∀ instruction : Instruction,
      Word.encode instruction.opcode
          (Word.narrow instruction.opcode.fields instruction.operands) =
        .ok instruction.encode ∧
      (∀ word, Word.encode instruction.opcode instruction.operands = .ok word ↔
        FitFields instruction.opcode.fields instruction.operands ∧ word = instruction.encode) ∧
      decode instruction.encode = .ok instruction.reduced ∧
      (decode instruction.encode = .ok instruction ↔
        FitFields instruction.opcode.fields instruction.operands)) ∧
    ∀ word : UInt16,
      (∀ e, decode word = .error e ↔ Word.decode word = .error e) ∧
      ∀ (op : Opcode) (values : List UInt16), Word.decode word = .ok (op, values) →
        ∃ instruction, decode word = .ok instruction ∧ instruction.opcode = op ∧
          instruction.operands = values ∧
          (∀ operation a b c, instruction = alu operation a b c →
            AluOp.ofOpcode? op = some operation) ∧
          (op.format ≠ .imm10 → ∀ value ∈ values, value.toUInt8.toUInt16 = value) := by
  refine ⟨fun instruction => ⟨encode_narrow _, encode_operands_eq_ok_iff _, decode_encode _, ?_⟩,
    fun word => ⟨decode_eq_error_iff word, fun op values read => ?_⟩⟩
  · rw [decode_encode, Except.ok.injEq, reduced_eq_self_iff]
  · obtain ⟨instruction, read', rfl, rfl⟩ := decode_of_word read
    refine ⟨instruction, read', rfl, rfl, ?_, fun narrow value member => ?_⟩
    · rintro operation a b c rfl
      exact (AluOp.ofOpcode?_eq_some_iff _ _).2 rfl
    · rw [← (Word.decode_eq_ok_iff.1 read).2] at member
      exact toUInt16_toUInt8_of_mem narrow member

/-- A register and a slot that are too large lose their upper bits; the assembler refuses both. -/
theorem codecs_agree_too_large :
    decode (alu .rsh 11 0 4).encode = .ok (alu .rsh 3 0 4) ∧
      (∀ word, Word.encode .jmp [1029] ≠ .ok word) ∧
      ∃ instruction, decode 0x680a = .ok instruction ∧ instruction.opcode = .jmp ∧
        instruction.operands = [5] := by
  obtain ⟨written, read⟩ := codecs_agree
  refine ⟨(written (alu .rsh 11 0 4)).2.2.1, fun word accepted => ?_, ?_⟩
  · obtain ⟨fit, -⟩ := ((written (jump 1029)).2.1 word).1 accepted
    cases fit with
    | cons hle _ => exact absurd hle (by decide)
  · obtain ⟨instruction, decoded, hopcode, hoperands, -⟩ := (read 0x680a).2 .jmp [5] rfl
    exact ⟨instruction, decoded, hopcode, hoperands⟩

end Instruction

end Redstone

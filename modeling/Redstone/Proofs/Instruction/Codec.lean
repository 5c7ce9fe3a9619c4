import Mathlib.Data.List.Forall2
import Redstone.Instruction.Basic

/-!
# Words of instructions

Operands that fit their fields are packed into a word, and both ways of reading
the word give them back: as an opcode with a list of operands, and as an
instruction whose opcode and operands these are.
-/

namespace Redstone

/-- Every operand fits the field at its place, and there are as many as fields. -/
def FitFields (fields : List Field) (operands : List UInt16) : Prop :=
  List.Forall₂ (fun (field : Field) (operand : UInt16) => operand.toNat ≤ field.max)
    fields operands

namespace Word

theorem overflow?_eq_none_iff {fields : List Field} {operands : List UInt16} (index : Nat)
    (full : operands.length = fields.length) :
    overflow? index fields operands = none ↔ FitFields fields operands := by
  induction fields generalizing operands index with
  | nil =>
      rw [List.length_nil, List.length_eq_zero_iff] at full
      subst full
      simp [overflow?, FitFields]
  | cons field fields ih =>
      obtain ⟨operand, operands, rfl⟩ := List.exists_cons_of_length_eq_add_one full
      have full' : operands.length = fields.length := by simpa using full
      have tail := ih (index + 1) full'
      unfold FitFields at tail ⊢
      rw [overflow?, List.forall₂_cons, ← tail]
      by_cases large : field.max < operand.toNat
      · have : ¬ operand.toNat ≤ field.max := by omega
        simp [large, this]
      · have : operand.toNat ≤ field.max := by omega
        simp [large, this]

/-! ## Reading a packed word -/

/--
The fields of a format lie beside each other below the opcode bits, so that each
holds what was placed in it.
-/
theorem extract_operandBits (format : Format) {values : List Nat}
    (fit : List.Forall₂ (fun (field : Field) value => value ≤ field.max) format.fields values)
    (high : Nat) :
    operandBits format.fields values < 2048 ∧
      format.fields.map
        (fun field => field.extract (high * 2048 + operandBits format.fields values)) =
        values := by
  cases format with
  | none =>
      obtain _ | _ := fit
      simp [Format.fields, operandBits]
  | alu =>
      obtain _ | ⟨fa, _ | ⟨fb, _ | ⟨fc, _ | _⟩⟩⟩ := fit
      simp [Format.fields, operandBits, Field.place, Field.extract, Field.max, Field.capacity] at *
      omega
  | imm8ToReg =>
      obtain _ | ⟨fa, _ | ⟨fb, _ | _⟩⟩ := fit
      simp [Format.fields, operandBits, Field.place, Field.extract, Field.max, Field.capacity] at *
      omega
  | imm10 =>
      obtain _ | ⟨fa, _ | _⟩ := fit
      simp [Format.fields, operandBits, Field.place, Field.extract, Field.max, Field.capacity] at *
      omega
  | imm3ToReg =>
      obtain _ | ⟨fa, _ | ⟨fb, _ | _⟩⟩ := fit
      simp [Format.fields, operandBits, Field.place, Field.extract, Field.max, Field.capacity] at *
      omega
  | regToImm3 =>
      obtain _ | ⟨fa, _ | ⟨fb, _ | _⟩⟩ := fit
      simp [Format.fields, operandBits, Field.place, Field.extract, Field.max, Field.capacity] at *
      omega
  | imm3OrReg =>
      obtain _ | ⟨fa, _ | ⟨fb, _ | _⟩⟩ := fit
      simp [Format.fields, operandBits, Field.place, Field.extract, Field.max, Field.capacity] at *
      omega
  | regOnly =>
      obtain _ | ⟨fa, _ | _⟩ := fit
      simp [Format.fields, operandBits, Field.place, Field.extract, Field.max, Field.capacity] at *
      omega

variable {opcode : Opcode} {operands : List UInt16}

theorem packedNumber_lt (fit : FitFields opcode.fields operands) :
    packedNumber opcode (operands.map UInt16.toNat) < 65536 := by
  have bits := (extract_operandBits opcode.format (List.forall₂_map_right_iff.2 fit) 0).1
  have code := opcode.code_lt
  unfold packedNumber Opcode.fields
  omega

theorem toNat_pack (fit : FitFields opcode.fields operands) :
    (pack opcode (operands.map UInt16.toNat)).toNat =
      opcode.code * 2048 + operandBits opcode.fields (operands.map UInt16.toNat) := by
  rw [pack, UInt16.toNat_ofNat', Nat.mod_eq_of_lt (packedNumber_lt fit), packedNumber]

theorem encode_eq_ok_iff (opcode : Opcode) (operands : List UInt16) (word : UInt16) :
    encode opcode operands = .ok word ↔
      FitFields opcode.fields operands ∧ word = pack opcode (operands.map UInt16.toNat) := by
  unfold encode
  split
  · next wrong =>
      simp only [reduceCtorEq, false_iff, not_and]
      intro fit
      exact absurd fit.length_eq.symm wrong
  · next full =>
      rw [ne_eq, Decidable.not_not] at full
      cases wide : overflow? 0 opcode.fields operands with
      | some first =>
          have unfit : ¬ FitFields opcode.fields operands := by
            rw [← overflow?_eq_none_iff 0 full, wide]
            simp
          simp [unfit]
      | none =>
          have fit := (overflow?_eq_none_iff 0 full).1 wide
          have short : ¬ 0xffff < packedNumber opcode (operands.map UInt16.toNat) := by
            have := packedNumber_lt fit
            omega
          simp [fit, short, pack, eq_comm]

theorem opcodeBits_pack (fit : FitFields opcode.fields operands) :
    opcodeBits (pack opcode (operands.map UInt16.toNat)) = opcode.code := by
  have bits := (extract_operandBits opcode.format (List.forall₂_map_right_iff.2 fit) 0).1
  rw [opcodeBits, toNat_pack fit]
  unfold Opcode.fields
  omega

/-- A packed word holds the operands that it was packed from. -/
theorem operands_pack (fit : FitFields opcode.fields operands) :
    Word.operands opcode (pack opcode (operands.map UInt16.toNat)) = operands := by
  have values := (extract_operandBits opcode.format (List.forall₂_map_right_iff.2 fit)
    opcode.code).2
  have words := congrArg (List.map UInt16.ofNat) values
  rw [List.map_map, List.map_map] at words
  rw [Word.operands, toNat_pack fit]
  simpa [Function.comp_def, Opcode.fields] using words

theorem decode_pack (fit : FitFields opcode.fields operands) :
    decode (pack opcode (operands.map UInt16.toNat)) = .ok (opcode, operands) := by
  simp only [decode, opcodeBits_pack fit, Opcode.ofCode?_code, operands_pack fit]

/-- The two bytes of a word, low byte first, make the word again. -/
theorem toBytes_eq (word : UInt16) :
    ∃ low high, toBytes word = [low, high] ∧ ofBytes low high = word := by
  refine ⟨word.toUInt8, (word >>> 8).toUInt8, rfl, ?_⟩
  have bound := word.toNat_lt
  rw [← UInt16.toNat_inj, ofBytes, UInt16.toNat_ofNat']
  simp [Nat.shiftRight_eq_div_pow]
  omega

end Word

theorem toNat_slotMask (slot : UInt16) : (slot &&& 0x3ff).toNat = slot.toNat % 1024 := by
  rw [UInt16.toNat_and]
  exact Nat.and_two_pow_sub_one_eq_mod slot.toNat 10

namespace Instruction

/-- Operands that fit are the operands of the instruction built from them. -/
theorem operands_build {opcode : Opcode} {operands : List UInt16}
    (fit : FitFields opcode.fields operands) :
    (build opcode fun i => operands.getD i 0).operands = operands := by
  have byte {field : Field} {operand : UInt16} (narrow : field.max ≤ 255)
      (le : operand.toNat ≤ field.max) : operand.toUInt8.toUInt16 = operand := by
    rw [← UInt16.toNat_inj, UInt8.toNat_toUInt16, UInt16.toNat_toUInt8]
    omega
  unfold FitFields at fit
  cases opcode with
  | nop | hlt | ret | bel =>
      obtain _ | _ := fit
      rfl
  | jmp | beq | bne | bgt | blt | cal =>
      obtain _ | ⟨_, _ | _⟩ := fit
      rfl
  | pag =>
      obtain _ | ⟨fc, _ | _⟩ := fit
      simp [build, operands, byte (by decide) fc]
  | adi | ldi | gpi | gpo | pas =>
      obtain _ | ⟨fa, _ | ⟨fb, _ | _⟩⟩ := fit
      simp [build, operands, byte (by decide) fa, byte (by decide) fb]
  | add | sub | xor | xno | ior | nor | and | nan | rsh | rea | sto =>
      obtain _ | ⟨fa, _ | ⟨fb, _ | ⟨fc, _ | _⟩⟩⟩ := fit
      simp [build, operands, byte (by decide) fa, byte (by decide) fb, byte (by decide) fc]

/-- A packed word decodes to an instruction with the same opcode and operands. -/
theorem decode_pack {opcode : Opcode} {operands : List UInt16}
    (fit : FitFields opcode.fields operands) :
    ∃ instruction, decode (Word.pack opcode (operands.map UInt16.toNat)) = .ok instruction ∧
      instruction.opcode = opcode ∧ instruction.operands = operands := by
  refine ⟨build opcode fun i => operands.getD i 0, ?_, opcode_build _ _, operands_build fit⟩
  simp only [decode, Word.decode_pack fit]

end Instruction

end Redstone

import Redstone.Instruction.Basic
import Redstone.Proofs.Text.Numeral

/-!
# Instructions as they are written

The text of an instruction is its mnemonic and its operands with spaces between them. Each of
these is a word of letters and digits.
-/

namespace Redstone

namespace Instruction

/-- The mnemonic of an instruction and its operands, as they are written. -/
def words (instruction : Instruction) : List String :=
  instruction.opcode.mnemonic :: instruction.operandTexts

theorem text_eq (instruction : Instruction) :
    instruction.text = " ".intercalate instruction.words :=
  rfl

theorem written_mnemonic (opcode : Opcode) : Text.Written opcode.mnemonic := by
  have letters : opcode.mnemonic.toList.all Char.isAlphanum = true := by cases opcode <;> rfl
  refine ⟨?_, List.all_eq_true.1 letters⟩
  cases opcode <;> decide

theorem toList_register (index : UInt8) :
    (register index).toList = 'r' :: (toString index.toNat).toList := by
  simp only [register, String.toList_join]
  exact congrArg ('r' :: ·) (List.append_nil _)

theorem toList_portName (index : UInt8) :
    (portName index).toList = 'p' :: (toString index.toNat).toList := by
  simp only [portName, String.toList_join]
  exact congrArg ('p' :: ·) (List.append_nil _)

theorem written_register (index : UInt8) : Text.Written (register index) := by
  rw [Text.Written, toList_register]
  exact ⟨List.cons_ne_nil _ _, List.forall_mem_cons.2
    ⟨by decide, (Numeral.written_toString index.toNat).2⟩⟩

theorem written_portName (index : UInt8) : Text.Written (portName index) := by
  rw [Text.Written, toList_portName]
  exact ⟨List.cons_ne_nil _ _, List.forall_mem_cons.2
    ⟨by decide, (Numeral.written_toString index.toNat).2⟩⟩

theorem written_of_mem_words (instruction : Instruction) :
    ∀ word ∈ instruction.words, Text.Written word := by
  have hregister := written_register
  have hport := written_portName
  have hbyte (n : UInt8) : Text.Written (toString n) := Numeral.written_toString n.toNat
  have hslot (n : UInt16) : Text.Written (toString n) := Numeral.written_toString n.toNat
  unfold words
  rw [List.forall_mem_cons]
  refine ⟨written_mnemonic _, ?_⟩
  cases instruction <;> simp [operandTexts, hregister, hport, hbyte, hslot]

/-- Writing all operands, an instruction has as many of them as its opcode has fields. -/
theorem length_operandTexts (instruction : Instruction) :
    instruction.operandTexts.length = instruction.opcode.fields.length := by
  cases instruction with
  | alu op a b c => cases op <;> rfl
  | branch condition target => cases condition <;> rfl
  | _ => rfl

end Instruction

end Redstone

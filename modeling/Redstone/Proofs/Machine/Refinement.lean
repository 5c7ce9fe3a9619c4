import Mathlib.Data.Fin.Basic
import Redstone.Ports.Script
import Redstone.Proofs.Instruction.Codec
import Redstone.Proofs.Machine.Memory
import Redstone.Proofs.Machine.Step
import Redstone.Proofs.Machine.Table

/-!
# A step is a row of the table

The machine agrees with the instruction-set table in every part of its state. Each
operation of the machine is one of the table on the view of the machine after its
counter has moved on; with the counter so understood a jump loses its bias and
sets the target itself. One opcode after the other follows from these laws.
-/

namespace Redstone

/-! ## Words and the arithmetic unit -/

theorem Alu.run_toNat (op : AluOp) (x y : UInt8) :
    ((run op x y).result.toNat, (run op x y).carry) =
      Table.alu op.opcode.code x.toNat y.toNat := by
  have hx := x.toNat_lt
  have hy := y.toNat_lt
  cases op with
  | add =>
      refine Prod.ext (UInt8.toNat_add x y) ?_
      simp [run, output, AluOp.opcode, Opcode.code, Table.alu]
      omega
  | sub =>
      refine Prod.ext (run_sub_toNat x y) ?_
      simp [run, output, AluOp.opcode, Opcode.code, Table.alu]
      omega
  | xor => simp [run, output, AluOp.opcode, Opcode.code, Table.alu]
  | xno =>
      simp [run, output, AluOp.opcode, Opcode.code, Table.alu, UInt8.toNat_not]
      omega
  | ior => simp [run, output, AluOp.opcode, Opcode.code, Table.alu]
  | nor =>
      simp [run, output, AluOp.opcode, Opcode.code, Table.alu, UInt8.toNat_not]
  | and => simp [run, output, AluOp.opcode, Opcode.code, Table.alu]
  | nan =>
      simp [run, output, AluOp.opcode, Opcode.code, Table.alu, UInt8.toNat_not]
  | rsh =>
      simp [run, output, AluOp.opcode, Opcode.code, Table.alu, Nat.shiftRight_eq_div_pow]
      omega

theorem extract_lowest (word : Nat) : Field.extract ⟨0, 3⟩ word = word % 8 :=
  congrArg (· % 8) (Nat.div_one word)

def Word.operand (opcode : Opcode) (word : UInt16) (i : Nat) : UInt16 :=
  (operands opcode word).getD i 0

section Operands

variable (opcode : Opcode) (word : UInt16)

theorem Word.operand_toNat (i : Nat) {field : Field} (hcapacity : field.capacity ≤ 1024)
    (hfield : opcode.fields[i]? = some field) :
    (Word.operand opcode word i).toNat = field.extract word.toNat := by
  have hlt : field.extract word.toNat < field.capacity := Nat.mod_lt _ field.capacity_pos
  unfold operand operands
  rw [List.getD_eq_getElem?_getD, List.getElem?_map, hfield, Option.map_some, Option.getD_some,
    UInt16.toNat_ofNat']
  exact Nat.mod_eq_of_lt (Nat.lt_of_lt_of_le hlt (hcapacity.trans (by decide)))

/-- An operand of at most eight bits is the same as a byte. -/
theorem Word.operand_byte (i : Nat) {field : Field} (hcapacity : field.capacity ≤ 256)
    (hfield : opcode.fields[i]? = some field) :
    (Word.operand opcode word i).toUInt8.toNat = field.extract word.toNat := by
  have hlt : field.extract word.toNat < field.capacity := Nat.mod_lt _ field.capacity_pos
  rw [UInt16.toNat_toUInt8, operand_toNat opcode word i (by omega) hfield]
  omega

theorem Word.operand_register (i : Nat) {field : Field} (hcapacity : field.capacity ≤ 8)
    (hfield : opcode.fields[i]? = some field) :
    (Registers.index (Word.operand opcode word i).toUInt8).val = field.extract word.toNat := by
  have hlt : field.extract word.toNat < field.capacity := Nat.mod_lt _ field.capacity_pos
  have hbyte := operand_byte opcode word i (by omega) hfield
  show (Word.operand opcode word i).toUInt8.toNat % 8 = field.extract word.toNat
  omega

theorem Word.operand_port (i : Nat) {field : Field} (hcapacity : field.capacity ≤ 256)
    (hfield : opcode.fields[i]? = some field) :
    (Word.operand opcode word i).toUInt8 = UInt8.ofNat (field.extract word.toNat) := by
  rw [← operand_byte opcode word i hcapacity hfield, UInt8.ofNat_toNat]

end Operands

theorem Instruction.decode_cases (word : UInt16) :
    (26 < word.toNat / 2048 ∧
      decode word = .error (.invalidOpcode (word.toNat / 2048))) ∨
    ∃ opcode : Opcode, opcode.code = word.toNat / 2048 ∧
      decode word = .ok (build opcode (Word.operand opcode word)) := by
  unfold decode Word.decode Word.opcodeBits
  cases h : Opcode.ofCode? (word.toNat / 2 ^ 11) with
  | none => exact .inl ⟨(Opcode.ofCode?_eq_none_iff _).1 h, rfl⟩
  | some opcode => exact .inr ⟨opcode, Opcode.code_of_ofCode? h, rfl⟩

namespace Machine

/-! ## The parts of a machine -/

theorem view_injective : Function.Injective view := by
  intro m n h
  obtain ⟨⟨general, pc, carry, zero, page⟩, ⟨cells⟩, ⟨slots, length⟩, state, cycles⟩ := m
  obtain ⟨⟨general', pc', carry', zero', page'⟩, ⟨cells'⟩, ⟨slots', length'⟩, state', cycles'⟩ := n
  simp only [view, Table.State.mk.injEq] at h
  obtain ⟨hregister, hpc, hcarry, hzero, hpage, hcell, hstack, hhalted, hcycles⟩ := h
  have hgeneral : general = general' := by
    ext i hi
    simpa [hi, UInt8.toNat_inj] using congrFun hregister i
  have hcells : cells = cells' := by
    ext i hi
    simpa [hi, UInt8.toNat_inj] using congrFun hcell i
  have hslots : slots = slots' :=
    (List.map_inj_right fun _ _ => UInt16.toNat_inj.1).1 hstack
  have hstate : state = state' := by
    cases state <;> cases state' <;> simp at hhalted ⊢
  cases hgeneral
  cases hcells
  cases hslots
  cases hstate
  cases UInt16.toNat_inj.1 hpc
  cases hcarry
  cases hzero
  cases UInt8.toNat_inj.1 hpage
  cases UInt64.toNat_inj.1 hcycles
  rfl

/-- Replacing an item of a list of bytes replaces one value of its view. -/
theorem getD_set_eq_update {l : List UInt8} {i : Nat} (value : UInt8) (hi : i < l.length) :
    (fun j => ((l.set i value).getD j 0).toNat) =
      Function.update (fun j => (l.getD j 0).toNat) i value.toNat := by
  funext j
  rw [List.getD_eq_getElem?_getD, List.getElem?_set]
  by_cases hj : i = j
  · subst hj
    rw [if_pos rfl, if_pos hi, Function.update_self]
    rfl
  · rw [if_neg hj, Function.update_of_ne (Ne.symm hj), List.getD_eq_getElem?_getD]

variable (machine : Machine)

/-- The view of a machine whose counter has moved on. -/
def ahead : Table.State :=
  { machine.view with pc := (machine.registers.pc + 1).toNat }

theorem next_toNat (hpc : machine.registers.pc.toNat ≤ 1023) :
    (machine.registers.pc + 1).toNat = machine.registers.pc.toNat + 1 := by
  rw [UInt16.toNat_add]
  simp
  omega

theorem ahead_eq_goto (hpc : machine.registers.pc.toNat ≤ 1023) :
    machine.ahead = machine.view.goto (machine.view.pc + 1) := by
  unfold ahead
  rw [machine.next_toNat hpc]
  rfl

theorem ahead_jump (target : UInt16) :
    (machine.jump target).ahead = machine.view.goto (target.toNat % 1024) := by
  have hpc := machine.registers.advance_jump_pc target
  unfold ahead
  rw [show (machine.jump target).registers.pc + 1 = target &&& 0x3ff from hpc, toNat_slotMask]
  rfl

theorem read_toNat (register : UInt8) :
    (machine.registers.read register).toNat =
      machine.view.register (Registers.index register).val := by
  unfold Registers.read view
  simp
  rfl

theorem ahead_setRegister (register : UInt8) (value : Nat) :
    (machine.setRegister register value).ahead =
      machine.ahead.put (Registers.index register).val value := by
  unfold setRegister Registers.write Table.State.put
  by_cases hzero : Registers.index register = 0
  · have hval : (Registers.index register).val = 0 := congrArg Fin.val hzero
    rw [if_pos hval]
    simp only [hzero, if_true]
  · have hval : (Registers.index register).val ≠ 0 := fun h => hzero (Fin.ext h)
    have hupdate := getD_set_eq_update (l := machine.registers.general.toList) (UInt8.ofNat value)
      (i := (Registers.index register).val) (by simp)
    rw [if_neg hval]
    simp only [hzero, if_false, ahead, view, Vector.toList_set, hupdate, UInt8.toNat_ofNat']

theorem ahead_combine (register : UInt8) (out : AluOutput) :
    { machine with
      registers := (machine.registers.write register out.result.toNat).setFlags out.carry
        out.zero }.ahead =
      { machine.ahead.put (Registers.index register) out.result.toNat with
        carry := out.carry, zero := out.zero } := by
  rw [← ahead_setRegister]
  rfl

theorem ahead_setPage (page : UInt8) :
    { machine with registers := machine.registers.setPage page }.ahead =
      { machine.ahead with page := page.toNat % 8 } := by
  have : (page &&& 7).toNat = page.toNat % 8 := by
    rw [UInt8.toNat_and]
    exact Nat.and_two_pow_sub_one_eq_mod page.toNat 3
  unfold ahead view Registers.setPage
  rw [← this]

theorem offset_toNat (a imm : UInt8) :
    (machine.offset a imm).toNat =
      machine.view.register (Registers.index a).val + imm.toNat := by
  have ha := (machine.registers.read a).toNat_lt
  have himm := imm.toNat_lt
  unfold offset
  rw [UInt16.toNat_add, UInt8.toNat_toUInt16, UInt8.toNat_toUInt16, Nat.mod_eq_of_lt (by omega),
    read_toNat]

theorem pagedAddress_offset (a imm : UInt8) :
    Memory.pagedAddress machine.registers.page (machine.offset a imm) =
      machine.view.address (Registers.index a).val imm.toNat := by
  unfold Memory.pagedAddress Table.State.address
  rw [offset_toNat, ← Nat.add_assoc]
  rfl

theorem memory_read_toNat (address : Nat) :
    (machine.memory.read address).toNat = machine.view.cell (address % 2048) := by
  unfold Memory.read view
  have hlt : address % 2048 < 2048 := Nat.mod_lt _ (by decide)
  simp [Memory.cell, hlt]

theorem readPaged_toNat (a imm : UInt8) :
    (machine.memory.readPaged machine.registers.page (machine.offset a imm)).toNat =
      machine.view.cell (machine.view.address (Registers.index a).val imm.toNat) := by
  unfold Memory.readPaged
  rw [memory_read_toNat, pagedAddress_offset]
  exact congrArg machine.view.cell (Nat.mod_mod ..)

theorem ahead_store (a imm value : UInt8) :
    { machine with
      memory := machine.memory.writePaged machine.registers.page (machine.offset a imm)
        value }.ahead =
      { machine.ahead with
        cell := Function.update machine.view.cell
          (machine.view.address (Registers.index a).val imm.toNat) value.toNat } := by
  have haddress : (Memory.cell (Memory.pagedAddress machine.registers.page
      (machine.offset a imm))).val = machine.view.address (Registers.index a).val imm.toNat := by
    rw [pagedAddress_offset]
    exact Nat.mod_mod ..
  have hinside : machine.view.address (Registers.index a).val imm.toNat <
      machine.memory.cells.toList.length := by
    rw [Vector.length_toList]
    exact Nat.mod_lt _ (by decide)
  have hcell : ({ machine with
      memory := machine.memory.writePaged machine.registers.page (machine.offset a imm)
        value }).view.cell =
      Function.update machine.view.cell
        (machine.view.address (Registers.index a).val imm.toNat) value.toNat := by
    refine Eq.trans ?_ (getD_set_eq_update value hinside)
    simp only [view, Memory.writePaged, Memory.write, Vector.toList_set]
    rw [haddress]
    rfl
  unfold ahead
  rw [← hcell]
  rfl

theorem ahead_jump_stack (target : UInt16) (stack : CallStack) :
    { machine.jump target with stack := stack }.ahead =
      { machine.view.goto (target.toNat % 1024) with
        stack := stack.slots.map UInt16.toNat } := by
  rw [← ahead_jump]
  rfl

theorem ahead_enter (hpc : machine.registers.pc.toNat ≤ 1023) (target : UInt16) :
    (machine.enter target).1.ahead = machine.view.call (target.toNat % 1024) := by
  have hslot : (machine.registers.pc + 1).toNat = machine.view.pc + 1 :=
    congrArg Table.State.pc (machine.ahead_eq_goto hpc)
  have hpush : (machine.stack.push (machine.registers.pc + 1)).slots.map UInt16.toNat =
      (machine.view.pc + 1) % 1024 :: machine.view.stack.dropLast := by
    unfold CallStack.push
    rw [List.map_cons, toNat_slotMask, hslot, List.map_dropLast]
    rfl
  unfold enter Table.State.call
  rw [ahead_jump_stack, hpush]

theorem ahead_leave (hpc : machine.registers.pc.toNat ≤ 1023) :
    machine.leave.1.ahead = machine.view.ret := by
  have hempty : machine.stack.looksEmpty = true ↔ ∀ entry ∈ machine.view.stack, entry = 0 := by
    unfold CallStack.looksEmpty view
    rw [List.all_eq_true, List.forall_mem_map]
    simp only [beq_iff_eq, ← UInt16.toNat_inj]
    rfl
  unfold leave CallStack.pop Table.State.ret
  by_cases h : machine.stack.looksEmpty = true
  · rw [if_pos h, if_pos (hempty.1 h)]
    exact machine.ahead_eq_goto hpc
  · rw [if_neg h, if_neg fun hall => h (hempty.2 hall)]
    rw [ahead_jump_stack, toNat_slotMask, Nat.mod_mod]
    have hhead : (machine.stack.slots.headD 0).toNat = machine.view.stack.headD 0 := by
      unfold view
      cases machine.stack.slots <;> rfl
    have htail : (machine.stack.slots.tail ++ [0]).map UInt16.toNat =
        machine.view.stack.tail ++ [0] := by
      rw [List.map_append, List.map_tail]
      rfl
    rw [hhead, htail]

/-! ## One instruction -/

theorem ahead_alu (hpc : machine.registers.pc.toNat ≤ 1023) (op : AluOp) (a b c : UInt8) :
    (machine.apply (.alu op a b c)).1.ahead =
      (machine.view.goto (machine.view.pc + 1)).combine (Registers.index c)
        (Table.alu op.opcode.code (machine.view.register (Registers.index a))
          (machine.view.register (Registers.index b))) := by
  have hout := Alu.run_toNat op (machine.registers.read a) (machine.registers.read b)
  simp only [read_toNat] at hout
  have hzero (x y : UInt8) :
      (Alu.run op x y).zero = decide ((Alu.run op x y).result.toNat = 0) := by
    have : ∀ r : UInt8, (r == 0) = decide (r.toNat = 0) := by
      intro r
      rw [Bool.eq_iff_iff, beq_iff_eq, decide_eq_true_iff, ← UInt8.toNat_inj]
      rfl
    cases op <;> exact this _
  unfold apply Table.State.combine
  rw [← hout, ← ahead_eq_goto machine hpc, ahead_combine, hzero]

theorem ahead_branch (condition : Condition) (target : UInt16) :
    (machine.apply (.branch condition target)).1.ahead =
      if machine.holds condition then machine.view.goto (target.toNat % 1024)
      else machine.ahead := by
  simp only [apply]
  by_cases h : machine.holds condition = true
  · rw [if_pos h, if_pos h, ahead_jump]
  · rw [if_neg h, if_neg h]

/-- What an instruction leads to if the device answers with the byte `received`. -/
def answered (received : UInt8) : Instruction → Machine
  | .input _ c => machine.setRegister c received.toNat
  | instruction => (machine.apply instruction).1

/-- An instruction that has its answer does what its row says. -/
theorem ahead_answered (hpc : machine.registers.pc.toNat ≤ 1023) {opcode : Opcode} {word : UInt16}
    (hcode : opcode.code = word.toNat / 2048) (hgoes : opcode ≠ .hlt) (received : UInt8) :
    (machine.answered received (.build opcode (Word.operand opcode word))).ahead =
      machine.view.perform word.toNat received.toNat := by
  have hregister := Word.operand_register opcode word
  have hbyte := Word.operand_byte opcode word
  have htarget := Word.operand_toNat opcode word
  have hlow := extract_lowest word.toNat
  have hslot : Field.extract ⟨1, 10⟩ word.toNat % 1024 = word.toNat / 2 % 1024 :=
    Nat.mod_mod ..
  unfold Table.State.perform
  rw [← hcode, ← machine.ahead_eq_goto hpc]
  cases opcode with
  | nop | gpo | bel => rfl
  | hlt => exact absurd rfl hgoes
  | gpi =>
      refine (machine.ahead_setRegister ..).trans ?_
      rw [hregister 1 (by decide) rfl, hlow]
      rfl
  | add | sub | xor | xno | ior | nor | and | nan | rsh =>
      refine (machine.ahead_alu hpc ..).trans ?_
      rw [← machine.ahead_eq_goto hpc, hregister 0 (by decide) rfl, hregister 1 (by decide) rfl,
        hregister 2 (by decide) rfl, hlow]
      rfl
  | adi =>
      refine (machine.ahead_setRegister ..).trans ?_
      rw [read_toNat, hregister 0 (by decide) rfl, hbyte 1 (by decide) rfl, hlow]
      rfl
  | ldi =>
      refine (machine.ahead_setRegister ..).trans ?_
      rw [hregister 0 (by decide) rfl, hbyte 1 (by decide) rfl, hlow]
      rfl
  | jmp =>
      refine (machine.ahead_jump _).trans ?_
      rw [htarget 0 (by decide) rfl, hslot]
      rfl
  | beq | bgt =>
      refine (machine.ahead_branch ..).trans ?_
      rw [htarget 0 (by decide) rfl, hslot]
      rfl
  -- The table tests these two flags the other way round.
  | bne =>
      refine (machine.ahead_branch ..).trans ?_
      rw [htarget 0 (by decide) rfl, hslot]
      unfold holds view
      cases machine.registers.zero <;> rfl
  | blt =>
      refine (machine.ahead_branch ..).trans ?_
      rw [htarget 0 (by decide) rfl, hslot]
      unfold holds view
      cases machine.registers.carry <;> rfl
  | cal =>
      refine (machine.ahead_enter hpc _).trans ?_
      rw [htarget 0 (by decide) rfl, hslot]
      rfl
  | ret => exact machine.ahead_leave hpc
  | rea =>
      refine (machine.ahead_setRegister ..).trans ?_
      rw [readPaged_toNat, hregister 0 (by decide) rfl, hbyte 1 (by decide) rfl,
        hregister 2 (by decide) rfl, hlow]
      rfl
  | sto =>
      refine (machine.ahead_store ..).trans ?_
      rw [read_toNat, hregister 0 (by decide) rfl, hbyte 1 (by decide) rfl,
        hregister 2 (by decide) rfl, hlow]
      rfl
  | pas =>
      refine (machine.ahead_setPage _).trans ?_
      rw [UInt8.toNat_or, read_toNat, hbyte 0 (by decide) rfl, hregister 1 (by decide) rfl]
      rfl
  | pag =>
      refine (machine.ahead_setRegister ..).trans ?_
      rw [hregister 0 (by decide) rfl, hlow]
      rfl

section Device

variable {δ : Type} [Ports δ] (device : δ)

/-- What an instruction asks of the device: the answer, 0 if there is none, and the device. -/
def asked (instruction : Instruction) : Except PortError UInt8 × δ :=
  match instruction.request? with
  | some (.input port _) => Ports.input device port
  | some (.output c port) =>
      let sent := Ports.output device port (machine.registers.read c)
      (sent.1.map fun _ => 0, sent.2)
  | some .bell => ((Ports.bell device).1.map fun _ => 0, (Ports.bell device).2)
  | none => (.ok 0, device)

theorem ask_eq_asked {opcode : Opcode} {word : UInt16}
    (hcode : opcode.code = word.toNat / 2048) :
    Table.ask machine.view device word.toNat =
      machine.asked device (.build opcode (Word.operand opcode word)) := by
  have hport := Word.operand_port opcode word
  have hfield : word.toNat / 8 % 8 = Field.extract ⟨3, 3⟩ word.toNat := rfl
  unfold Table.ask
  rw [← hcode]
  cases opcode with
  | gpi =>
      rw [hfield, ← hport 0 (by decide) rfl]
      rfl
  | gpo =>
      have hvalue : UInt8.ofNat (machine.view.register (word.toNat / 64 % 8)) =
          machine.registers.read (Word.operand .gpo word 0).toUInt8 := by
        have hindex : (Registers.index (Word.operand .gpo word 0).toUInt8).val =
            word.toNat / 64 % 8 := Word.operand_register .gpo word 0 (by decide) rfl
        rw [← hindex, ← read_toNat, UInt8.ofNat_toNat]
      rw [hvalue, hfield, ← hport 1 (by decide) rfl]
      rfl
  | _ => rfl

/-- Carrying out an instruction is asking the device and doing what the answer says. -/
theorem execute_eq_answered (instruction : Instruction) :
    let done := machine.execute device instruction
    match machine.asked device instruction with
    | (.error e, after) => done.result = .error (.port e) ∧ done.device = after
    | (.ok received, after) =>
        done.result = .ok () ∧ done.device = after ∧
          done.machine = machine.answered received instruction := by
  cases instruction with
  | input port c =>
      simp only [execute, Instruction.request?, perform, asked]
      cases hanswer : Ports.input device port with
      | mk answer after =>
          cases answer with
          | error e => exact ⟨rfl, rfl⟩
          | ok value => exact ⟨rfl, rfl, rfl⟩
  | output c port =>
      simp only [execute, Instruction.request?, perform, asked]
      cases (Ports.output device port (machine.registers.read c)).1 with
      | error e => exact ⟨rfl, rfl⟩
      | ok done => exact ⟨rfl, rfl, rfl⟩
  | bell =>
      simp only [execute, Instruction.request?, perform, asked]
      cases (Ports.bell device).1 with
      | error e => exact ⟨rfl, rfl⟩
      | ok done => exact ⟨rfl, rfl, rfl⟩
  | _ => exact ⟨rfl, rfl, rfl⟩

/-- Carrying out an instruction asks the device what its row says, and then does it. -/
theorem execute_table (hpc : machine.registers.pc.toNat ≤ 1023) {opcode : Opcode} {word : UInt16}
    (hcode : opcode.code = word.toNat / 2048) (hgoes : opcode ≠ .hlt) :
    let done := machine.execute device (.build opcode (Word.operand opcode word))
    match Table.ask machine.view device word.toNat with
    | (.error e, after) => done.result = .error (.port e) ∧ done.device = after
    | (.ok received, after) =>
        done.result = .ok () ∧ done.device = after ∧
          done.machine.ahead = machine.view.perform word.toNat received.toNat := by
  have hdone := machine.execute_eq_answered device (.build opcode (Word.operand opcode word))
  rw [machine.ask_eq_asked device hcode]
  cases hasked : machine.asked device (.build opcode (Word.operand opcode word)) with
  | mk answer after =>
      rw [hasked] at hdone
      cases answer with
      | error e => exact hdone
      | ok received =>
          obtain ⟨hresult, hafter, hmachine⟩ := hdone
          refine ⟨hresult, hafter, ?_⟩
          rw [hmachine, machine.ahead_answered hpc hcode hgoes]

end Device

/-! ## A whole step -/

theorem exists_fetch_eq (hpc : machine.registers.pc.toNat ≤ 1023) :
    ∃ word, machine.memory.fetch machine.registers.pc = .ok word ∧
      word.toNat = machine.view.word := by
  obtain ⟨word, hfetch, hbytes⟩ := machine.memory.exists_fetch_eq_ok (Nat.lt_succ_of_le hpc)
  refine ⟨word, hfetch, ?_⟩
  rw [hbytes, memory_read_toNat, memory_read_toNat]
  rfl

theorem cycles_add_one_toNat (hcycles : machine.cycles.toNat < UInt64.size - 1) :
    (machine.cycles + 1).toNat = machine.cycles.toNat + 1 := by
  have hsize : UInt64.size = 18446744073709551616 := rfl
  rw [UInt64.toNat_add]
  exact Nat.mod_eq_of_lt (by simp; omega)

theorem view_complete {instruction : Instruction} (hgoes : instruction ≠ .halt)
    (hcycles : machine.cycles.toNat < UInt64.size - 1) :
    (machine.complete instruction).1.view =
      { machine.ahead with
        cycles := machine.ahead.cycles + 1
        halted := machine.ahead.halted || 1024 ≤ machine.ahead.pc } := by
  have hcount := machine.cycles_add_one_toNat hcycles
  by_cases hend : 1024 ≤ (machine.registers.pc + 1).toNat <;>
    simp [complete, hgoes, atEnd, Registers.advance, Memory.slotCount, view, ahead, hcount, hend,
      -UInt16.toNat_add]

theorem view_complete_halt (hcycles : machine.cycles.toNat < UInt64.size - 1) :
    (machine.complete .halt).1.view =
      { machine.view with cycles := machine.view.cycles + 1, halted := true } := by
  unfold complete view
  simp [machine.cycles_add_one_toNat hcycles]

section Device

variable {δ : Type} [Ports δ] (device : δ)

/--
A step of a running machine is the row of its word: an error for a word that has none, an
error if the device fails, and otherwise the next state of the table in every part.
-/
theorem step_eq_table (hrun : machine.state = .running)
    (hpc : machine.registers.pc.toNat ≤ 1023) (hcycles : machine.cycles.toNat < UInt64.size - 1) :
    let word := machine.view.word
    let done := machine.step device
    if 26 < word / 2048 then
      done.result = .error (.decode (.invalidOpcode (word / 2048))) ∧
        done.machine = machine ∧ done.device = device
    else
      match Table.ask machine.view device word with
      | (.error e, after) =>
          done.result = .error (.port e) ∧ done.machine = machine ∧ done.device = after
      | (.ok received, after) =>
          (∃ instruction, done.result = .ok instruction) ∧ done.device = after ∧
            done.machine.view = machine.view.next word received.toNat := by
  intro word done
  obtain ⟨fetched, hfetch, hword⟩ := machine.exists_fetch_eq hpc
  change fetched.toNat = word at hword
  clear_value word
  subst hword
  rcases Instruction.decode_cases fetched with ⟨hbig, hdecode⟩ | ⟨opcode, hcode, hdecode⟩
  · have hcurrent : machine.current =
        .error (.decode (.invalidOpcode (fetched.toNat / 2048))) := by
      simp only [current, hfetch, hdecode]
      rfl
    have hdone : done = _ := step_of_current_error hrun hcurrent
    rw [if_pos hbig, hdone]
    exact ⟨rfl, rfl, rfl⟩
  · have hsmall : ¬ 26 < fetched.toNat / 2048 := by
      have := opcode.code_lt
      omega
    have hcurrent := current_eq_ok hfetch hdecode
    rw [if_neg hsmall]
    by_cases hhalt : opcode = .hlt
    · subst hhalt
      have hask : Table.ask machine.view device fetched.toNat = (.ok 0, device) := by
        unfold Table.ask
        rw [← hcode]
        rfl
      have hdone : done = _ := step_of_execute_ok hrun hcurrent rfl
      rw [hask, hdone]
      refine ⟨⟨_, rfl⟩, rfl, ?_⟩
      refine (machine.view_complete_halt hcycles).trans ?_
      unfold Table.State.next Table.State.perform
      rw [← hcode]
      rfl
    · have hexecute := machine.execute_table device hpc hcode hhalt
      have hgoes : Instruction.build opcode (Word.operand opcode fetched) ≠ .halt := by
        intro h
        have hopcode := congrArg Instruction.opcode h
        rw [Instruction.opcode_build] at hopcode
        exact hhalt hopcode
      cases hask : Table.ask machine.view device fetched.toNat with
      | mk answer after =>
          rw [hask] at hexecute
          cases answer with
          | error e =>
              obtain ⟨hresult, hdevice⟩ := hexecute
              have hdone : done = _ := step_of_execute_error hrun hcurrent hresult
              rw [hdone]
              exact ⟨rfl, rfl, hdevice⟩
          | ok received =>
              obtain ⟨hresult, hdevice, hrow⟩ := hexecute
              have hdone : done = _ := step_of_execute_ok hrun hcurrent hresult
              have hsame : (machine.execute device
                  (.build opcode (Word.operand opcode fetched))).machine.cycles.toNat =
                  machine.cycles.toNat := by
                have := congrArg Table.State.cycles hrow
                rwa [Table.State.perform_cycles] at this
              rw [hdone]
              refine ⟨⟨_, rfl⟩, hdevice, ?_⟩
              refine (view_complete _ hgoes (by omega)).trans ?_
              rw [hrow]
              rfl

end Device

/-- A jump from slot 0 to slot 0, the counter being biased to 65535 on the way. -/
theorem step_eq_table_jump_zero :
    let machine := { initial with memory := Memory.empty.write 1 0x68 }
    machine.state = .running ∧ machine.registers.pc.toNat ≤ 1023 ∧
      machine.cycles.toNat < UInt64.size - 1 ∧ machine.view.word / 2048 = Opcode.jmp.code ∧
      (machine.step (Script.ofInputs [])).machine.view = machine.view.next 0x6800 0 ∧
      (machine.view.next 0x6800 0).pc = 0 := by
  intro machine
  have hword : machine.view.word = 0x6800 := by decide +kernel
  have htable := machine.step_eq_table (Script.ofInputs []) rfl (by decide) (by decide)
  rw [hword] at htable ⊢
  exact ⟨rfl, by decide, by decide, rfl, htable.2.2, rfl⟩

end Machine

end Redstone

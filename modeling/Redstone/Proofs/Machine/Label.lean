import Redstone.Ports.Script
import Redstone.Proofs.Machine.Code

/-!
# Where a jump to a label goes

A jump whose operand names a label goes to the instruction behind the label. The
number of a label passes through the counter of the first pass, the symbol table, the
operand field, the word in memory and the biased counter of the machine; only the
first of these may change it, since a slot number has ten bits.
-/

namespace Redstone

namespace Machine

variable (machine : Machine)

def Jumps : Opcode → Prop
  | .jmp | .cal => True
  | .beq => machine.registers.zero = true
  | .bne => machine.registers.zero = false
  | .bgt => machine.registers.carry = true
  | .blt => machine.registers.carry = false
  | _ => False

variable {machine}

/-- A jump that is taken goes to its operand, of which ten bits are kept. -/
theorem registers_apply_of_jumps {instruction : Instruction}
    (hjumps : machine.Jumps instruction.opcode) {target : UInt16}
    (hoperands : instruction.operands = [target]) :
    instruction.request? = none ∧ instruction ≠ .halt ∧
      (machine.apply instruction).1.registers = machine.registers.jump target := by
  cases instruction with
  | jump slot =>
      cases hoperands
      exact ⟨rfl, nofun, rfl⟩
  | call slot =>
      cases hoperands
      exact ⟨rfl, nofun, rfl⟩
  | branch condition slot =>
      cases hoperands
      have hholds : machine.holds condition = true := by
        unfold holds
        cases condition with
        | zero => exact hjumps
        | notZero =>
            have hzero : machine.registers.zero = false := hjumps
            rw [hzero]
            rfl
        | carry => exact hjumps
        | notCarry =>
            have hcarry : machine.registers.carry = false := hjumps
            rw [hcarry]
            rfl
      refine ⟨rfl, nofun, ?_⟩
      simp only [apply, if_pos hholds]
      rfl
  | alu op a b c => cases op <;> cases hjumps
  | _ => cases hjumps

theorem pc_step_of_jumps (hrunning : machine.state = .running) {instruction : Instruction}
    (hcurrent : machine.current = .ok instruction) (hjumps : machine.Jumps instruction.opcode)
    {target : UInt16} (hoperands : instruction.operands = [target]) {δ : Type} [Ports δ]
    (device : δ) :
    (machine.step device).result = .ok instruction ∧
      (machine.step device).machine.registers.pc = target &&& 0x3ff := by
  obtain ⟨hrequest, hgoes, hregisters⟩ := registers_apply_of_jumps hjumps hoperands
  have hexecute : machine.execute device instruction =
      ⟨.ok (), (machine.apply instruction).1, device, (machine.apply instruction).2⟩ := by
    simp only [execute, hrequest]
  rw [step_of_execute_ok hrunning hcurrent (by rw [hexecute]), hexecute]
  refine ⟨rfl, ?_⟩
  show ((machine.apply instruction).1.complete instruction).1.registers.pc = target &&& 0x3ff
  rw [registers_complete _ hgoes, hregisters]
  exact Registers.advance_jump_pc machine.registers target

theorem Jumps.fields_eq {opcode : Opcode} (hjumps : machine.Jumps opcode) :
    opcode.fields = [⟨1, 10⟩] := by
  cases opcode with
  | jmp | cal | beq | bne | bgt | blt => rfl
  | _ => cases hjumps

end Machine

/-- The operand of a jump to a label has the number that the first pass gave it. -/
theorem operands_of_label {source : String} {image : Image} {program : Program}
    (hassemble : assemble source = .ok image) (hreads : Reads source program)
    {before after : Program} {name : String} (hlabel : program = before ++ .label name :: after)
    {opcode : Opcode} (hfields : opcode.fields = [⟨1, 10⟩]) {text other : String}
    (hname : Operand.ofText text = .ok (.alias other)) (hsame : SameName other name)
    {values : List UInt16} (resolves : Resolves program opcode [text] values) :
    values = [Session.labelIndex before.slotCount] := by
  have hexpand : opcode.expand [text] = [text] := Opcode.expand_of_length (by rw [hfields]; rfl)
  have hdenote := resolves.denote
  rw [hexpand] at hdenote
  cases hdenote with
  | @cons _ value _ _ hvalue hrest =>
      cases hrest
      have hstands : Denotes program text (min before.slotCount 1023 : Nat) :=
        .name hname (.label hlabel hsame)
      have heq := denotes_unique_of_assemble hassemble hreads hvalue hstands
      have hvalue : value = Session.labelIndex before.slotCount := by
        rw [← UInt16.toNat_inj, Session.labelIndex_toNat]
        exact Int.ofNat.inj heq
      rw [hvalue]

/-- A jump that is taken goes to the number that the first pass gave to its label. -/
theorem pc_step_of_label {source : String} {image : Image} {program : Program}
    (hassemble : assemble source = .ok image) (hreads : Reads source program)
    {before after : Program} {name : String} (hlabel : program = before ++ .label name :: after)
    {machine : Machine} (hrunning : machine.state = .running)
    (holds : machine.memory.HoldsSlot image.bytes machine.registers.pc.toNat)
    {opcode : Opcode} {text other : String}
    (hline : program.instructions[machine.registers.pc.toNat]? = some (opcode, [text]))
    (hname : Operand.ofText text = .ok (.alias other)) (hsame : SameName other name)
    (hjumps : machine.Jumps opcode) {δ : Type} [Ports δ] (device : δ) :
    (∃ instruction, (machine.step device).result = .ok instruction) ∧
      (machine.step device).machine.registers.pc = Session.labelIndex before.slotCount := by
  obtain ⟨same, reads, _, hsize, encodes, _⟩ := (assemble_eq_ok_iff source image).1 hassemble
  cases reads.unique hreads
  obtain ⟨word, instruction, hfetch, hdecode, hopcode, resolves⟩ :=
    encodes.exists_fetch_eq hsize holds hline
  have htarget := operands_of_label hassemble hreads hlabel hjumps.fields_eq hname hsame resolves
  have hcurrent := Machine.current_eq_ok hfetch hdecode
  obtain ⟨hresult, hpc⟩ :=
    Machine.pc_step_of_jumps hrunning hcurrent (by rw [hopcode]; exact hjumps) htarget device
  refine ⟨⟨instruction, hresult⟩, ?_⟩
  have hlow : (Session.labelIndex before.slotCount).toNat ≤ 1023 := by
    rw [Session.labelIndex_toNat]
    omega
  -- The first pass has clamped the number, so the ten bits of a slot hold it.
  rw [hpc, ← UInt16.toNat_inj, toNat_slotMask]
  omega

/--
A jump to a label that is taken goes to the slot whose number is the number of instruction
lines in front of the label; behind the last of 1024 instructions there is no such slot, and
the jump goes to slot 1023.
-/
theorem pc_of_jump_to_label {source : String} {image : Image} {program : Program}
    (hassemble : assemble source = .ok image) (hreads : Reads source program)
    {before after : Program} {name : String} (hlabel : program = before ++ .label name :: after)
    {machine : Machine} (hrunning : machine.state = .running)
    (holds : machine.memory.HoldsSlot image.bytes machine.registers.pc.toNat)
    {opcode : Opcode} {text other : String}
    (hline : program.instructions[machine.registers.pc.toNat]? = some (opcode, [text]))
    (hname : Operand.ofText text = .ok (.alias other)) (hsame : SameName other name)
    (hjumps : machine.Jumps opcode) {δ : Type} [Ports δ] (device : δ) :
    (∃ instruction, (machine.step device).result = .ok instruction) ∧
      before.slotCount ≤ 1024 ∧
      (machine.step device).machine.registers.pc.toNat =
        if before.slotCount = 1024 then 1023 else before.slotCount := by
  obtain ⟨hresult, hpc⟩ := pc_step_of_label hassemble hreads hlabel hrunning holds hline hname
    hsame hjumps device
  obtain ⟨same, reads, _, hsize, _⟩ := (assemble_eq_ok_iff source image).1 hassemble
  cases reads.unique hreads
  have hcount : before.slotCount ≤ program.slotCount := by
    rw [hlabel, Program.slotCount_append]
    omega
  have hsmall : before.slotCount ≤ 1024 := by
    unfold Program.size at hsize
    omega
  refine ⟨hresult, hsmall, ?_⟩
  rw [hpc, Session.labelIndex_toNat]
  split <;> omega

/-- A program that jumps to its own first slot, where its label is. -/
theorem pc_of_jump_to_label_loop :
    ∃ image loaded events, assemble "loop:\nJMP loop" = .ok image ∧
      Machine.initial.load image.bytes = .ok (loaded, events) ∧ loaded.state = .running ∧
      loaded.memory.HoldsSlot image.bytes 0 ∧ Operand.ofText "loop" = .ok (.alias "loop") ∧
      loaded.Jumps .jmp ∧
      (loaded.step (Script.ofInputs [])).machine.registers.pc.toNat = 0 := by
  obtain ⟨image, hassemble⟩ := exists_loop_image
  obtain ⟨loaded, events, hload, hrunning, hregisters, hslots⟩ :=
    Machine.exists_initial_load_eq hassemble reads_loopProgram
  have hpc : loaded.registers.pc.toNat = 0 := by
    rw [hregisters]
    rfl
  have holds := hslots loaded .start 0 (by decide)
  have hname : Operand.ofText "loop" = .ok (.alias "loop") := by decide
  have hlabel : loopProgram = [] ++ .label "loop" :: [.instruction .jmp ["loop"]] := rfl
  have hline : loopProgram.instructions[loaded.registers.pc.toNat]? = some (.jmp, ["loop"]) := by
    rw [hpc]
    rfl
  rw [← hpc] at holds
  obtain ⟨_, _, hstep⟩ := pc_of_jump_to_label hassemble reads_loopProgram hlabel hrunning holds
    hline hname rfl trivial (Script.ofInputs [])
  rw [hpc] at holds
  exact ⟨image, loaded, events, hassemble, hload, hrunning, holds, hname, trivial, hstep⟩

/-! ## A label behind a full program -/

def jumpOver (count : Nat) : Program :=
  .instruction .jmp ["end"] :: List.replicate count (.instruction .nop [])

def jumpOverLines (count : Nat) : List String :=
  "JMP end" :: List.replicate count "NOP" ++ ["end:"]

def jumpOverSource (count : Nat) : String :=
  String.join ((jumpOverLines count).map (· ++ "\n"))

theorem instructions_jumpOver (count : Nat) :
    (jumpOver count).instructions = (.jmp, ["end"]) :: List.replicate count (.nop, []) := by
  have hnops : (List.replicate count (Line.instruction .nop [])).filterMap Line.instruction? =
      List.replicate count (.nop, []) := List.filterMap_replicate_of_some rfl
  unfold jumpOver Program.instructions
  rw [← hnops]
  rfl

theorem slotCount_jumpOver (count : Nat) : (jumpOver count).slotCount = count + 1 := by
  unfold Program.slotCount
  rw [instructions_jumpOver, List.length_cons, List.length_replicate]

theorem reads_jumpOverSource (count : Nat) :
    Reads (jumpOverSource count) (jumpOver count ++ [.label "end"]) := by
  have hmem (text : String) (member : text ∈ jumpOverLines count) :
      text = "JMP end" ∨ text = "NOP" ∨ text = "end:" := by
    simp only [jumpOverLines, List.cons_append, List.mem_cons, List.mem_append,
      List.mem_replicate, List.not_mem_nil, or_false] at member
    tauto
  have hplain : ∀ text ∈ jumpOverLines count, '\n' ∉ text.toList := by
    intro text member
    rcases hmem text member with rfl | rfl | rfl <;> decide
  have hended : ∀ text ∈ jumpOverLines count, text.toList.getLast? ≠ some '\r' := by
    intro text member
    rcases hmem text member with rfl | rfl | rfl <;> decide
  have hjump : Session.LineSpells "JMP end" (.instruction .jmp ["end"]) := by
    have htokens : (Token.ofLine "JMP end").map Token.text = ["JMP", "end"] := by decide
    unfold Session.LineSpells
    rw [htokens]
    exact .instruction (by decide) (by decide) (.inl rfl)
  have hnop : Session.LineSpells "NOP" (.instruction .nop []) := by
    have htokens : (Token.ofLine "NOP").map Token.text = ["NOP"] := by decide
    unfold Session.LineSpells
    rw [htokens]
    exact .instruction (by decide) (by decide) (.inl rfl)
  have hlabel : Session.LineSpells "end:" (.label "end") := by
    have htokens : (Token.ofLine "end:").map Token.text = ["end:"] := by decide
    unfold Session.LineSpells
    rw [htokens]
    exact .label 0 (by decide) (by decide)
  have hnops (n : Nat) : List.Forall₂ Session.LineSpells (List.replicate n "NOP")
      (List.replicate n (.instruction .nop [])) := by
    induction n with
    | zero => exact .nil
    | succ n ih => exact .cons hnop ih
  exact .of_lines hplain hended (List.rel_append (.cons hjump (hnops count)) (.cons hlabel .nil))

theorem legalName_end : LegalName "end" where
  nonempty := by decide
  not_digits := ⟨'e', .head _, rfl⟩
  not_character c _ _ h := by
    have hfirst : 'e' = '\'' := congrArg (List.headD · 'e') h
    exact absurd hfirst (by decide)
  not_builtin number h := by
    obtain ⟨_, kind, _, hsame⟩ := h
    have hlength := congrArg List.length hsame
    simp at hlength

theorem exists_instruction_of_mem_jumpOver {count : Nat} {line : Line}
    (hmem : line ∈ jumpOver count) : ∃ opcode operands, line = .instruction opcode operands := by
  unfold jumpOver at hmem
  rcases List.mem_cons.1 hmem with rfl | hmem
  · exact ⟨_, _, rfl⟩
  · rw [List.eq_of_mem_replicate hmem]
    exact ⟨_, _, rfl⟩

theorem valid_jumpOver (count : Nat) : Program.Valid (jumpOver count ++ [.label "end"]) := by
  have hend : Denotes (jumpOver count ++ [.label "end"]) "end" (min (count + 1) 1023 : Nat) := by
    rw [← slotCount_jumpOver]
    exact .name (by decide) (.label rfl rfl)
  rw [Program.valid_iff, Program.declarableFrom_append]
  refine ⟨⟨?_, ?_, trivial⟩, ?_⟩
  · rw [Program.declarableFrom_iff]
    intro before line after hsplit
    obtain ⟨opcode, operands, rfl⟩ :=
      exists_instruction_of_mem_jumpOver (hsplit ▸ List.mem_append_cons_self)
    exact trivial
  · refine ⟨legalName_end, fun line hmem other hname => ?_⟩
    obtain ⟨opcode, operands, rfl⟩ := exists_instruction_of_mem_jumpOver hmem
    cases hname
  · intro instruction hmem
    rw [Program.instructions_append, instructions_jumpOver] at hmem
    rcases List.mem_append.1 hmem with hcode | hnone
    · rcases List.mem_cons.1 hcode with rfl | hnop
      · exact .cons ⟨_, hend, Nat.min_le_right ..⟩ .nil
      · rw [List.eq_of_mem_replicate hnop]
        exact .nil
    · cases hnone

theorem size_jumpOver (count : Nat) :
    Program.size (jumpOver count ++ [.label "end"]) = 2 * (count + 1) := by
  have hdata : Program.data (jumpOver count ++ [.label "end"]) = [] := by
    refine List.filterMap_eq_nil_iff.2 fun line hmem => ?_
    rcases List.mem_append.1 hmem with hcode | hlabel
    · obtain ⟨opcode, operands, rfl⟩ := exists_instruction_of_mem_jumpOver hcode
      rfl
    · rw [List.mem_singleton.1 hlabel]
      rfl
  unfold Program.size Program.varCount
  rw [Program.slotCount_append, slotCount_jumpOver, hdata]
  rfl

/--
A full program with a label behind its last instruction: 1024 instructions lie in front of the
label, but the jump to it goes to slot 1023.
-/
theorem pc_of_jump_behind_full_program :
    ∃ image loaded events, assemble (jumpOverSource 1023) = .ok image ∧
      Reads (jumpOverSource 1023) (jumpOver 1023 ++ .label "end" :: []) ∧
      (jumpOver 1023).slotCount = 1024 ∧
      Machine.initial.load image.bytes = .ok (loaded, events) ∧ loaded.state = .running ∧
      loaded.registers.pc = 0 ∧
      Program.instructions (jumpOver 1023 ++ [.label "end"]) =
        (.jmp, ["end"]) :: List.replicate 1023 (.nop, []) ∧
      (∃ instruction, (loaded.step (Script.ofInputs [])).result = .ok instruction) ∧
      (loaded.step (Script.ofInputs [])).machine.registers.pc.toNat = 1023 ∧
      (loaded.step (Script.ofInputs [])).machine.registers.pc.toNat ≠
        (jumpOver 1023).slotCount := by
  have hreads := reads_jumpOverSource 1023
  have hcount := slotCount_jumpOver 1023
  have hsize : Program.size (jumpOver 1023 ++ [.label "end"]) ≤ 2048 := by
    have := size_jumpOver 1023
    omega
  obtain ⟨image, hassemble⟩ := exists_assemble_eq_ok hreads (valid_jumpOver 1023) hsize
  obtain ⟨loaded, events, hload, hrunning, hregisters, hslots⟩ :=
    Machine.exists_initial_load_eq hassemble hreads
  have hpc : loaded.registers.pc = 0 := by
    rw [hregisters]
    rfl
  have hcode : Program.instructions (jumpOver 1023 ++ [.label "end"]) =
      (.jmp, ["end"]) :: List.replicate 1023 (.nop, []) := by
    rw [Program.instructions_append, instructions_jumpOver]
    exact List.append_nil _
  have holds : loaded.memory.HoldsSlot image.bytes loaded.registers.pc.toNat := by
    rw [hpc]
    refine hslots loaded .start 0 ?_
    rw [Program.slotCount_append, hcount]
    omega
  have hline : (Program.instructions (jumpOver 1023 ++ [.label "end"]))[
      loaded.registers.pc.toNat]? = some (.jmp, ["end"]) := by
    rw [hpc, hcode]
    rfl
  obtain ⟨hresult, hstep⟩ := pc_step_of_label hassemble hreads rfl hrunning holds hline
    (by decide) rfl trivial (Script.ofInputs [])
  have hslot : (loaded.step (Script.ofInputs [])).machine.registers.pc.toNat = 1023 := by
    rw [hstep, Session.labelIndex_toNat, hcount]
    rfl
  refine ⟨image, loaded, events, hassemble, hreads, hcount, hload, hrunning, hpc, hcode, hresult,
    hslot, ?_⟩
  rw [hslot, hcount]
  decide

end Redstone

import Redstone.Machine.Step

/-!
# The ways a step can go

A halted machine stays as it is; so does a running one whose slot holds no
instruction, or whose instruction fails at the device. Otherwise the instruction is
carried out and the counter moves on. The laws behind these four say which parts of
the machine an instruction leaves alone.
-/

namespace Redstone

namespace Machine

variable {machine : Machine} {δ : Type} [Ports δ] {device : δ} {instruction : Instruction}
  {fault : Fault}

theorem step_of_halted (hhalted : machine.state = .halted) :
    machine.step device = ⟨.error .notRunning, machine, device, []⟩ :=
  if_pos hhalted

theorem ne_halted_of_running (hrunning : machine.state = .running) : machine.state ≠ .halted := by
  rw [hrunning]
  decide

theorem step_of_current_error (hrunning : machine.state = .running)
    (hcurrent : machine.current = .error fault) :
    machine.step device = ⟨.error fault, machine, device, []⟩ := by
  simp only [step, ne_halted_of_running hrunning, if_false, hcurrent]

theorem step_of_execute_error (hrunning : machine.state = .running)
    (hcurrent : machine.current = .ok instruction)
    (hresult : (machine.execute device instruction).result = .error fault) :
    machine.step device = ⟨.error fault, machine, (machine.execute device instruction).device,
      (machine.execute device instruction).events⟩ := by
  simp only [step, ne_halted_of_running hrunning, if_false, hcurrent, hresult,
    machine_execute_of_error hresult]

theorem step_of_execute_ok (hrunning : machine.state = .running)
    (hcurrent : machine.current = .ok instruction)
    (hresult : (machine.execute device instruction).result = .ok ()) :
    machine.step device =
      ⟨.ok instruction,
        ((machine.execute device instruction).machine.complete instruction).1,
        (machine.execute device instruction).device,
        (machine.execute device instruction).events ++
          ((machine.execute device instruction).machine.complete instruction).2⟩ := by
  simp only [step, ne_halted_of_running hrunning, if_false, hcurrent, hresult]

theorem current_eq_ok {word : UInt16}
    (hfetch : machine.memory.fetch machine.registers.pc = .ok word)
    (hdecode : Instruction.decode word = .ok instruction) :
    machine.current = .ok instruction := by
  simp only [current, hfetch, hdecode]
  rfl

theorem current_of_bytes {low high : UInt8} (hslot : machine.registers.pc.toNat < 1024)
    (hlow : machine.memory.read (2 * machine.registers.pc.toNat) = low)
    (hhigh : machine.memory.read (2 * machine.registers.pc.toNat + 1) = high)
    (hdecode : Instruction.decode (Word.ofBytes low high) = .ok instruction) :
    machine.current = .ok instruction := by
  refine current_eq_ok ?_ hdecode
  rw [← hlow, ← hhigh]
  exact if_pos hslot

/-! ## Failing at the device -/

theorem current_ne_port (machine : Machine) (e : PortError) :
    machine.current ≠ .error (.port e) := by
  unfold current
  cases machine.memory.fetch machine.registers.pc with
  | error e' => nofun
  | ok word =>
      show (Instruction.decode word).mapError Fault.decode ≠ _
      cases Instruction.decode word with
      | error e' => nofun
      | ok instruction => nofun

theorem exists_port_of_mapError {answer : Except PortError Unit}
    (hanswer : answer.mapError Fault.port = .error fault) : ∃ e, fault = .port e := by
  cases answer with
  | ok done => cases hanswer
  | error e =>
      cases hanswer
      exact ⟨e, rfl⟩

theorem exists_port_of_perform_error {request : Request}
    (hresult : (machine.perform device request).result = .error fault) :
    ∃ e, fault = .port e := by
  unfold perform at hresult
  cases request with
  | input port c =>
      cases hinput : (Ports.input device port).1 <;> simp [hinput] at hresult
      exact ⟨_, hresult.symm⟩
  | output c port => exact exists_port_of_mapError hresult
  | bell => exact exists_port_of_mapError hresult

theorem exists_port_of_execute_error
    (hresult : (machine.execute device instruction).result = .error fault) :
    ∃ e, fault = .port e := by
  unfold execute at hresult
  cases hrequest : instruction.request? with
  | none => simp [hrequest] at hresult
  | some request =>
      simp only [hrequest] at hresult
      exact exists_port_of_perform_error hresult

/-- An instruction that is fetched and decoded fails only if the device does. -/
theorem exists_port_of_step_error (hrunning : machine.state = .running)
    (hcurrent : machine.current = .ok instruction)
    (hstep : (machine.step device).result = .error fault) : ∃ e, fault = .port e := by
  cases hresult : (machine.execute device instruction).result with
  | ok done =>
      rw [step_of_execute_ok hrunning hcurrent hresult] at hstep
      cases hstep
  | error e =>
      rw [step_of_execute_error hrunning hcurrent hresult] at hstep
      cases hstep
      exact exists_port_of_execute_error hresult

/-! ## What an instruction can change -/

section Frame

variable (machine) (device)

theorem exists_leave_eq : ∃ registers stack,
    machine.leave.1 = { machine with registers := registers, stack := stack } := by
  unfold leave
  cases machine.stack.pop with
  | none => exact ⟨machine.registers, machine.stack, rfl⟩
  | some popped => exact ⟨_, _, rfl⟩

theorem exists_perform_eq (request : Request) : ∃ registers,
    (machine.perform device request).machine = { machine with registers := registers } := by
  cases request with
  | input port c =>
      unfold perform
      cases hanswer : (Ports.input device port).1 with
      | error e => exact ⟨machine.registers, by simp only [hanswer]⟩
      | ok value =>
          refine ⟨machine.registers.write c value.toNat, ?_⟩
          simp only [hanswer]
          rfl
  | output c port => exact ⟨machine.registers, rfl⟩
  | bell => exact ⟨machine.registers, rfl⟩

/-- An instruction changes the registers and the stack, and memory only if it is a store. -/
theorem exists_execute_eq (instruction : Instruction) : ∃ registers stack,
    (machine.execute device instruction).machine =
      { machine with
        registers := registers
        stack := stack
        memory := match instruction with
          | .store a imm c =>
              machine.memory.writePaged machine.registers.page (machine.offset a imm)
                (machine.registers.read c)
          | _ => machine.memory } := by
  cases instruction with
  | input port c =>
      obtain ⟨registers, hperform⟩ := machine.exists_perform_eq device (.input port c)
      exact ⟨registers, machine.stack, hperform⟩
  | branch condition target =>
      simp only [execute, Instruction.request?, apply]
      by_cases hholds : machine.holds condition = true
      · rw [if_pos hholds]
        exact ⟨_, _, rfl⟩
      · rw [if_neg hholds]
        exact ⟨machine.registers, machine.stack, rfl⟩
  | ret => exact machine.exists_leave_eq
  | _ => exact ⟨_, _, rfl⟩

theorem memory_execute (instruction : Instruction) :
    (machine.execute device instruction).machine.memory =
      match instruction with
      | .store a imm c =>
          machine.memory.writePaged machine.registers.page (machine.offset a imm)
            (machine.registers.read c)
      | _ => machine.memory := by
  obtain ⟨registers, stack, hexecute⟩ := machine.exists_execute_eq device instruction
  rw [hexecute]

/-- An instruction is counted when it is over, not by what it does. -/
theorem cycles_execute (instruction : Instruction) :
    (machine.execute device instruction).machine.cycles = machine.cycles := by
  obtain ⟨registers, stack, hexecute⟩ := machine.exists_execute_eq device instruction
  rw [hexecute]

/-- No instruction halts by what it executes, not even the halt. -/
theorem state_execute (instruction : Instruction) :
    (machine.execute device instruction).machine.state = machine.state := by
  obtain ⟨registers, stack, hexecute⟩ := machine.exists_execute_eq device instruction
  rw [hexecute]

/-! ## Moving on -/

theorem memory_complete (instruction : Instruction) :
    (machine.complete instruction).1.memory = machine.memory := by
  unfold complete
  split
  · rfl
  · dsimp only
    split <;> rfl

theorem cycles_complete (instruction : Instruction) :
    (machine.complete instruction).1.cycles = machine.cycles + 1 := by
  unfold complete
  split
  · rfl
  · dsimp only
    split <;> rfl

theorem registers_complete (hgoes : instruction ≠ .halt) :
    (machine.complete instruction).1.registers = machine.registers.advance := by
  simp only [complete, if_neg hgoes]
  split <;> rfl

theorem complete_of_lt (hgoes : instruction ≠ .halt)
    (hslot : (machine.registers.pc + 1).toNat < 1024) :
    machine.complete instruction =
      ({ machine with cycles := machine.cycles + 1, registers := machine.registers.advance },
        []) := by
  have hinside : Machine.atEnd { machine with
      cycles := machine.cycles + 1, registers := machine.registers.advance } = false :=
    decide_eq_false (Nat.not_le.2 hslot)
  unfold complete
  rw [if_neg hgoes]
  exact if_neg (Bool.eq_false_iff.1 hinside)

theorem complete_of_le (hgoes : instruction ≠ .halt)
    (hslot : 1024 ≤ (machine.registers.pc + 1).toNat) :
    machine.complete instruction =
      ({ machine with
          cycles := machine.cycles + 1, registers := machine.registers.advance,
          state := .halted }, [.reachedEnd (machine.cycles + 1)]) := by
  have hend : Machine.atEnd { machine with
      cycles := machine.cycles + 1, registers := machine.registers.advance } = true :=
    decide_eq_true hslot
  unfold complete
  rw [if_neg hgoes]
  exact if_pos hend

end Frame

end Machine

end Redstone

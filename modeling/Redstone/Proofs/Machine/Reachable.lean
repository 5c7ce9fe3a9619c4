import Redstone.Machine.Run
import Redstone.Proofs.Machine.Label
import Redstone.Proofs.Machine.Refinement

/-!
# The bounds of a machine

Loading, steps, runs and resets, with whatever devices and outcomes, keep a machine
within bounds: register 0 is zero, the page has three bits, every slot of the call
stack ten, and a running machine is at one of the 1024 slots. While an instruction is
carried out the counter may be one slot before the first one; what is bounded then is
the slot behind it. From the bounds follows how a step can fail.
-/

namespace Redstone

/-! ## Registers and slots -/

theorem Registers.read_zero_write (registers : Registers) (register : UInt8) (value : Nat) :
    (registers.write register value).read 0 = registers.read 0 := by
  unfold write
  by_cases hzero : index register = 0
  · simp only [hzero, if_true]
  · have hne : (index register).val ≠ (index 0).val := fun h => hzero (Fin.ext h)
    simp only [hzero, if_false]
    exact Vector.getElem_set_ne (index register).isLt (index 0).isLt hne

@[simp] theorem Registers.pc_write (registers : Registers) (register : UInt8) (value : Nat) :
    (registers.write register value).pc = registers.pc := by
  unfold write
  by_cases hzero : index register = 0 <;> simp only [hzero, if_true, if_false]

@[simp] theorem Registers.page_write (registers : Registers) (register : UInt8) (value : Nat) :
    (registers.write register value).page = registers.page := by
  unfold write
  by_cases hzero : index register = 0 <;> simp only [hzero, if_true, if_false]

/-- Every slot of the stack has at most ten bits. -/
def CallStack.Narrow (stack : CallStack) : Prop :=
  ∀ slot ∈ stack.slots, slot.toNat ≤ 1023

theorem toNat_slotMask_le (slot : UInt16) : (slot &&& 0x3ff).toNat ≤ 1023 := by
  have hmask := toNat_slotMask slot
  omega

theorem CallStack.narrow_empty : empty.Narrow := by
  intro slot hmem
  have hzero : slot = 0 := List.eq_of_mem_replicate hmem
  rw [hzero]
  decide

theorem CallStack.Narrow.push {stack : CallStack} (narrow : stack.Narrow) (slot : UInt16) :
    (stack.push slot).Narrow := by
  intro other hmem
  rcases List.mem_cons.1 hmem with rfl | hold
  · exact toNat_slotMask_le slot
  · exact narrow other (List.dropLast_subset _ hold)

theorem CallStack.Narrow.pop {stack rest : CallStack} (narrow : stack.Narrow) {slot : UInt16}
    (hpop : stack.pop = some (slot, rest)) : rest.Narrow := by
  unfold CallStack.pop at hpop
  by_cases hempty : stack.looksEmpty = true
  · rw [if_pos hempty] at hpop
    cases hpop
  · rw [if_neg hempty] at hpop
    cases hpop
    intro other hmem
    rcases List.mem_append.1 hmem with hold | hnew
    · exact narrow other (List.mem_of_mem_tail hold)
    · have hzero : other = 0 := List.mem_singleton.1 hnew
      rw [hzero]
      decide

namespace Machine

/-! ## While an instruction is carried out -/

/-- The bounds of a machine whose counter has yet to move on. -/
structure Midway (machine : Machine) : Prop where
  register_zero : machine.registers.read 0 = 0
  page_le : machine.registers.page.toNat ≤ 7
  narrow : machine.stack.Narrow
  next_le : (machine.registers.pc + 1).toNat ≤ 1024

namespace Midway

variable {machine : Machine}

theorem setRegister (midway : machine.Midway) (register : UInt8) (value : Nat) :
    (machine.setRegister register value).Midway where
  register_zero := (machine.registers.read_zero_write register value).trans midway.register_zero
  page_le := by
    have := midway.page_le
    simpa [Machine.setRegister] using this
  narrow := midway.narrow
  next_le := by
    have := midway.next_le
    simpa only [Machine.setRegister, Registers.pc_write] using this

theorem jump (midway : machine.Midway) (target : UInt16) : (machine.jump target).Midway where
  register_zero := midway.register_zero
  page_le := midway.page_le
  narrow := midway.narrow
  next_le := by
    -- The counter itself may be taken back to 65535.
    have hnext : (machine.jump target).registers.pc + 1 = target &&& 0x3ff :=
      machine.registers.advance_jump_pc target
    have := toNat_slotMask_le target
    rw [hnext]
    omega

theorem withStack (midway : machine.Midway) {stack : CallStack} (narrow : stack.Narrow) :
    { machine with stack := stack }.Midway where
  register_zero := midway.register_zero
  page_le := midway.page_le
  narrow := narrow
  next_le := midway.next_le

theorem enter (midway : machine.Midway) (target : UInt16) : (machine.enter target).1.Midway :=
  (midway.jump target).withStack (midway.narrow.push _)

theorem leave (midway : machine.Midway) : machine.leave.1.Midway := by
  unfold Machine.leave
  cases hpop : machine.stack.pop with
  | none => exact midway
  | some popped => exact (midway.jump popped.1).withStack (midway.narrow.pop hpop)

theorem setPage (midway : machine.Midway) (page : UInt8) :
    { machine with registers := machine.registers.setPage page }.Midway where
  register_zero := midway.register_zero
  page_le := by
    have hmask : (page &&& 7).toNat = page.toNat % 8 := by
      rw [UInt8.toNat_and]
      exact Nat.and_two_pow_sub_one_eq_mod page.toNat 3
    show (page &&& 7).toNat ≤ 7
    omega
  narrow := midway.narrow
  next_le := midway.next_le

/-- No instruction leaves the bounds, wherever it goes and whatever it writes. -/
theorem apply (midway : machine.Midway) (instruction : Instruction) :
    (machine.apply instruction).1.Midway := by
  cases instruction with
  | nop | halt | input port c | output c port | bell => exact midway
  | alu op a b c =>
      let out := Alu.run op (machine.registers.read a) (machine.registers.read b)
      have written := midway.setRegister c out.result.toNat
      exact ⟨written.register_zero, written.page_le, written.narrow, written.next_le⟩
  | addNumber c imm => exact midway.setRegister c _
  | putNumber c imm => exact midway.setRegister c _
  | jump target => exact midway.jump target
  | branch condition target =>
      simp only [Machine.apply]
      by_cases hholds : machine.holds condition = true
      · rw [if_pos hholds]
        exact midway.jump target
      · rw [if_neg hholds]
        exact midway
  | call target => exact midway.enter target
  | ret => exact midway.leave
  | read a imm c => exact midway.setRegister c _
  | store a imm c =>
      exact ⟨midway.register_zero, midway.page_le, midway.narrow, midway.next_le⟩
  | setPage imm b => exact midway.setPage _
  | getPage c => exact midway.setRegister c _

theorem perform {δ : Type} [Ports δ] (midway : machine.Midway) (device : δ) (request : Request) :
    (machine.perform device request).machine.Midway := by
  cases request with
  | input port c =>
      unfold Machine.perform
      cases hinput : (Ports.input device port).1 with
      | error e => simpa only [hinput] using midway
      | ok value => simpa only [hinput] using midway.setRegister c value.toNat
  | output c port => exact midway
  | bell => exact midway

theorem execute {δ : Type} [Ports δ] (midway : machine.Midway) (device : δ)
    (instruction : Instruction) : (machine.execute device instruction).machine.Midway := by
  unfold Machine.execute
  cases instruction.request? with
  | none => exact midway.apply instruction
  | some request => exact midway.perform device request

end Midway

/-! ## Runs as repeated steps -/

section Runs

variable {machine : Machine} {δ : Type} [Ports δ] {device : δ} {allowance : Nat}

theorem machine_of_run {outcome : Outcome δ Nat}
    (hrun : machine.run allowance device = some outcome) :
    outcome.machine = (machine.advance allowance device).machine := by
  unfold run at hrun
  extract_lets progress ended at hrun
  cases hfault : progress.fault with
  | some fault =>
      rw [hfault] at hrun
      cases hrun
      rfl
  | none =>
      rw [hfault] at hrun
      by_cases hhalted : progress.machine.state = .halted
      · simp only [hhalted, if_true] at hrun
        cases hrun
        rfl
      · simp only [hhalted, if_false] at hrun
        cases hrun

theorem machine_of_runWith {maxCycles : Option UInt64} {stop : Bool}
    {outcome : Outcome δ StopReason}
    (hrun : machine.runWith allowance maxCycles stop device = some outcome) :
    outcome.machine = machine ∨ ∃ n, outcome.machine = (machine.advance n device).machine := by
  unfold runWith at hrun
  by_cases hhalted : machine.state = .halted
  · rw [if_pos hhalted] at hrun
    cases hrun
    exact .inl rfl
  rw [if_neg hhalted] at hrun
  cases stop with
  | true =>
      cases hrun
      exact .inl rfl
  | false =>
      rw [if_neg Bool.false_ne_true] at hrun
      extract_lets bound progress ended at hrun
      refine .inr ⟨bound, ?_⟩
      cases hfault : progress.fault with
      | some fault =>
          rw [hfault] at hrun
          cases hrun
          rfl
      | none =>
          rw [hfault] at hrun
          by_cases hended : progress.machine.state = .halted
          · simp only [hended, if_true] at hrun
            cases hrun
            rfl
          · simp only [hended, if_false] at hrun
            cases maxCycles with
            | none => cases hrun
            | some max =>
                cases hrun
                rfl

end Runs

/-! ## Between steps -/

structure Bounded (machine : Machine) : Prop where
  register_zero : machine.registers.read 0 = 0
  page_le : machine.registers.page.toNat ≤ 7
  narrow : machine.stack.Narrow
  pc_le : machine.registers.pc.toNat ≤ 1024
  pc_le_of_running : machine.state = .running → machine.registers.pc.toNat ≤ 1023

theorem bounded_initial : initial.Bounded where
  register_zero := by decide
  page_le := by decide
  narrow := CallStack.narrow_empty
  pc_le := by decide
  pc_le_of_running _ := by decide

namespace Bounded

variable {machine : Machine}

theorem midway (bounded : machine.Bounded) (hrunning : machine.state = .running) :
    machine.Midway where
  register_zero := bounded.register_zero
  page_le := bounded.page_le
  narrow := bounded.narrow
  next_le := by
    have hpc := bounded.pc_le_of_running hrunning
    have hnext := machine.next_toNat hpc
    omega

/-- Moving on brings the counter to a slot, or halts the machine behind the last one. -/
theorem of_midway (midway : machine.Midway) {instruction : Instruction}
    (hgoes : instruction ≠ .halt) : (machine.complete instruction).1.Bounded := by
  have hnext := midway.next_le
  by_cases hend : 1024 ≤ (machine.registers.pc + 1).toNat
  · rw [complete_of_le machine hgoes hend]
    exact ⟨midway.register_zero, midway.page_le, midway.narrow, hnext, nofun⟩
  · rw [complete_of_lt machine hgoes (Nat.not_le.1 hend)]
    refine ⟨midway.register_zero, midway.page_le, midway.narrow, hnext, fun _ => ?_⟩
    show (machine.registers.pc + 1).toNat ≤ 1023
    omega

theorem complete_halt (bounded : machine.Bounded) : (machine.complete .halt).1.Bounded where
  register_zero := bounded.register_zero
  page_le := bounded.page_le
  narrow := bounded.narrow
  pc_le := bounded.pc_le
  pc_le_of_running := nofun

/-- A step keeps the bounds, whether it fails or not. -/
theorem step {δ : Type} [Ports δ] (bounded : machine.Bounded) (device : δ) :
    (machine.step device).machine.Bounded := by
  cases hstate : machine.state with
  | halted =>
      rw [step_of_halted hstate]
      exact bounded
  | running =>
      cases hcurrent : machine.current with
      | error fault =>
          rw [step_of_current_error hstate hcurrent]
          exact bounded
      | ok instruction =>
          cases hresult : (machine.execute device instruction).result with
          | error fault =>
              rw [step_of_execute_error hstate hcurrent hresult]
              exact bounded
          | ok done =>
              rw [step_of_execute_ok hstate hcurrent hresult]
              by_cases hhalt : instruction = .halt
              · subst hhalt
                exact bounded.complete_halt
              · exact of_midway ((bounded.midway hstate).execute device instruction) hhalt

theorem continueFor {δ : Type} [Ports δ] (n : Nat) {progress : Progress δ}
    (bounded : progress.machine.Bounded) :
    (Machine.continueFor n progress).machine.Bounded := by
  -- On the instructions still allowed, for any progress made so far.
  induction n generalizing progress with
  | zero => exact bounded
  | succ n ih =>
      obtain ⟨executed, fault, machine, device, events⟩ := progress
      have stepped : (machine.step device).machine.Bounded := Bounded.step bounded device
      unfold Machine.continueFor
      by_cases hhalted : machine.state = .halted
      · rw [if_pos hhalted]
        exact bounded
      · rw [if_neg hhalted]
        cases hresult : (machine.step device).result with
        | error fault => simpa only [hresult] using stepped
        | ok instruction =>
            simp only [hresult]
            exact ih stepped

theorem advance {δ : Type} [Ports δ] (bounded : machine.Bounded) (n : Nat) (device : δ) :
    (machine.advance n device).machine.Bounded :=
  continueFor n bounded

end Bounded

/-- The machine after an attempt to load an image; one that is refused changes nothing. -/
def attemptLoad (machine : Machine) (image : List UInt8) : Machine :=
  match machine.load image with
  | .ok (loaded, _) => loaded
  | .error _ => machine

/-- What calls in any order, with any devices and outcomes, lead to. -/
inductive Reachable : Machine → Prop where
  | start : Reachable initial
  | reset {before : Machine} (reached : Reachable before) : Reachable initial
  | load {before : Machine} (reached : Reachable before) (image : List UInt8) :
      Reachable (before.attemptLoad image)
  | step {before : Machine} (reached : Reachable before) {δ : Type} [Ports δ] (device : δ) :
      Reachable (before.step device).machine
  | run {before : Machine} (reached : Reachable before) {δ : Type} [Ports δ] {device : δ}
      {allowance : Nat} {outcome : Outcome δ Nat}
      (ends : before.run allowance device = some outcome) : Reachable outcome.machine
  | runLimited {before : Machine} (reached : Reachable before) {δ : Type} [Ports δ] (device : δ)
      (max : UInt64) : Reachable (before.runLimited max device).machine
  | runWith {before : Machine} (reached : Reachable before) {δ : Type} [Ports δ] {device : δ}
      {allowance : Nat} {maxCycles : Option UInt64} {stop : Bool}
      {outcome : Outcome δ StopReason}
      (ends : before.runWith allowance maxCycles stop device = some outcome) :
      Reachable outcome.machine
  /-- A run is stopped from outside after some instructions. -/
  | stopped {before : Machine} (reached : Reachable before) {δ : Type} [Ports δ] (device : δ)
      (n : Nat) : Reachable (before.advance n device).machine

theorem exists_attemptLoad_eq (machine : Machine) {image : List UInt8}
    (hsize : image.length ≤ 2048) :
    ∃ memory, machine.memory.load image = .ok memory ∧
      machine.attemptLoad image = { machine with memory := memory } := by
  obtain ⟨loaded, events, hload, hmemory⟩ := machine.exists_load_eq ⟨image, none, hsize⟩
  refine ⟨loaded.memory, hmemory, ?_⟩
  rw [← eq_of_load_eq_ok hload]
  simp only [attemptLoad, hload]

theorem Bounded.load {machine loaded : Machine} (bounded : machine.Bounded) {image : List UInt8}
    {events : List Event} (hload : machine.load image = .ok (loaded, events)) :
    loaded.Bounded := by
  rw [eq_of_load_eq_ok hload]
  exact ⟨bounded.register_zero, bounded.page_le, bounded.narrow, bounded.pc_le,
    bounded.pc_le_of_running⟩

theorem Bounded.attemptLoad {machine : Machine} (bounded : machine.Bounded)
    (image : List UInt8) : (machine.attemptLoad image).Bounded := by
  unfold Machine.attemptLoad
  cases hload : machine.load image with
  | error e => exact bounded
  | ok done => exact bounded.load hload

theorem Reachable.bounded {machine : Machine} (reached : Reachable machine) :
    machine.Bounded := by
  induction reached with
  | start => exact bounded_initial
  | reset _ _ => exact bounded_initial
  | load _ image ih => exact ih.attemptLoad image
  | step _ device ih => exact ih.step device
  | @run _ _ _ _ device allowance _ ends ih =>
      rw [machine_of_run ends]
      exact ih.advance allowance device
  | runLimited _ device max ih =>
      unfold Machine.runLimited
      split
      · exact ih
      · exact ih.advance _ device
  | @runWith _ _ _ _ device _ _ _ _ ends ih =>
      rcases machine_of_runWith ends with hsame | ⟨n, hmachine⟩
      · rw [hsame]
        exact ih
      · rw [hmachine]
        exact ih.advance n device
  | stopped _ device n ih => exact ih.advance n device

/-! ## How a step can fail -/

section Failure

variable {machine : Machine} {δ : Type} [Ports δ] {device : δ} {instruction : Instruction}
  {fault : Fault}

def Refuses (machine : Machine) (device : δ) (request : Request) (e : PortError) : Prop :=
  match request with
  | .input port _ => (Ports.input device port).1 = .error e
  | .output c port => (Ports.output device port (machine.registers.read c)).1 = .error e
  | .bell => (Ports.bell device).1 = .error e

theorem mapError_eq_error_iff {answer : Except PortError Unit} :
    answer.mapError Fault.port = .error fault ↔ ∃ e, answer = .error e ∧ fault = .port e := by
  cases answer with
  | ok done => exact ⟨nofun, fun ⟨_, h, _⟩ => nomatch h⟩
  | error e =>
      constructor
      · intro h
        cases h
        exact ⟨e, rfl, rfl⟩
      · intro ⟨_, h, hfault⟩
        cases h
        exact congrArg Except.error hfault.symm

theorem result_perform_eq_error_iff {request : Request} :
    (machine.perform device request).result = .error fault ↔
      ∃ e, machine.Refuses device request e ∧ fault = .port e := by
  cases request with
  | input port c =>
      unfold perform Refuses
      cases hinput : (Ports.input device port).1 with
      | ok value => simp [hinput]
      | error e => simp [hinput, eq_comm]
  | output c port => exact mapError_eq_error_iff
  | bell => exact mapError_eq_error_iff

theorem result_execute_eq_error_iff :
    (machine.execute device instruction).result = .error fault ↔
      ∃ request e, instruction.request? = some request ∧ machine.Refuses device request e ∧
        fault = .port e := by
  unfold execute
  cases hrequest : instruction.request? with
  | none => exact ⟨nofun, fun ⟨_, _, h, _⟩ => nomatch h⟩
  | some request =>
      rw [result_perform_eq_error_iff]
      constructor
      · intro ⟨e, refuses, hfault⟩
        exact ⟨request, e, rfl, refuses, hfault⟩
      · intro ⟨_, e, hsame, refuses, hfault⟩
        cases hsame
        exact ⟨e, refuses, hfault⟩

/-- At a slot there is an instruction unless the opcode number of its word is too large. -/
theorem current_cases (hpc : machine.registers.pc.toNat ≤ 1023) :
    (26 < machine.view.word / 2048 ∧
      machine.current = .error (.decode (.invalidOpcode (machine.view.word / 2048)))) ∨
    (¬ 26 < machine.view.word / 2048 ∧ ∃ instruction, machine.current = .ok instruction) := by
  obtain ⟨word, hfetch, hword⟩ := machine.exists_fetch_eq hpc
  rw [← hword]
  rcases Instruction.decode_cases word with ⟨hbig, hdecode⟩ | ⟨opcode, hcode, hdecode⟩
  · refine .inl ⟨hbig, ?_⟩
    simp only [current, hfetch, hdecode]
    rfl
  · have hsmall := opcode.code_lt
    exact .inr ⟨by omega, _, current_eq_ok hfetch hdecode⟩

/--
A machine within its bounds fails to step because it has halted, because the word at its slot
has no opcode, or because the device refuses what the instruction asks of it.
-/
theorem Bounded.result_step_eq_error_iff (bounded : machine.Bounded) :
    (machine.step device).result = .error fault ↔
      machine.state = .halted ∧ fault = .notRunning ∨
      machine.state = .running ∧ 26 < machine.view.word / 2048 ∧
        fault = .decode (.invalidOpcode (machine.view.word / 2048)) ∨
      machine.state = .running ∧ ∃ instruction request e, machine.current = .ok instruction ∧
        instruction.request? = some request ∧ machine.Refuses device request e ∧
        fault = .port e := by
  cases hstate : machine.state with
  | halted =>
      rw [step_of_halted hstate]
      simp [eq_comm]
  | running =>
      rcases current_cases (bounded.pc_le_of_running hstate) with
        ⟨hbig, hcurrent⟩ | ⟨hsmall, instruction, hcurrent⟩
      · rw [step_of_current_error hstate hcurrent]
        simp [hbig, hcurrent, eq_comm]
      · have hfails : (machine.step device).result = .error fault ↔
            (machine.execute device instruction).result = .error fault := by
          cases hresult : (machine.execute device instruction).result with
          | ok done =>
              rw [step_of_execute_ok hstate hcurrent hresult]
              exact ⟨nofun, nofun⟩
          | error e =>
              rw [step_of_execute_error hstate hcurrent hresult]
              simp only [Except.error.injEq]
        rw [hfails, result_execute_eq_error_iff]
        simp [hsmall, hcurrent]

end Failure

/--
Whatever calls a machine has been through, it is within its bounds, and the only ways in which
a step can fail are that it has halted, that the word at its slot has no opcode, and that the
device refuses a request.
-/
theorem reachable_within_bounds {machine : Machine} (reached : Reachable machine) :
    machine.memory.cells.toList.length = 2048 ∧ machine.registers.read 0 = 0 ∧
      machine.registers.page.toNat ≤ 7 ∧ machine.stack.slots.length = 16 ∧
      (∀ slot ∈ machine.stack.slots, slot.toNat ≤ 1023) ∧
      machine.registers.pc.toNat ≤ 1024 ∧
      (machine.state = .running → machine.registers.pc.toNat ≤ 1023) ∧
      ∀ (δ : Type) [Ports δ] (device : δ) (fault : Fault),
        (machine.step device).result = .error fault ↔
          machine.state = .halted ∧ fault = .notRunning ∨
          machine.state = .running ∧ 26 < machine.view.word / 2048 ∧
            fault = .decode (.invalidOpcode (machine.view.word / 2048)) ∨
          machine.state = .running ∧ ∃ instruction request e,
            machine.current = .ok instruction ∧ instruction.request? = some request ∧
            machine.Refuses device request e ∧ fault = .port e := by
  have bounded := reached.bounded
  refine ⟨Vector.length_toList, bounded.register_zero, bounded.page_le,
    machine.stack.length_slots, bounded.narrow, bounded.pc_le, bounded.pc_le_of_running, ?_⟩
  intro δ _ device fault
  exact bounded.result_step_eq_error_iff

/-- A jump to slot 0 takes the counter to 65535 and back. -/
theorem reachable_within_bounds_jump_zero :
    let jumped := ((initial.attemptLoad [0x00, 0x68]).step (Script.ofInputs [])).machine
    Reachable jumped ∧ jumped.registers.pc = 0 ∧ jumped.stack.slots.length = 16 ∧
      ∀ e, (jumped.step (Script.ofInputs [])).result ≠ .error (.memory e) := by
  intro jumped
  have reached : Reachable jumped := .step (.load .start _) _
  have hsize : ([0x00, 0x68] : List UInt8).length ≤ 2048 := by decide
  obtain ⟨memory, hload, hloaded⟩ := initial.exists_attemptLoad_eq hsize
  have hslot : (0 : UInt16).toNat < 1024 := by decide
  have hrunning : (initial.attemptLoad [0x00, 0x68]).state = .running := by
    rw [hloaded]
    rfl
  have hcurrent : (initial.attemptLoad [0x00, 0x68]).current = .ok (.jump 0) := by
    rw [hloaded]
    exact current_of_bytes hslot (Memory.read_load hload 0) (Memory.read_load hload 1) rfl
  have hzero : (0 : UInt16) &&& 0x3ff = 0 := by decide
  have hoperands : (Instruction.jump 0).operands = [0] := rfl
  have hjumps : (initial.attemptLoad [0x00, 0x68]).Jumps (Instruction.jump 0).opcode := trivial
  have hboth := pc_step_of_jumps hrunning hcurrent hjumps hoperands (Script.ofInputs [])
  have hpc : jumped.registers.pc = 0 := by
    unfold jumped
    rw [hboth.2, hzero]
  clear_value jumped
  obtain ⟨_, _, _, hslots, _, _, _, hfails⟩ := reachable_within_bounds reached
  refine ⟨reached, hpc, hslots, fun e hmemory => ?_⟩
  rcases (hfails _ _ _).1 hmemory with ⟨_, hfault⟩ | ⟨_, _, hfault⟩ | ⟨_, _, _, _, _, _, _, hfault⟩
  · cases hfault
  · cases hfault
  · cases hfault

end Machine

end Redstone

import Redstone.Proofs.Machine.Memory
import Redstone.Proofs.Machine.Pieces

/-!
# What the reason of a stop tells

A run that is over names its reason, and of a machine that has halted the reason is read off the
counter alone. It is right nevertheless. The instruction that halts leaves the counter in its slot,
a jump goes to one of the 1024 slots, and so the counter is behind them exactly when the instruction
in the last slot has been executed and has not jumped. One step says where a machine can come from;
by induction each call of a run, and each sequence of calls, ends at the last step executed.
-/

namespace Redstone

namespace Machine

/-! ## Where a step leads -/

def target? (machine : Machine) : Instruction → Option UInt16
  | .jump target | .call target => some target
  | .branch condition target => if machine.holds condition then some target else none
  | .ret => machine.stack.pop.map Prod.fst
  | .nop | .halt | .alu .. | .addNumber .. | .putNumber .. | .read .. | .store .. | .setPage ..
  | .getPage _ | .input .. | .output .. | .bell => none

section Step

variable {δ : Type} [Ports δ] (machine : Machine) (device : δ) (instruction : Instruction)

/-- The next slot is the target of a jump, of which ten bits are kept, or the slot behind. -/
theorem next_execute :
    (machine.execute device instruction).machine.registers.pc + 1 =
      match machine.target? instruction with
      | some target => target &&& 0x3ff
      | none => machine.registers.pc + 1 := by
  -- The counter alone may be 65535 here, in front of slot 0: only its successor is a slot.
  have hjump (target : UInt16) : (machine.jump target).registers.pc + 1 = target &&& 0x3ff :=
    machine.registers.advance_jump_pc target
  have hwrite (register : UInt8) (value : Nat) :
      (machine.setRegister register value).registers.pc + 1 = machine.registers.pc + 1 :=
    congrArg (· + 1) (machine.registers.pc_write register value)
  cases instruction with
  | jump target => exact hjump target
  | call target => exact hjump target
  | branch condition target =>
      simp only [execute, Instruction.request?, apply, target?]
      by_cases hholds : machine.holds condition = true
      · rw [if_pos hholds, if_pos hholds]
        exact hjump target
      · rw [if_neg hholds, if_neg hholds]
  | ret =>
      show machine.leave.1.registers.pc + 1 = _
      simp only [leave, target?]
      cases machine.stack.pop with
      | none => rfl
      | some popped => exact hjump popped.1
  | input port c =>
      show (machine.perform device (.input port c)).machine.registers.pc + 1 = _
      unfold perform
      cases hanswer : (Ports.input device port).1 with
      | error e => simp only [hanswer, target?]
      | ok value =>
          simp only [hanswer]
          exact hwrite c value.toNat
  | alu op a b c => exact hwrite c _
  | addNumber c imm => exact hwrite c _
  | putNumber c imm => exact hwrite c _
  | read a imm c => exact hwrite c _
  | getPage c => exact hwrite c _
  | nop | halt | store | setPage | output | bell => rfl

end Step

/-- How a machine can come out of a step that executes an instruction in one of the slots. -/
inductive Comes (before : Machine) (instruction : Instruction) (after : Machine) : Prop where
  | halts (halt : instruction = .halt) (slot : before.registers.pc.toNat ≤ 1023)
      (stays : after.registers.pc = before.registers.pc) (halted : after.state = .halted)
  | ends (goes : instruction ≠ .halt) (straight : before.target? instruction = none)
      (slot : before.registers.pc = 1023) (behind : after.registers.pc = 1024)
      (halted : after.state = .halted)
  | goes (goes : instruction ≠ .halt) (slot : after.registers.pc.toNat ≤ 1023)
      (running : after.state = .running)

section Reasons

variable {δ : Type} [Ports δ] {machine last start : Machine} {device left : δ}
  {instruction : Instruction}

/-- Only an instruction in the last slot that does not jump comes behind the slots. -/
theorem eq_last_of_le_next (hpc : machine.registers.pc.toNat ≤ 1023)
    (hend : 1024 ≤ ((machine.execute device instruction).machine.registers.pc + 1).toNat) :
    machine.target? instruction = none ∧ machine.registers.pc = 1023 ∧
      (machine.execute device instruction).machine.registers.pc + 1 = 1024 := by
  have hnext := machine.next_execute device instruction
  have hbehind := machine.next_toNat hpc
  rw [hnext] at hend ⊢
  cases htarget : machine.target? instruction with
  | some target =>
      have hlow := toNat_slotMask_le target
      simp only [htarget] at hend
      omega
  | none =>
      simp only [htarget] at hend
      have hlast : machine.registers.pc = 1023 := by
        refine UInt16.toNat_inj.1 ?_
        show machine.registers.pc.toNat = 1023
        omega
      rw [hlast]
      exact ⟨rfl, rfl, rfl⟩

theorem Bounded.comes (bounded : machine.Bounded)
    (hstep : (machine.step device).result = .ok instruction) :
    machine.Comes instruction (machine.step device).machine := by
  obtain ⟨hrunning, hcurrent, hresult⟩ := exists_current_of_step_ok hstep
  have hpc := bounded.pc_le_of_running hrunning
  rw [step_of_execute_ok hrunning hcurrent hresult]
  by_cases hhalt : instruction = .halt
  · subst hhalt
    exact .halts rfl hpc rfl rfl
  · by_cases hend : 1024 ≤ ((machine.execute device instruction).machine.registers.pc + 1).toNat
    · obtain ⟨hstraight, hlast, hbehind⟩ := eq_last_of_le_next hpc hend
      rw [complete_of_le _ hhalt hend]
      exact .ends hhalt hstraight hlast hbehind rfl
    · rw [complete_of_lt _ hhalt (Nat.not_le.1 hend)]
      refine .goes hhalt ?_ ((machine.state_execute device instruction).trans hrunning)
      exact Nat.le_of_lt_succ (Nat.not_le.1 hend)

/-- An instruction in the last slot that neither halts nor jumps is the last one. -/
theorem step_of_last (hrunning : machine.state = .running)
    (hcurrent : machine.current = .ok instruction)
    (hresult : (machine.execute device instruction).result = .ok ())
    (hgoes : instruction ≠ .halt) (hstraight : machine.target? instruction = none)
    (hlast : machine.registers.pc = 1023) :
    (machine.step device).result = .ok instruction ∧
      (machine.step device).machine.state = .halted ∧
      (machine.step device).machine.registers.pc = 1024 := by
  have hnext : (machine.execute device instruction).machine.registers.pc + 1 = 1024 := by
    rw [next_execute, hstraight, hlast]
    rfl
  have hbehind : 1024 ≤ ((machine.execute device instruction).machine.registers.pc + 1).toNat := by
    rw [hnext]
    decide
  rw [step_of_execute_ok hrunning hcurrent hresult, complete_of_le _ hgoes hbehind]
  exact ⟨rfl, rfl, hnext⟩

/-! ## Steps with their history -/

/-- Steps that each execute an instruction, with the machine that each of them starts from. -/
inductive Traces : Machine → δ → List (Machine × Instruction) → Machine → δ → Prop where
  | nil (machine : Machine) (device : δ) : Traces machine device [] machine device
  | cons {machine last : Machine} {device left : δ} {instruction : Instruction}
      {steps : List (Machine × Instruction)}
      (done : (machine.step device).result = .ok instruction)
      (rest : Traces (machine.step device).machine (machine.step device).device steps last left) :
      Traces machine device ((machine, instruction) :: steps) last left

theorem Executes.exists_traces {n : Nat} (executes : Executes machine device n last left) :
    ∃ steps, steps.length = n ∧ Traces machine device steps last left := by
  induction executes with
  | refl machine device => exact ⟨[], rfl, .nil machine device⟩
  | next done _ ih =>
      obtain ⟨steps, hlength, traces⟩ := ih
      exact ⟨_ :: steps, congrArg (· + 1) hlength, .cons done traces⟩

def EndsAt (start : Machine) (history : List (Machine × Instruction)) (last : Machine) : Prop :=
  (history = [] ∧ last = start) ∨
    ∃ before instruction, history.getLast? = some (before, instruction) ∧
      before.Comes instruction last

theorem EndsAt.append {history steps : List (Machine × Instruction)}
    (first : EndsAt start history machine) (second : EndsAt machine steps last) :
    EndsAt start (history ++ steps) last := by
  rcases second with ⟨hsteps, hlast⟩ | ⟨before, instruction, hlast, comes⟩
  · rw [hsteps, List.append_nil, hlast]
    exact first
  · refine .inr ⟨before, instruction, ?_, comes⟩
    rw [List.getLast?_append, hlast]
    rfl

theorem Traces.endsAt {steps : List (Machine × Instruction)}
    (traces : Traces machine device steps last left) (bounded : machine.Bounded) :
    last.Bounded ∧ EndsAt machine steps last := by
  induction traces with
  | nil machine device => exact ⟨bounded, .inl ⟨rfl, rfl⟩⟩
  | @cons machine last device left instruction steps done _ ih =>
      obtain ⟨hlast, second⟩ := ih (bounded.step device)
      have first : EndsAt machine [(machine, instruction)] (machine.step device).machine :=
        .inr ⟨machine, instruction, rfl, bounded.comes done⟩
      exact ⟨hlast, first.append second⟩

/-- A machine behind calls that came back without a failure, and the steps that they executed. -/
inductive Served (start : Machine) : List (Machine × Instruction) → Machine → Prop where
  | start : Served start [] start
  | call {history steps : List (Machine × Instruction)} {machine last : Machine}
      (earlier : Served start history machine) {δ : Type} [Ports δ] {device left : δ}
      {driver : Driver} {answer : Answer}
      (returns : machine.Returns device driver answer last left)
      (traces : machine.Traces device steps last left)
      (count : (steps.length : ℕ∞) = driver.count machine device) :
      Served start (history ++ steps) last

/-- Whatever call comes back without a failure goes on with the steps that it has executed. -/
theorem Served.exists_call {history : List (Machine × Instruction)}
    (served : Served start history machine) {driver : Driver} {answer : Answer}
    (returns : machine.Returns device driver answer last left) :
    ∃ steps, Served start (history ++ steps) last := by
  obtain ⟨n, hcount, executes, _⟩ := returns.exists_executes
  obtain ⟨steps, hlength, traces⟩ := executes.exists_traces
  subst hlength
  exact ⟨steps, .call served returns traces hcount⟩

theorem Served.endsAt {history : List (Machine × Instruction)}
    (served : Served start history machine) (bounded : start.Bounded) :
    machine.Bounded ∧ EndsAt start history machine := by
  induction served with
  | start => exact ⟨bounded, .inl ⟨rfl, rfl⟩⟩
  | call _ _ traces _ ih =>
      obtain ⟨hlast, second⟩ := traces.endsAt ih.1
      exact ⟨hlast, ih.2.append second⟩

/-! ## Reasons -/

inductive Tells (limit : Option UInt64) (stop : Bool) (count : Nat) (last : Machine) :
    StopReason → Prop where
  | halted (halted : last.state = .halted) : Tells limit stop count last last.haltReason
  | cycleLimit {max : UInt64} (limited : limit = some max) (reached : count = max.toNat)
      (down : stop = false) (running : last.state = .running) :
      Tells limit stop count last .cycleLimit
  | interrupted (none : count = 0) (raised : stop = true) (running : last.state = .running) :
      Tells limit stop count last .interrupted

theorem Stops.tells {limit : Option UInt64} {n : Nat} {reason : StopReason}
    (stops : Stops limit n last reason) : Tells limit false n last reason := by
  cases stops with
  | halted _ hhalted => exact .halted hhalted
  | limit limited reached hrunning => exact .cycleLimit limited reached rfl hrunning

theorem Returns.exists_traces {limit : Option UInt64} {stop : Bool} {reason : StopReason}
    (returns : machine.Returns device (.runWith limit stop) (.stopped reason) last left) :
    ∃ steps, machine.Traces device steps last left ∧
      (steps.length : ℕ∞) = (Driver.runWith limit stop).count machine device ∧
      Tells limit stop steps.length last reason := by
  cases stop with
  | false =>
      obtain ⟨n, _, executes, stops, ⟨⟩⟩ := returns.exists_stops
      obtain ⟨steps, hlength, traces⟩ := executes.exists_traces
      subst hlength
      exact ⟨steps, traces, stops.count_eq executes, stops.tells⟩
  | true =>
      cases returns with
      | runWith hrun =>
      cases hstate : machine.state with
      | halted =>
          rw [runWith_of_halted hstate] at hrun
          cases hrun
          exact ⟨[], .nil _ _, rfl, .halted hstate⟩
      | running =>
          rw [runWith_of_stopped hstate] at hrun
          cases hrun
          exact ⟨[], .nil _ _, rfl, .interrupted rfl rfl hstate⟩

theorem haltReason_of_le (hpc : machine.registers.pc.toNat ≤ 1023) :
    machine.haltReason = .halted := by
  have hinside : machine.atEnd = false :=
    decide_eq_false (Nat.not_le.2 (Nat.lt_succ_of_le hpc))
  exact if_neg (Bool.eq_false_iff.1 hinside)

theorem haltReason_of_eq (hpc : machine.registers.pc = 1024) :
    machine.haltReason = .endOfMemory := by
  have hbehind : machine.atEnd = true := by
    rw [atEnd, hpc]
    rfl
  exact if_pos hbehind

/-- What a halted machine comes out of is what its counter tells. -/
theorem Comes.of_halted (comes : machine.Comes instruction last) (hhalted : last.state = .halted) :
    (instruction = .halt ∧ last.registers.pc = machine.registers.pc ∧
        machine.registers.pc.toNat ≤ 1023 ∧ last.haltReason = .halted) ∨
      (instruction ≠ .halt ∧ machine.target? instruction = none ∧
        machine.registers.pc = 1023 ∧ last.registers.pc = 1024 ∧
        last.haltReason = .endOfMemory) := by
  cases comes with
  | halts halt slot stays _ =>
      exact .inl ⟨halt, stays, slot, haltReason_of_le (stays ▸ slot)⟩
  | ends goes straight slot behind _ =>
      exact .inr ⟨goes, straight, slot, behind, haltReason_of_eq behind⟩
  | goes _ _ running => exact absurd hhalted (ne_halted_of_running running)

theorem EndsAt.exists_comes {history : List (Machine × Instruction)}
    (ends : EndsAt start history last) (hstart : start.state = .running)
    (hhalted : last.state = .halted) :
    ∃ before instruction, history.getLast? = some (before, instruction) ∧
      before.Comes instruction last := by
  rcases ends with ⟨_, hlast⟩ | hcomes
  · rw [hlast] at hhalted
    exact absurd hhalted (ne_halted_of_running hstart)
  · exact hcomes

/-- No history of a machine that runs ends with the halt. -/
theorem EndsAt.not_halt {history : List (Machine × Instruction)}
    (ends : EndsAt start history last) (hrunning : last.state = .running) :
    ¬∃ before, history.getLast? = some (before, .halt) := by
  intro ⟨before, hlast⟩
  rcases ends with ⟨hhistory, _⟩ | ⟨_, instruction, hother, comes⟩
  · rw [hhistory] at hlast
    cases hlast
  · rw [hother] at hlast
    cases hlast
    cases comes with
    | halts _ _ _ halted => exact ne_halted_of_running hrunning halted
    | ends goes => exact goes rfl
    | goes goes => exact goes rfl

/--
A run with a limit and a flag that comes back without a failure tells the truth about why it is
over, on a machine into which an image has been loaded and behind any calls that came back without a
failure. It has halted exactly if the last instruction executed, by this call or an earlier one, is
the halt, and the counter is still in its slot. It is at the end of memory exactly if the counter is
1024, and then the last instruction executed was in the last slot, was no halt and did not jump. The
limit is its reason only if the machine still runs, the flag is down and the call has executed as
many instructions as the limit says; the flag only if the machine still runs, the flag is raised and
the call has executed none.
-/
theorem stop_reason_true {loaded : Machine} {image : List UInt8} {events : List Event}
    (hload : initial.load image = .ok (loaded, events))
    {history : List (Machine × Instruction)} (served : Served loaded history machine)
    {limit : Option UInt64} {stop : Bool} {reason : StopReason}
    (returns : machine.Returns device (.runWith limit stop) (.stopped reason) last left) :
    ∃ steps, machine.Traces device steps last left ∧
      (steps.length : ℕ∞) = (Driver.runWith limit stop).count machine device ∧
      ((∃ before, (history ++ steps).getLast? = some (before, .halt)) → reason = .halted) ∧
      (reason = .halted → ∃ before, (history ++ steps).getLast? = some (before, .halt) ∧
        last.registers.pc = before.registers.pc ∧ before.registers.pc.toNat ≤ 1023) ∧
      (reason = .endOfMemory ↔ last.registers.pc = 1024) ∧
      (reason = .endOfMemory → ∃ before instruction,
        (history ++ steps).getLast? = some (before, instruction) ∧
          before.registers.pc = 1023 ∧ instruction ≠ .halt ∧
          before.target? instruction = none) ∧
      (reason = .cycleLimit → last.state = .running ∧ stop = false ∧
        ∃ max, limit = some max ∧ steps.length = max.toNat) ∧
      (reason = .interrupted → last.state = .running ∧ stop = true ∧ steps = []) := by
  have bounded : loaded.Bounded := bounded_initial.load hload
  have hloaded : loaded.state = .running := by
    rw [eq_of_load_eq_ok hload]
    rfl
  obtain ⟨hmachine, first⟩ := served.endsAt bounded
  obtain ⟨steps, traces, hcount, tells⟩ := returns.exists_traces
  obtain ⟨hlast, second⟩ := traces.endsAt hmachine
  have ends : EndsAt loaded (history ++ steps) last := first.append second
  refine ⟨steps, traces, hcount, ?_⟩
  have hinside (hpc : last.registers.pc.toNat ≤ 1023) : last.registers.pc ≠ 1024 := by
    intro hbehind
    rw [hbehind] at hpc
    exact absurd hpc (by decide)
  cases tells with
  | halted hhalted =>
      -- The machine did not start halted, so a last step has left it so and tells the reason.
      obtain ⟨before, instruction, hend, comes⟩ := ends.exists_comes hloaded hhalted
      rcases comes.of_halted hhalted with
        ⟨rfl, hstays, hslot, hreason⟩ | ⟨hgoes, hstraight, hslot, hbehind, hreason⟩
      · rw [hreason]
        exact ⟨fun _ => rfl, fun _ => ⟨before, hend, hstays, hslot⟩,
          ⟨nofun, fun hbehind => absurd hbehind (hinside (hstays ▸ hslot))⟩, nofun, nofun, nofun⟩
      · rw [hreason]
        refine ⟨?_, nofun, ⟨fun _ => hbehind, fun _ => rfl⟩,
          fun _ => ⟨before, instruction, hend, hslot, hgoes, hstraight⟩, nofun, nofun⟩
        intro ⟨_, hhalt⟩
        rw [hend] at hhalt
        cases hhalt
        exact absurd rfl hgoes
  | @cycleLimit max limited reached down running =>
      have hpc := hinside (hlast.pc_le_of_running running)
      exact ⟨fun hhalt => absurd hhalt (ends.not_halt running), nofun,
        ⟨nofun, fun hbehind => absurd hbehind hpc⟩, nofun,
        fun _ => ⟨running, down, max, limited, reached⟩, nofun⟩
  | interrupted none raised running =>
      have hpc := hinside (hlast.pc_le_of_running running)
      exact ⟨fun hhalt => absurd hhalt (ends.not_halt running), nofun,
        ⟨nofun, fun hbehind => absurd hbehind hpc⟩, nofun, nofun,
        fun _ => ⟨running, raised, List.eq_nil_of_length_eq_zero none⟩⟩

end Reasons

/--
A jump to the last slot under a limit of 1, and then the empty word there: the counter is where a
halt in that slot would not leave it.
-/
theorem stop_reason_true_last_slot :
    ∃ (loaded middle last : Machine) (events : List Event) (between left : Script),
      initial.load [0xfe, 0x6f] = .ok (loaded, events) ∧
      loaded.Returns (Script.ofInputs []) (.runWith (some 1) false) (.stopped .cycleLimit)
        middle between ∧
      middle.registers.pc = 1023 ∧
      middle.Returns between (.runWith none false) (.stopped .endOfMemory) last left ∧
      last.registers.pc = 1024 := by
  have hsize : ([0xfe, 0x6f] : List UInt8).length ≤ 2048 := by decide
  obtain ⟨loaded, events, hload, hmemory⟩ := initial.exists_load_eq ⟨_, none, hsize⟩
  dsimp only at hload hmemory
  have hloaded := eq_of_load_eq_ok hload
  have bounded : loaded.Bounded := bounded_initial.load hload
  have hrunning : loaded.state = .running := by
    rw [hloaded]
    rfl
  have hjump : loaded.current = .ok (.jump 1023) := by
    have hslot : (0 : UInt16).toNat < 1024 := by decide
    rw [hloaded]
    exact current_of_bytes hslot (Memory.read_load hmemory 0) (Memory.read_load hmemory 1) rfl
  obtain ⟨hdone, hpc⟩ := pc_step_of_jumps hrunning hjump (by trivial) rfl (Script.ofInputs [])
  obtain ⟨first, hfirst⟩ : ∃ first, loaded.step (Script.ofInputs []) = first := ⟨_, rfl⟩
  have hstay : first.machine.memory = loaded.memory := by
    rw [← hfirst, step_of_execute_ok hrunning hjump rfl, memory_complete, memory_execute]
  have comes := bounded.comes hdone
  have goes : Executes loaded (Script.ofInputs []) 1 _ _ := .next hdone (.refl _ _)
  rw [hfirst] at hpc comes goes
  have hmiddle : first.machine.state = .running := by
    cases comes with
    | halts halt => cases halt
    | ends _ straight => cases straight
    | goes _ _ running => exact running
  have hzero (address : Nat) (hcell : 2 ≤ address % 2048) :
      first.machine.memory.read address = 0 := by
    rw [hstay, Memory.read_load hmemory, List.getD_eq_getElem?_getD,
      List.getElem?_eq_none_iff.2 hcell]
    exact Memory.read_empty address
  have hnop : first.machine.current = .ok .nop := by
    have hslot : first.machine.registers.pc.toNat < 1024 := by
      rw [hpc]
      decide
    refine current_of_bytes hslot (hzero _ ?_) (hzero _ ?_) rfl
    · rw [hpc]
      decide
    · rw [hpc]
      decide
  obtain ⟨hresult, hhalted, hlast⟩ : (first.machine.step first.device).result = .ok .nop ∧ _ ∧ _ :=
    step_of_last hmiddle hnop rfl nofun rfl hpc
  have halts : Executes first.machine first.device 1 _ _ := .next hresult (.refl _ _)
  have cut : Stops (some 1) 1 first.machine .cycleLimit := .limit rfl rfl hmiddle
  have ends : Stops none 1 _ _ := .halted nofun hhalted
  obtain ⟨_, served⟩ := Served.start.exists_call (goes.returns_runWith cut)
  have returns := halts.returns_runWith ends
  obtain ⟨_, _, _, _, _, hreason, _⟩ := stop_reason_true hload served returns
  rw [hreason.2 hlast] at returns
  exact ⟨_, _, _, events, _, _, hload, goes.returns_runWith cut, hpc, returns, hlast⟩

end Machine

end Redstone

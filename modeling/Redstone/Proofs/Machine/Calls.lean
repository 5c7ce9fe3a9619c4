import Redstone.Proofs.Machine.Reachable

/-!
# The call stack as a list

The stack of the machine counts nothing: it is taken for empty when all its slots are zero, an
entry keeps ten bits, and a call too deep loses the oldest entry. None of this shows while no
more than sixteen calls are open and none comes from the last slot: until then the slots are the
open return slots, none of them zero, and zeros behind them. The machine then does what it would
do with a list that has no end.
-/

namespace Redstone

/-! ## The slots that hold a list -/

namespace CallStack

/-- The slots are the entries of a list, newest first, and zeros behind them. -/
structure Holds (stack : CallStack) (returns : List UInt16) : Prop where
  length_le : returns.length ≤ 16
  slots_eq : stack.slots = returns ++ List.replicate (16 - returns.length) 0
  ne_zero : ∀ slot ∈ returns, slot ≠ 0
  narrow : ∀ slot ∈ returns, slot.toNat ≤ 1023

theorem holds_empty : empty.Holds [] :=
  ⟨by decide, rfl, nofun, nofun⟩

theorem and_slotMask {slot : UInt16} (hslot : slot.toNat ≤ 1023) : slot &&& 0x3ff = slot := by
  have hmask := toNat_slotMask slot
  exact UInt16.toNat_inj.1 (by omega)

namespace Holds

variable {stack : CallStack} {returns : List UInt16}

theorem zeros_ne_nil (hroom : returns.length < 16) :
    List.replicate (16 - returns.length) (0 : UInt16) ≠ [] := by
  rw [ne_eq, List.replicate_eq_nil_iff]
  omega

theorem overflow?_eq_none (holds : stack.Holds returns) (hroom : returns.length < 16) :
    stack.overflow? = none := by
  -- While there is room, the zeros behind the list reach the last slot.
  have hlast : stack.slots.getLast? = some 0 := by
    rw [holds.slots_eq, List.getLast?_append_of_ne_nil _ (zeros_ne_nil hroom),
      List.getLast?_replicate]
    exact if_neg (by omega)
  rw [overflow?, hlast]
  rfl

theorem push (holds : stack.Holds returns) (hroom : returns.length < 16) {slot : UInt16}
    (hne : slot ≠ 0) (hslot : slot.toNat ≤ 1023) : (stack.push slot).Holds (slot :: returns) where
  length_le := by
    rw [List.length_cons]
    omega
  slots_eq := by
    have hcount : 16 - returns.length - 1 = 16 - (slot :: returns).length := by
      rw [List.length_cons]
      omega
    show (slot &&& 0x3ff) :: stack.slots.dropLast = _
    rw [and_slotMask hslot, holds.slots_eq, List.dropLast_append_of_ne_nil (zeros_ne_nil hroom),
      List.dropLast_replicate, hcount, List.cons_append]
  ne_zero := List.forall_mem_cons.2 ⟨hne, holds.ne_zero⟩
  narrow := List.forall_mem_cons.2 ⟨hslot, holds.narrow⟩

theorem pop_nil (holds : stack.Holds []) : stack.pop = none := by
  have hempty : stack.looksEmpty = true := by
    rw [looksEmpty, holds.slots_eq]
    decide
  exact if_pos hempty

theorem pop_cons {slot : UInt16} (holds : stack.Holds (slot :: returns)) :
    ∃ rest, stack.pop = some (slot, rest) ∧ rest.Holds returns := by
  have hlength := holds.length_le
  rw [List.length_cons] at hlength
  have hslots := holds.slots_eq
  rw [List.cons_append] at hslots
  -- No entry is zero: that is why a stack that holds one does not look empty.
  have hoccupied : ¬stack.looksEmpty = true := by
    rw [looksEmpty, hslots, List.all_cons, Bool.and_eq_true, beq_iff_eq]
    exact fun hzero => holds.ne_zero slot List.mem_cons_self hzero.1
  have hentry : stack.slots.headD 0 &&& 0x3ff = slot := by
    rw [hslots]
    exact and_slotMask (holds.narrow slot List.mem_cons_self)
  have hpop : stack.pop = some (stack.slots.headD 0 &&& 0x3ff, _) := if_neg hoccupied
  rw [hentry] at hpop
  refine ⟨_, hpop, ?_⟩
  constructor
  · omega
  · have hcount : 16 - returns.length = 16 - (slot :: returns).length + 1 := by
      rw [List.length_cons]
      omega
    show stack.slots.tail ++ [0] = _
    rw [hslots, List.tail_cons, List.append_assoc, hcount, List.replicate_succ']
  · exact fun other hmem => holds.ne_zero other (List.mem_cons_of_mem slot hmem)
  · exact fun other hmem => holds.narrow other (List.mem_cons_of_mem slot hmem)

end Holds

end CallStack

/-! ## A machine with a list -/

def Outcome.finish {δ : Type} (done : Outcome δ Unit) (instruction : Instruction) :
    Outcome δ Instruction :=
  match done.result with
  | .error fault => ⟨.error fault, done.machine, done.device, done.events⟩
  | .ok () =>
      let moved := done.machine.complete instruction
      ⟨.ok instruction, moved.1, done.device, done.events ++ moved.2⟩

/-- A machine whose open return slots are in a list; the stack that it still has is not used. -/
structure IdealMachine where
  machine : Machine
  /-- The slots to return to, newest first. -/
  returns : List UInt16

namespace IdealMachine

variable {δ : Type} [Ports δ]

/-- Calls and returns go by the list; the machine carries out everything else. -/
def execute (ideal : IdealMachine) (device : δ) : Instruction → Outcome δ Unit × List UInt16
  | .call target =>
      let returnTo := ideal.machine.registers.pc + 1
      (⟨.ok (), ideal.machine.jump target, device, [.called target returnTo]⟩,
        returnTo :: ideal.returns)
  | .ret =>
      match ideal.returns with
      | [] => (⟨.ok (), ideal.machine, device,
          [.returnedFromNothing ideal.machine.registers.pc]⟩, [])
      | slot :: older => (⟨.ok (), ideal.machine.jump slot, device, [.returned slot]⟩, older)
  | instruction => (ideal.machine.execute device instruction, ideal.returns)

def step (ideal : IdealMachine) (device : δ) : Outcome δ Instruction × List UInt16 :=
  if ideal.machine.state = .halted then
    (⟨.error .notRunning, ideal.machine, device, []⟩, ideal.returns)
  else match ideal.machine.current with
    | .error fault => (⟨.error fault, ideal.machine, device, []⟩, ideal.returns)
    | .ok instruction =>
        let (done, returns) := ideal.execute device instruction
        (done.finish instruction, returns)

/-- The machine and the device after so many steps, whatever each of them came to. -/
def after (ideal : IdealMachine) (device : δ) : Nat → IdealMachine × δ
  | 0 => (ideal, device)
  | n + 1 =>
      let (before, device) := ideal.after device n
      let (outcome, returns) := before.step device
      (⟨outcome.machine, returns⟩, outcome.device)

/-- The next step is a call from the last slot, behind which there is none to return to. -/
def CallsFromLastSlot (ideal : IdealMachine) : Prop :=
  ideal.machine.state = .running ∧ ideal.machine.registers.pc = 1023 ∧
    ∃ target, ideal.machine.current = .ok (.call target)

end IdealMachine

namespace Machine

variable {δ : Type} [Ports δ]

/-- The machine and the device after so many steps, whatever each of them came to. -/
def after (machine : Machine) (device : δ) : Nat → Machine × δ
  | 0 => (machine, device)
  | n + 1 =>
      let (before, device) := machine.after device n
      let outcome := before.step device
      (outcome.machine, outcome.device)

/-! ## The stack as a part of its own -/

def withStack (machine : Machine) (stack : CallStack) : Machine :=
  { machine with stack := stack }

end Machine

def Outcome.withStack {δ α : Type} (outcome : Outcome δ α) (stack : CallStack) : Outcome δ α :=
  { outcome with machine := outcome.machine.withStack stack }

namespace Machine

variable {δ : Type} [Ports δ]

theorem execute_withStack (machine : Machine) (stack : CallStack) (device : δ)
    {instruction : Instruction} (hcall : ∀ target, instruction ≠ .call target)
    (hret : instruction ≠ .ret) :
    (machine.withStack stack).execute device instruction =
      (machine.execute device instruction).withStack stack := by
  cases instruction with
  | call target => exact absurd rfl (hcall target)
  | ret => exact absurd rfl hret
  | branch condition target =>
      show Outcome.mk _ (if machine.holds condition then _ else _) _ _ =
        Outcome.withStack ⟨_, if machine.holds condition then _ else _, _, _⟩ stack
      by_cases hholds : machine.holds condition = true
      · rw [if_pos hholds, if_pos hholds]
        rfl
      · rw [if_neg hholds, if_neg hholds]
        rfl
  | input port c =>
      simp only [execute, Instruction.request?, perform]
      cases (Ports.input device port).1 with
      | ok value => rfl
      | error e => rfl
  | _ => rfl

theorem complete_withStack (machine : Machine) (stack : CallStack) (instruction : Instruction) :
    (machine.withStack stack).complete instruction =
      ((machine.complete instruction).1.withStack stack, (machine.complete instruction).2) := by
  by_cases hhalt : instruction = .halt
  · subst hhalt
    rfl
  · by_cases hend : 1024 ≤ (machine.registers.pc + 1).toNat
    · rw [complete_of_le _ hhalt hend, complete_of_le (machine.withStack stack) hhalt hend]
      rfl
    · have hslot := Nat.not_le.1 hend
      rw [complete_of_lt _ hhalt hslot, complete_of_lt (machine.withStack stack) hhalt hslot]
      rfl

/-! ## Calls and returns -/

theorem enter_of_room (machine : Machine) (target : UInt16)
    (hroom : machine.stack.overflow? = none) :
    machine.enter target =
      ({ machine.jump target with stack := machine.stack.push (machine.registers.pc + 1) },
        [.called target (machine.registers.pc + 1)]) := by
  unfold enter
  rw [hroom]
  rfl

theorem leave_of_pop_eq_none (machine : Machine) (hpop : machine.stack.pop = none) :
    machine.leave = (machine, [.returnedFromNothing machine.registers.pc]) := by
  unfold leave
  rw [hpop]

theorem leave_of_pop_eq_some (machine : Machine) {slot : UInt16} {rest : CallStack}
    (hpop : machine.stack.pop = some (slot, rest)) :
    machine.leave = ({ machine.jump slot with stack := rest }, [.returned slot]) := by
  unfold leave
  rw [hpop]

theorem complete_jump (machine : Machine) (target : UInt16) {instruction : Instruction}
    (hgoes : instruction ≠ .halt) :
    (machine.jump target).complete instruction =
      ({ machine with
          cycles := machine.cycles + 1
          registers := { machine.registers with pc := target &&& 0x3ff } }, []) := by
  have hnext := machine.registers.advance_jump_pc target
  have hslot : ((machine.jump target).registers.pc + 1).toNat < 1024 := by
    have hmask := toNat_slotMask_le target
    rw [show (machine.jump target).registers.pc + 1 = target &&& 0x3ff from hnext]
    omega
  rw [complete_of_lt (machine.jump target) hgoes hslot, ← hnext]
  rfl

theorem step_of_current_ok {machine : Machine} {device : δ} {instruction : Instruction}
    (hrunning : machine.state = .running) (hcurrent : machine.current = .ok instruction) :
    machine.step device = (machine.execute device instruction).finish instruction := by
  simp only [step, ne_halted_of_running hrunning, if_false, hcurrent]
  rfl

end Machine

theorem Outcome.finish_withStack {δ : Type} (done : Outcome δ Unit) (stack : CallStack)
    (instruction : Instruction) :
    (done.withStack stack).finish instruction = (done.finish instruction).withStack stack := by
  obtain ⟨result, machine, device, events⟩ := done
  cases result with
  | error fault => rfl
  | ok done =>
      simp only [finish, withStack, machine.complete_withStack stack instruction]

/-! ## The stack follows the list -/

namespace IdealMachine

variable {δ : Type} [Ports δ] {ideal : IdealMachine} {stack : CallStack} {device : δ}

theorem call_simulated (holds : stack.Holds ideal.returns)
    (hpc : ideal.machine.registers.pc.toNat ≤ 1022) (hroom : ideal.returns.length < 16)
    (target : UInt16) :
    ∃ stack', (ideal.machine.withStack stack).execute device (.call target) =
        (ideal.execute device (.call target)).1.withStack stack' ∧
      stack'.Holds (ideal.execute device (.call target)).2 := by
  have hnext := ideal.machine.next_toNat (Nat.le_succ_of_le hpc)
  have hne : ideal.machine.registers.pc + 1 ≠ 0 := by
    intro hzero
    rw [hzero] at hnext
    cases hnext
  refine ⟨stack.push (ideal.machine.registers.pc + 1), ?_, holds.push hroom hne (by omega)⟩
  have henter := Machine.enter_of_room (ideal.machine.withStack stack) target
    (holds.overflow?_eq_none hroom)
  show Outcome.mk _ ((ideal.machine.withStack stack).enter target).1 _
    ((ideal.machine.withStack stack).enter target).2 = _
  rw [henter]
  rfl

theorem ret_simulated (holds : stack.Holds ideal.returns) :
    ∃ stack', (ideal.machine.withStack stack).execute device .ret =
        (ideal.execute device .ret).1.withStack stack' ∧
      stack'.Holds (ideal.execute device .ret).2 := by
  obtain ⟨machine, returns⟩ := ideal
  cases returns with
  | nil =>
      refine ⟨stack, ?_, holds⟩
      have hleave := Machine.leave_of_pop_eq_none (machine.withStack stack) holds.pop_nil
      show Outcome.mk _ (machine.withStack stack).leave.1 _ (machine.withStack stack).leave.2 = _
      rw [hleave]
      rfl
  | cons slot older =>
      obtain ⟨rest, hpop, hrest⟩ := holds.pop_cons
      refine ⟨rest, ?_, hrest⟩
      have hleave := Machine.leave_of_pop_eq_some (machine.withStack stack) hpop
      show Outcome.mk _ (machine.withStack stack).leave.1 _ (machine.withStack stack).leave.2 = _
      rw [hleave]
      rfl

theorem step_of_halted (hhalted : ideal.machine.state = .halted) :
    ideal.step device = (⟨.error .notRunning, ideal.machine, device, []⟩, ideal.returns) :=
  if_pos hhalted

theorem step_of_current_error {fault : Fault} (hrunning : ideal.machine.state = .running)
    (hcurrent : ideal.machine.current = .error fault) :
    ideal.step device = (⟨.error fault, ideal.machine, device, []⟩, ideal.returns) := by
  simp only [step, Machine.ne_halted_of_running hrunning, if_false, hcurrent]

theorem step_of_current_ok {instruction : Instruction} (hrunning : ideal.machine.state = .running)
    (hcurrent : ideal.machine.current = .ok instruction) :
    ideal.step device = ((ideal.execute device instruction).1.finish instruction,
      (ideal.execute device instruction).2) := by
  simp only [step, Machine.ne_halted_of_running hrunning, if_false, hcurrent]

theorem step_call {target : UInt16} (hrunning : ideal.machine.state = .running)
    (hcurrent : ideal.machine.current = .ok (.call target)) :
    ideal.step device =
      (⟨.ok (.call target),
        { ideal.machine with
          cycles := ideal.machine.cycles + 1
          registers := { ideal.machine.registers with pc := target &&& 0x3ff } },
        device, [.called target (ideal.machine.registers.pc + 1)]⟩,
        (ideal.machine.registers.pc + 1) :: ideal.returns) := by
  have hgoes : Instruction.call target ≠ .halt := nofun
  rw [step_of_current_ok hrunning hcurrent]
  show (Outcome.mk _ ((ideal.machine.jump target).complete (.call target)).1 _
    ([.called target (ideal.machine.registers.pc + 1)] ++
      ((ideal.machine.jump target).complete (.call target)).2), _) = _
  rw [ideal.machine.complete_jump target hgoes]
  rfl

theorem step_ret {slot : UInt16} {older : List UInt16} (hrunning : ideal.machine.state = .running)
    (hcurrent : ideal.machine.current = .ok .ret) (hreturns : ideal.returns = slot :: older) :
    ideal.step device =
      (⟨.ok .ret,
        { ideal.machine with
          cycles := ideal.machine.cycles + 1
          registers := { ideal.machine.registers with pc := slot &&& 0x3ff } },
        device, [.returned slot]⟩, older) := by
  have hgoes : Instruction.ret ≠ .halt := nofun
  rw [step_of_current_ok hrunning hcurrent]
  obtain ⟨machine, returns⟩ := ideal
  obtain rfl : returns = slot :: older := hreturns
  show (Outcome.mk _ ((machine.jump slot).complete .ret).1 _
    ([.returned slot] ++ ((machine.jump slot).complete .ret).2), _) = _
  rw [machine.complete_jump slot hgoes]
  rfl

theorem execute_simulated (holds : stack.Holds ideal.returns)
    (hpc : ideal.machine.registers.pc.toNat ≤ 1023) {instruction : Instruction}
    (hcall : ∀ target, instruction = .call target → ideal.machine.registers.pc ≠ 1023)
    (hdepth : (ideal.execute device instruction).2.length ≤ 16) :
    ∃ stack', (ideal.machine.withStack stack).execute device instruction =
        (ideal.execute device instruction).1.withStack stack' ∧
      stack'.Holds (ideal.execute device instruction).2 := by
  cases instruction with
  | call target =>
      have hbefore : ideal.machine.registers.pc.toNat ≠ 1023 := fun hlast =>
        hcall target rfl (UInt16.toNat_inj.1 hlast)
      exact call_simulated holds (by omega) hdepth target
  | ret => exact ret_simulated holds
  | _ => exact ⟨stack, Machine.execute_withStack _ _ _ nofun nofun, holds⟩

/--
One step of the machine is one step of the ideal machine, if a call has a slot to return to and
room for it on the stack.
-/
theorem step_simulated (holds : stack.Holds ideal.returns)
    (bounded : (ideal.machine.withStack stack).Bounded) (hcall : ¬ideal.CallsFromLastSlot)
    (hdepth : (ideal.step device).2.length ≤ 16) :
    ∃ stack', (ideal.machine.withStack stack).step device =
        (ideal.step device).1.withStack stack' ∧
      stack'.Holds (ideal.step device).2 := by
  cases hstate : ideal.machine.state with
  | halted =>
      have hhalted : (ideal.machine.withStack stack).state = .halted := hstate
      rw [Machine.step_of_halted hhalted, step_of_halted hstate]
      exact ⟨stack, rfl, holds⟩
  | running =>
      have hrunning : (ideal.machine.withStack stack).state = .running := hstate
      cases hcurrent : ideal.machine.current with
      | error fault =>
          rw [Machine.step_of_current_error hrunning hcurrent,
            step_of_current_error hstate hcurrent]
          exact ⟨stack, rfl, holds⟩
      | ok instruction =>
          -- Both machines finish alike, so only the instruction itself is to be compared.
          have hreal : (ideal.machine.withStack stack).current = .ok instruction := hcurrent
          rw [step_of_current_ok hstate hcurrent] at hdepth ⊢
          have hfrom (target : UInt16) (hsame : instruction = .call target) :
              ideal.machine.registers.pc ≠ 1023 := by
            intro hlast
            exact hcall ⟨hstate, hlast, target, hsame ▸ hcurrent⟩
          obtain ⟨stack', hexecute, hholds⟩ :=
            execute_simulated holds (bounded.pc_le_of_running hrunning) hfrom hdepth
          refine ⟨stack', ?_, hholds⟩
          rw [Machine.step_of_current_ok hrunning hreal, hexecute, Outcome.finish_withStack]

theorem after_simulated {n : Nat} (holds : stack.Holds ideal.returns)
    (bounded : (ideal.machine.withStack stack).Bounded)
    (hcalls : ∀ k < n, ¬(ideal.after device k).1.CallsFromLastSlot)
    (hdepth : ∀ k ≤ n, (ideal.after device k).1.returns.length ≤ 16) :
    ∃ stack', (ideal.machine.withStack stack).after device n =
        ((ideal.after device n).1.machine.withStack stack', (ideal.after device n).2) ∧
      stack'.Holds (ideal.after device n).1.returns ∧
      ((ideal.after device n).1.machine.withStack stack').Bounded := by
  -- The bounds go along with the list: without them a call might come from behind the last slot.
  induction n with
  | zero => exact ⟨stack, rfl, holds, bounded⟩
  | succ n ih =>
      obtain ⟨before, hbefore, hholds, hbounded⟩ := ih
        (fun k hk => hcalls k (Nat.lt_succ_of_lt hk)) (fun k hk => hdepth k (Nat.le_succ_of_le hk))
      have hroom : ((ideal.after device n).1.step (ideal.after device n).2).2.length ≤ 16 :=
        hdepth (n + 1) le_rfl
      obtain ⟨stack', hstep, hholds'⟩ :=
        step_simulated hholds hbounded (hcalls n (Nat.lt_succ_self n)) hroom
      have hbounded' := hbounded.step (ideal.after device n).2
      rw [hstep] at hbounded'
      refine ⟨stack', ?_, hholds', hbounded'⟩
      simp only [Machine.after, hbefore, hstep]
      rfl

end IdealMachine

/--
A machine fresh from loading an image goes through the same registers, memory, run states, cycle
counts and devices as the ideal machine, and its steps have the same results and events, as long
as the ideal machine calls nothing from the last slot and has at most sixteen calls open.
-/
theorem Machine.after_agrees_with_ideal {image : List UInt8} {loaded : Machine}
    {events : List Event} (hload : initial.load image = .ok (loaded, events)) {δ : Type} [Ports δ]
    (device : δ) (n : Nat)
    (hcalls : ∀ k < n, ¬(IdealMachine.after ⟨loaded, []⟩ device k).1.CallsFromLastSlot)
    (hdepth : ∀ k ≤ n, (IdealMachine.after ⟨loaded, []⟩ device k).1.returns.length ≤ 16) :
    let real := loaded.after device
    let ideal := IdealMachine.after ⟨loaded, []⟩ device
    ((real n).1.registers = (ideal n).1.machine.registers ∧
        (real n).1.memory = (ideal n).1.machine.memory ∧
        (real n).1.state = (ideal n).1.machine.state ∧
        (real n).1.cycles = (ideal n).1.machine.cycles ∧ (real n).2 = (ideal n).2) ∧
      ∀ k < n,
        ((real k).1.step (real k).2).result = ((ideal k).1.step (ideal k).2).1.result ∧
        ((real k).1.step (real k).2).events = ((ideal k).1.step (ideal k).2).1.events := by
  have hstart : loaded.withStack .empty = loaded := by
    rw [eq_of_load_eq_ok hload]
    rfl
  have bounded : (loaded.withStack .empty).Bounded := by
    rw [hstart]
    exact bounded_initial.load hload
  intro real ideal
  have simulated {k : Nat} (hk : k ≤ n) :
      ∃ stack, real k = ((ideal k).1.machine.withStack stack, (ideal k).2) ∧
        stack.Holds (ideal k).1.returns ∧ ((ideal k).1.machine.withStack stack).Bounded := by
    have hafter := IdealMachine.after_simulated CallStack.holds_empty bounded
      (fun j hj => hcalls j (Nat.lt_of_lt_of_le hj hk)) (fun j hj => hdepth j (Nat.le_trans hj hk))
    rwa [hstart] at hafter
  constructor
  · obtain ⟨stack, hreal, _, _⟩ := simulated le_rfl
    rw [hreal]
    exact ⟨rfl, rfl, rfl, rfl, rfl⟩
  · intro k hk
    obtain ⟨stack, hreal, holds, bounded⟩ := simulated (Nat.le_of_lt hk)
    obtain ⟨stack', hstep, _⟩ :=
      IdealMachine.step_simulated holds bounded (hcalls k hk) (hdepth (k + 1) hk)
    rw [hreal, hstep]
    exact ⟨rfl, rfl⟩

/-- A subroutine is called from slot 0 and returns to slot 1. -/
theorem Machine.after_agrees_with_ideal_subroutine :
    ∃ loaded events,
      initial.load [0x04, 0x90, 0x00, 0x08, 0x00, 0x98] = .ok (loaded, events) ∧
      let real := loaded.after (Script.ofInputs [])
      let ideal := IdealMachine.after ⟨loaded, []⟩ (Script.ofInputs [])
      (∀ k < 2, ¬(ideal k).1.CallsFromLastSlot) ∧ (∀ k ≤ 2, (ideal k).1.returns.length ≤ 16) ∧
        (ideal 1).1.returns = [1] ∧ (real 2).1.registers.pc = 1 := by
  have hsize : ([0x04, 0x90, 0x00, 0x08, 0x00, 0x98] : List UInt8).length ≤ 2048 := by decide
  obtain ⟨loaded, events, hload, hmemory⟩ := initial.exists_load_eq ⟨_, none, hsize⟩
  dsimp only at hload hmemory
  refine ⟨loaded, events, hload, ?_⟩
  have hloaded := eq_of_load_eq_ok hload
  intro real ideal
  have hcall : (ideal 0).1.machine.current = .ok (.call 2) := by
    have hslot : (0 : UInt16).toNat < 1024 := by decide
    show loaded.current = .ok (.call 2)
    rw [hloaded]
    exact current_of_bytes hslot (Memory.read_load hmemory 0) (Memory.read_load hmemory 1) rfl
  have hrunning : loaded.state = .running := by
    rw [hloaded]
    rfl
  have hpc : loaded.registers.pc = 0 := by
    rw [hloaded]
    rfl
  have hfirst : (ideal 1).1 =
      ⟨{ loaded with
          cycles := loaded.cycles + 1, registers := { loaded.registers with pc := 2 } }, [1]⟩ := by
    have hnext : (ideal 0).1.machine.registers.pc + 1 = 1 := by
      show loaded.registers.pc + 1 = 1
      rw [hpc]
      decide
    have htarget : (2 : UInt16) &&& 0x3ff = 2 := by decide
    show IdealMachine.mk ((ideal 0).1.step (ideal 0).2).1.machine
      ((ideal 0).1.step (ideal 0).2).2 = _
    rw [IdealMachine.step_call hrunning hcall, htarget, hnext]
    rfl
  have hret : (ideal 1).1.machine.current = .ok .ret := by
    have hslot : (2 : UInt16).toNat < 1024 := by decide
    rw [hfirst, hloaded]
    exact current_of_bytes hslot (Memory.read_load hmemory 4) (Memory.read_load hmemory 5) rfl
  have hagain : (ideal 1).1.machine.state = .running := by
    rw [hfirst]
    exact hrunning
  have hsecond : (ideal 2).1 =
      ⟨{ loaded with
          cycles := loaded.cycles + 1 + 1
          registers := { loaded.registers with pc := 1 } }, []⟩ := by
    have htarget : (1 : UInt16) &&& 0x3ff = 1 := by decide
    have hreturns : (ideal 1).1.returns = [1] := congrArg IdealMachine.returns hfirst
    show IdealMachine.mk ((ideal 1).1.step (ideal 1).2).1.machine
      ((ideal 1).1.step (ideal 1).2).2 = _
    rw [IdealMachine.step_ret hagain hret hreturns, hfirst, htarget]
  have hcalls : ∀ k < 2, ¬(ideal k).1.CallsFromLastSlot := by
    intro k hk ⟨_, hlast, _⟩
    obtain rfl | rfl : k = 0 ∨ k = 1 := by omega
    · have hzero : (0 : UInt16) = 1023 := hpc.symm.trans hlast
      exact absurd hzero (by decide)
    · rw [hfirst] at hlast
      have htwo : (2 : UInt16) = 1023 := hlast
      exact absurd htwo (by decide)
  have hdepth : ∀ k ≤ 2, (ideal k).1.returns.length ≤ 16 := by
    intro k hk
    obtain rfl | rfl | rfl : k = 0 ∨ k = 1 ∨ k = 2 := by omega
    · exact Nat.zero_le 16
    · rw [hfirst]
      exact Nat.le_add_left 1 15
    · rw [hsecond]
      exact Nat.zero_le 16
  obtain ⟨⟨hregisters, _⟩, _⟩ :=
    after_agrees_with_ideal hload (Script.ofInputs []) 2 hcalls hdepth
  refine ⟨hcalls, hdepth, ?_, ?_⟩
  · rw [hfirst]
  · show (loaded.after (Script.ofInputs []) 2).1.registers.pc = 1
    rw [hregisters]
    show (ideal 2).1.machine.registers.pc = 1
    rw [hsecond]

end Redstone

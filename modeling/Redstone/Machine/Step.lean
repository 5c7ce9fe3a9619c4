import Redstone.Instruction.Basic
import Redstone.Machine.Basic
import Redstone.Overflow
import Redstone.Ports.Basic

/-!
# One step

A step fetches the word in the current slot, decodes it, carries it out and
moves on.  A step that fails leaves the machine as it was; only the device may
have noticed the attempt.
-/

namespace Redstone

inductive Fault where
  | notRunning
  | memory (error : MemoryError)
  | decode (error : DecodeError)
  | port (error : PortError)
  /-- No error that is answered: the program stops. -/
  | overflow (cause : Overflow)
  deriving DecidableEq, Repr

namespace Fault

def message : Fault → String
  | notRunning => "CPU not running: Halted"
  | memory error => String.join ["memory error: ", error.message]
  | decode error => String.join ["decode error: ", error.message]
  | port error => String.join ["GPIO error: ", error.message]
  | overflow cause => cause.message

end Fault

structure Outcome (δ α : Type) where
  result : Except Fault α
  machine : Machine
  device : δ
  events : List Event

namespace Machine

def holds (machine : Machine) : Condition → Bool
  | .zero => machine.registers.zero
  | .notZero => !machine.registers.zero
  | .carry => machine.registers.carry
  | .notCarry => !machine.registers.carry

def offset (machine : Machine) (a imm : UInt8) : UInt16 :=
  (machine.registers.read a).toUInt16 + imm.toUInt16

/-- Pushes the slot after the current one and goes to the target. -/
def enter (machine : Machine) (target : UInt16) : Machine × List Event :=
  let returnTo := machine.registers.pc + 1
  let lost := match machine.stack.overflow? with
    | some dropped => [.stackOverflow dropped]
    | none => []
  ({ machine.jump target with stack := machine.stack.push returnTo },
    lost ++ [.called target returnTo])

/-- Goes back to the slot pushed last; with an empty stack nothing happens. -/
def leave (machine : Machine) : Machine × List Event :=
  match machine.stack.pop with
  | some (target, stack) =>
      ({ machine.jump target with stack := stack }, [.returned target])
  | none => (machine, [.returnedFromNothing machine.registers.pc])

/--
The effect of an instruction inside the machine.  The requests that go to a
device have none of their own here.
-/
def apply (machine : Machine) : Instruction → Machine × List Event
  | .nop | .halt | .input .. | .output .. | .bell => (machine, [])
  | .alu op a b c =>
      let out := Alu.run op (machine.registers.read a) (machine.registers.read b)
      let written := machine.registers.write c out.result.toNat
      ({ machine with registers := written.setFlags out.carry out.zero }, [])
  | .addNumber c imm =>
      let sum := (machine.registers.read c).toNat + imm.toNat
      (machine.setRegister c sum, [])
  | .putNumber c imm => (machine.setRegister c imm.toNat, [])
  | .jump target => (machine.jump target, [])
  | .branch condition target =>
      (if machine.holds condition then machine.jump target else machine, [])
  | .call target => machine.enter target
  | .ret => machine.leave
  | .read a imm c =>
      let page := machine.registers.page
      let value := machine.memory.readPaged page (machine.offset a imm)
      (machine.setRegister c value.toNat, [])
  | .store a imm c =>
      let page := machine.registers.page
      let offset := machine.offset a imm
      let value := machine.registers.read c
      let memory := machine.memory.writePaged page offset value
      ({ machine with memory := memory }, [])
  | .setPage imm b =>
      let selected :=
        machine.registers.setPage (imm ||| machine.registers.read b)
      ({ machine with registers := selected }, [.pageSelected selected.page])
  | .getPage c => (machine.setRegister c machine.registers.page.toNat, [])

/-- Makes a request to the device; only an input changes the machine. -/
def perform {δ : Type} [Ports δ] (machine : Machine) (device : δ) :
    Request → Outcome δ Unit
  | .input port c =>
      let answer := Ports.input device port
      match answer.1 with
      | .ok value =>
          ⟨.ok (), machine.setRegister c value.toNat, answer.2,
            [.portInput port value]⟩
      | .error e => ⟨.error (.port e), machine, answer.2, []⟩
  | .output c port =>
      let value := machine.registers.read c
      let answer := Ports.output device port value
      ⟨answer.1.mapError .port, machine, answer.2, [.portOutput port value]⟩
  | .bell =>
      let answer := Ports.bell device
      ⟨answer.1.mapError .port, machine, answer.2, []⟩

/-- Carries out an instruction, with the device where it is a request to one. -/
def execute {δ : Type} [Ports δ] (machine : Machine) (device : δ)
    (instruction : Instruction) : Outcome δ Unit :=
  match instruction.request? with
  | some request => machine.perform device request
  | none =>
      let applied := machine.apply instruction
      ⟨.ok (), applied.1, device, applied.2⟩

theorem machine_perform_of_error {δ : Type} [Ports δ] {machine : Machine}
    {device : δ} {request : Request} {fault : Fault}
    (h : (machine.perform device request).result = .error fault) :
    (machine.perform device request).machine = machine := by
  cases request with
  | input port c =>
      unfold perform at h ⊢
      cases answer : (Ports.input device port).1 with
      | error e => simp only [answer]
      | ok value => simp [answer] at h
  | output c port => rfl
  | bell => rfl

theorem machine_execute_of_error {δ : Type} [Ports δ] {machine : Machine}
    {device : δ} {instruction : Instruction} {fault : Fault}
    (h : (machine.execute device instruction).result = .error fault) :
    (machine.execute device instruction).machine = machine := by
  unfold execute at h ⊢
  cases request : instruction.request? with
  | none => simp [request] at h
  | some r =>
      simp only [request] at h ⊢
      exact machine_perform_of_error h

def complete (machine : Machine) (instruction : Instruction) :
    Machine × List Event :=
  let counted := { machine with cycles := machine.cycles + 1 }
  if instruction = .halt then
    ({ counted with state := .halted },
      [.halted counted.registers.pc counted.cycles])
  else
    let moved := { counted with registers := counted.registers.advance }
    if moved.atEnd then
      ({ moved with state := .halted }, [.reachedEnd moved.cycles])
    else (moved, [])

def current (machine : Machine) : Except Fault Instruction :=
  match machine.memory.fetch machine.registers.pc with
  | .error e => .error (.memory e)
  | .ok word => (Instruction.decode word).mapError .decode

/-- Executes the instruction in the current slot and names it. -/
def step {δ : Type} [Ports δ] (machine : Machine) (device : δ) :
    Outcome δ Instruction :=
  if machine.state = .halted then ⟨.error .notRunning, machine, device, []⟩
  else match machine.current with
    | .error fault => ⟨.error fault, machine, device, []⟩
    | .ok instruction =>
        let done := machine.execute device instruction
        match done.result with
        | .error fault =>
            ⟨.error fault, done.machine, done.device, done.events⟩
        | .ok () =>
            let moved := done.machine.complete instruction
            ⟨.ok instruction, moved.1, done.device, done.events ++ moved.2⟩

end Machine

end Redstone

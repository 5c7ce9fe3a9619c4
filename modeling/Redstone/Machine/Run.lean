import Redstone.Machine.Step

/-!
# Runs

A run repeats steps.  All kinds of run are the same repetition, bounded by a
number of instructions; they differ in where the bound comes from and in what
they answer.  A program need not halt, so a run without a limit of its own is
given an allowance and has no answer when the allowance is used up.
-/

namespace Redstone

structure Progress (δ : Type) where
  executed : Nat
  /-- The fault that ended the repetition, if one did. -/
  fault : Option Fault
  machine : Machine
  device : δ
  /-- Everything reported so far. -/
  events : Array Event

inductive StopReason where
  | halted | endOfMemory | cycleLimit | interrupted
  deriving DecidableEq, Repr

namespace StopReason

def label : StopReason → String
  | halted => "Halted"
  | endOfMemory => "EndOfMemory"
  | cycleLimit => "CycleLimit"
  | interrupted => "Interrupted"

def phrase : StopReason → String
  | halted => "Halted"
  | endOfMemory => "Reached end of memory"
  | cycleLimit => "Cycle limit reached"
  | interrupted => "Interrupted"

end StopReason

namespace Machine

variable {δ : Type} [Ports δ]

/-- Goes on with a repetition for at most `n` more instructions. -/
def continueFor : Nat → Progress δ → Progress δ
  | 0, progress => progress
  | n + 1, ⟨executed, fault, machine, device, events⟩ =>
      if machine.state = .halted then ⟨executed, fault, machine, device, events⟩
      else
        let outcome := machine.step device
        let events := events ++ outcome.events
        match outcome.result with
        | .error fault =>
            ⟨executed, some fault, outcome.machine, outcome.device, events⟩
        | .ok _ =>
            continueFor n
              ⟨executed + 1, none, outcome.machine, outcome.device, events⟩

/--
Steps until the machine has halted, a step fails or `n` instructions have been
executed.
-/
def advance (n : Nat) (machine : Machine) (device : δ) : Progress δ :=
  continueFor n ⟨0, none, machine, device, #[]⟩

/-- Why a machine that has halted did so. -/
def haltReason (machine : Machine) : StopReason :=
  if machine.atEnd then .endOfMemory else .halted

/--
Runs until the machine has halted or a step fails, and counts the
instructions; at most `allowance` are executed.
-/
def run (allowance : Nat) (machine : Machine) (device : δ) :
    Option (Outcome δ Nat) :=
  let progress := advance allowance machine device
  let ended (result : Except Fault Nat) : Outcome δ Nat :=
    ⟨result, progress.machine, progress.device, progress.events.toList⟩
  match progress.fault with
  | some fault => some (ended (.error fault))
  | none =>
      if progress.machine.state = .halted then
        some (ended (.ok progress.executed))
      else none

/--
Runs until the cycle counter is `max` further, the machine has halted or a step
fails, and counts the instructions.  The mark that the counter runs up to has 64
bits like the counter; if it does not fit, nothing is executed.
-/
def runLimited (max : UInt64) (machine : Machine) (device : δ) :
    Outcome δ Nat :=
  if UInt64.size ≤ machine.cycles.toNat + max.toNat then
    ⟨.error (.overflow .addition), machine, device, []⟩
  else
    let mark := machine.cycles + max
    let progress :=
      advance (mark.toNat - machine.cycles.toNat) machine device
    let result := match progress.fault with
      | some fault => .error fault
      | none => .ok progress.executed
    ⟨result, progress.machine, progress.device, progress.events.toList⟩

/--
Runs until the machine has halted, the limit on the number of instructions is
reached or a step fails.  A raised stop flag ends the run before its first
instruction.  Without a limit at most `allowance` instructions are executed.
-/
def runWith (allowance : Nat) (maxCycles : Option UInt64) (stop : Bool)
    (machine : Machine) (device : δ) : Option (Outcome δ StopReason) :=
  if machine.state = .halted then
    some ⟨.ok machine.haltReason, machine, device, []⟩
  else if stop then
    some ⟨.ok .interrupted, machine, device,
      [.interrupted machine.registers.pc]⟩
  else
    let bound := match maxCycles with
      | some max => max.toNat
      | none => allowance
    let progress := advance bound machine device
    let ended (result : Except Fault StopReason) (last : List Event) :
        Outcome δ StopReason :=
      ⟨result, progress.machine, progress.device,
        progress.events.toList ++ last⟩
    match progress.fault with
    | some fault => some (ended (.error fault) [])
    | none =>
        if progress.machine.state = .halted then
          some (ended (.ok progress.machine.haltReason) [])
        else match maxCycles with
          | some max => some (ended (.ok .cycleLimit) [.cycleLimit max])
          | none => none

end Machine

end Redstone

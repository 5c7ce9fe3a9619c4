import Mathlib.Logic.Function.Basic
import Redstone.Machine.Step

/-!
# The instruction set as a table

What an instruction word does, read off the word by division and remainder, to a
machine whose parts are all numbers. A jump sets the counter to its target; the
machine has no counter that runs ahead of itself and no typed instructions.
-/

namespace Redstone

namespace Table

/--
All that there is to a machine, as numbers. Registers and cells are zero beyond the eight
and the 2048 that there are.
-/
structure State where
  register : Nat → Nat
  pc : Nat
  carry : Bool
  zero : Bool
  page : Nat
  cell : Nat → Nat
  stack : List Nat
  halted : Bool
  cycles : Nat

def alu (code x y : Nat) : Nat × Bool :=
  match code with
  | 2 => ((x + y) % 256, 255 < x + y) -- ADD
  | 4 => ((x + (255 - y) + 1) % 256, 255 < x + (255 - y) + 1) -- SUB
  | 5 => (x ^^^ y, y < x) -- XOR
  | 6 => (255 - (x ^^^ y), 255 < x + y) -- XNO
  | 7 => (x ||| y, false) -- IOR
  | 8 => (255 - (x ||| y), false) -- NOR
  | 9 => (x &&& y, false) -- AND
  | 10 => ((255 - x) &&& (255 - y), false) -- NAN
  | _ => ((x + y) % 256 / 2, 255 < x + y) -- RSH

namespace State

def word (s : State) : Nat :=
  s.cell (2 * s.pc % 2048) + 256 * s.cell ((2 * s.pc + 1) % 2048)

/-- Register `c` takes a value modulo 256; register 0 takes none. -/
def put (s : State) (c value : Nat) : State :=
  if c = 0 then s else { s with register := Function.update s.register c (value % 256) }

def combine (s : State) (c : Nat) (out : Nat × Bool) : State :=
  { s.put c out.1 with carry := out.2, zero := out.1 = 0 }

/-- The cell that a register and a number select in the current page. -/
def address (s : State) (a imm : Nat) : Nat :=
  (s.page * 256 + s.register a + imm) % 2048

def goto (s : State) (slot : Nat) : State :=
  { s with pc := slot }

/-- Goes to a target and remembers the next slot, of which ten bits are kept. -/
def call (s : State) (target : Nat) : State :=
  { s.goto target with stack := (s.pc + 1) % 1024 :: s.stack.dropLast }

/-- Goes to the slot remembered last, unless every entry is zero. -/
def ret (s : State) : State :=
  if ∀ entry ∈ s.stack, entry = 0 then s.goto (s.pc + 1)
  else { s.goto (s.stack.headD 0 % 1024) with stack := s.stack.tail ++ [0] }

/--
The row of the table for a word: what changes, and the next slot. The byte
`received` is what a port has answered.
-/
def perform (s : State) (word received : Nat) : State :=
  let a := word / 64 % 8
  let b := word / 8 % 8
  let c := word % 8
  let byte := word / 8 % 256
  let target := word / 2 % 1024
  let on := s.goto (s.pc + 1)
  match word / 2048 with
  | 0 => on -- NOP
  | 1 => { s with halted := true } -- HLT
  | 3 => on.put c (s.register c + byte) -- ADI
  | 12 => on.put c byte -- LDI
  | 13 => s.goto target -- JMP
  | 14 => if s.zero then s.goto target else on -- BEQ
  | 15 => if s.zero then on else s.goto target -- BNE
  | 16 => if s.carry then s.goto target else on -- BGT
  | 17 => if s.carry then on else s.goto target -- BLT
  | 18 => s.call target -- CAL
  | 19 => s.ret -- RET
  | 20 => on.put c (s.cell (s.address a b)) -- REA
  | 21 => { on with cell := Function.update s.cell (s.address a b) (s.register c) } -- STO
  | 22 => on.put c received -- GPI
  | 23 => on -- GPO
  | 24 => on -- BEL
  | 25 => { on with page := (word / 256 % 8 ||| s.register b) % 8 } -- PAS
  | 26 => on.put c s.page -- PAG
  | code => on.combine c (alu code (s.register a) (s.register b))

/-- A whole step: one more cycle, and the machine halts behind the last slot. -/
def next (s : State) (word received : Nat) : State :=
  let after := s.perform word received
  { after with cycles := after.cycles + 1, halted := after.halted || 1024 ≤ after.pc }

@[simp] theorem put_cycles (s : State) (c value : Nat) : (s.put c value).cycles = s.cycles := by
  unfold put
  split <;> rfl

@[simp] theorem ret_cycles (s : State) : s.ret.cycles = s.cycles := by
  unfold ret
  split <;> rfl

theorem perform_cycles (s : State) (word received : Nat) :
    (s.perform word received).cycles = s.cycles := by
  unfold perform
  split
  case h_6 | h_7 | h_8 | h_9 => split <;> rfl
  all_goals simp [goto, call, combine]

end State

/-- What a word asks of the device: the answer, 0 if there is none, and the device. -/
def ask {δ : Type} [Ports δ] (s : State) (device : δ) (word : Nat) :
    Except PortError UInt8 × δ :=
  let port := UInt8.ofNat (word / 8 % 8)
  match word / 2048 with
  | 22 => Ports.input device port -- GPI
  | 23 => -- GPO
      let sent := Ports.output device port (UInt8.ofNat (s.register (word / 64 % 8)))
      (sent.1.map fun _ => 0, sent.2)
  | 24 => -- BEL
      let rung := Ports.bell device
      (rung.1.map fun _ => 0, rung.2)
  | _ => (.ok 0, device)

end Table

def Machine.view (machine : Machine) : Table.State where
  register i := (machine.registers.general.toList.getD i 0).toNat
  pc := machine.registers.pc.toNat
  carry := machine.registers.carry
  zero := machine.registers.zero
  page := machine.registers.page.toNat
  cell i := (machine.memory.cells.toList.getD i 0).toNat
  stack := machine.stack.slots.map UInt16.toNat
  halted := machine.state = .halted
  cycles := machine.cycles.toNat

end Redstone

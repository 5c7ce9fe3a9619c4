import Redstone.Machine.Run
import Redstone.Text.Document

/-!
# Reports on a machine

A machine is shown in three ways: on one line without its memory, as a document
with everything in it, and as the summary that ends a run.
-/

namespace Redstone

namespace Machine

def bracketed (numbers : List UInt16) : String :=
  "[" ++ ", ".intercalate (numbers.map toString) ++ "]"

def oneLine (machine : Machine) : String :=
  String.join
    ["Cpu \x7b state: ", machine.state.label, ", cycles: ",
      toString machine.cycles, ", regs: ", machine.registers.summary,
      ", stack: ", bracketed machine.stack.slots, " \x7d"]

def registersDocument (registers : Registers) : Document :=
  .record
    [("gpr", .list (registers.general.toList.map (.number ·.toNat))),
      ("pc", .number registers.pc.toNat),
      ("carry", .truth registers.carry),
      ("zero", .truth registers.zero),
      ("page", .number registers.page.toNat)]

def document (machine : Machine) : Document :=
  let cells := machine.memory.cells.toList.map fun cell => .number cell.toNat
  let slots := machine.stack.slots.map fun slot => .number slot.toNat
  .record
    [("regs", registersDocument machine.registers),
      ("mem", .record [("cells", .list cells)]),
      ("stack", .record [("slots", .list slots)]),
      ("state", .word machine.state.label),
      ("cycles", .number machine.cycles.toNat)]

def endReport (machine : Machine) (reason : StopReason) : String :=
  let registers := machine.registers
  let z := Registers.flagDigit registers.zero
  let c := Registers.flagDigit registers.carry
  let values := " ".intercalate registers.namedValues
  String.join
    [reason.phrase, " after ", toString machine.cycles, " cycle(s)\npc=",
      toString registers.pc, " page=", toString registers.page, " zero=",
      toString z, " carry=", toString c, "\n", values, "\n"]

end Machine

end Redstone

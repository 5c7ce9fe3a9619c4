import Redstone.Assembly.Symbols
import Redstone.Text.Blank
import Redstone.Text.Numeral

/-!
# Reports of the assembler

What the assembler tells while it works.  All its records share the value
`stage=assembly`, those about names also `pass=symbols`.
-/

namespace Redstone

inductive AssemblyReport where
  | mistake (line : Nat) (message : String)
  | symbol (event : SymbolEvent)
  /-- An instruction has its word; `source` is its line. -/
  | assembled (index word : UInt16) (source : String)
  | complete (instructions vars bytes : Nat)
  deriving DecidableEq, Repr

namespace AssemblyReport

/-- The record of a report, without the value that all share. -/
def bareRecord : AssemblyReport → Log.Record
  | mistake line message =>
      ⟨.error, "syntax error", [("line", toString line), ("message", message)]⟩
  | symbol event => event.record.tagged "pass" "symbols"
  | assembled index word source =>
      ⟨.debug, "assembled",
        [("index", toString index),
          ("address", Numeral.hex 4 (2 * index.toNat)),
          ("word", Numeral.binary16 word),
          ("source", Text.trim source)]⟩
  | complete instructions vars bytes =>
      ⟨.info, "assembly complete",
        [("instructions", toString instructions),
          ("variables", toString vars),
          ("bytes", toString bytes)]⟩

def record (report : AssemblyReport) : Log.Record :=
  report.bareRecord.tagged "stage" "assembly"

end AssemblyReport

end Redstone

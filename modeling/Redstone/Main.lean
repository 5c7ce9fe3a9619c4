import Redstone.CommandLine.Commands

/-!
# Program

The commands on real files and a real console.  A run prints as it goes, and
asks for a line of input only when the program waits for one.
-/

namespace Redstone

namespace Program

def readFile (path : String) : IO (Option (List UInt8)) := do
  try
    let bytes ← IO.FS.readBinFile path
    return some bytes.data.toList
  catch _ => return none

def writeFile (path : String) (contents : List UInt8) : IO Bool := do
  try
    IO.FS.writeBinFile path ⟨contents.toArray⟩
    return true
  catch _ => return false

def say (text : String) : IO Unit := do
  let output ← IO.getStdout
  output.putStr text
  output.flush

/-- The bytes up to the end of the next line of input, none at its end. -/
partial def nextLine (input : IO.FS.Stream) (read : ByteArray) :
    IO (List UInt8) := do
  let byte ← input.read 1
  if byte.isEmpty then return read.data.toList
  else if byte.data.contains 10 then return (read ++ byte).data.toList
  else nextLine input (read ++ byte)

def fail (error : CommandError) : IO UInt32 := do
  for diagnostic in match error with
      | .assembly e => e.diagnostics
      | _ => [] do
    IO.eprintln diagnostic.display
  IO.eprintln (String.join ["error: ", error.message])
  return UInt32.ofNat error.status

/-- The number of instructions after which a run prints what it has written. -/
def stride : UInt64 := 100000

/--
Runs a machine with a limit on the instructions or without one.  `asked` is the
part of the next text that is on the console already.
-/
partial def run (machine : Machine) (limit : Option UInt64) (dump : Bool)
    (asked : Nat) (line : List UInt8) : IO UInt32 := do
  let most := match limit with
    | some left => min left stride
    | none => stride
  match machine.runWith 0 (some most) false (Console.ofBytes line false) with
  | none => return 0
  | some outcome =>
      let after := outcome.machine
      let written := outcome.device.written
      say (written.drop asked).toString
      let left := limit.map fun n => n - (after.cycles - machine.cycles)
      match outcome.result with
      | .ok .cycleLimit =>
          if left = some 0 then
            say (Command.runReport after .cycleLimit dump)
            return 0
          else run after left dump 0 outcome.device.unread.flatten
      | .ok reason =>
          say (Command.runReport after reason dump)
          return 0
      | .error fault =>
          match fault with
          | .port (.inputClosed port) =>
              let next ← nextLine (← IO.getStdin) ByteArray.empty
              if next.isEmpty then fail (.machine fault)
              else run after left dump (Console.prompt port).length next
          | _ => fail (.machine fault)

def carryOut : Command → IO UInt32
  | .assemble source output format => do
      match Command.saving source output format (← readFile source) with
      | .error e => fail e
      | .ok saving =>
          if ← writeFile saving.path saving.contents then
            say saving.report
            return 0
          else fail (.unwritable saving.path)
  | .run path format maxCycles terminal dump => do
      match Command.bootProgram path format (← readFile path) with
      | .error e => fail e
      | .ok machine =>
          if terminal then fail .noTerminal
          else run machine maxCycles dump 0 []
  | .list path format => do
      match Command.listing path format (← readFile path) with
      | .error e => fail e
      | .ok text =>
          say text
          return 0

end Program

end Redstone

def main (arguments : List String) : IO UInt32 := do
  match Redstone.Arguments.parse arguments with
  | .ok command => Redstone.Program.carryOut command
  | .error refusal =>
      Redstone.Program.say refusal.printed
      if refusal = .usage then
        IO.eprintln Redstone.Refusal.helpText
      return UInt32.ofNat refusal.status

import Redstone.Assembly.Program
import Redstone.CommandLine.Arguments
import Redstone.CommandLine.FileTree
import Redstone.Listing
import Redstone.Machine.Report
import Redstone.Ports.Console

/-!
# Commands

What the commands do with the files they are given.  Assembling writes one file
or none; running and listing only print.  The exit status tells mistakes in a
source, which are the user's to mend, from everything else, and a program that
stopped by an overflow from one that ended.
-/

namespace Redstone

inductive CommandError where
  | unreadable (path : String)
  | unwritable (path : String)
  | assembly (error : AssemblyError)
  | image (error : ImageError)
  | machine (fault : Fault)
  | emptyProgram
  | noTerminal
  deriving DecidableEq, Repr

namespace CommandError

def status : CommandError → Nat
  | assembly (.mistakes _) | emptyProgram => 1
  | assembly (.overflow _) | machine (.overflow _) => 101
  | _ => 2

def message : CommandError → String
  | unreadable path => String.join ["could not read ", path]
  | unwritable path => String.join ["could not write ", path]
  | assembly error => error.message
  | image error => error.message
  | machine fault => fault.message
  | emptyProgram => "program is empty, no output will be written"
  | noTerminal => "terminal error: there is no terminal"

end CommandError

/-- What a command printed, what it left behind and whether it failed. -/
structure CommandResult where
  printed : String
  files : FileTree
  error : Option CommandError
  deriving DecidableEq, Repr

namespace CommandResult

def status (result : CommandResult) : Nat :=
  match result.error with
  | none => 0
  | some error => error.status

end CommandResult

/-- A file to be written, and what is printed once it is. -/
structure Saving where
  path : String
  contents : List UInt8
  report : String
  deriving DecidableEq, Repr

namespace Command

/-- The text of a source file, given its contents if it can be read. -/
def sourceText (path : String) (contents : Option (List UInt8)) :
    Except CommandError String :=
  match contents.bind Text.ofBytes? with
  | some source => .ok source
  | none => .error (.unreadable path)

def assembleText (path : String) (contents : Option (List UInt8)) :
    Except CommandError Image :=
  match sourceText path contents with
  | .error e => .error e
  | .ok source => (Assembly.ofSource source).result.mapError .assembly

def isSource (path : String) : Bool :=
  match PathName.extension? path with
  | some extension => extension.toList.map Char.toLower == ['a', 's', 'm']
  | none => false

def loadImage (path : String) (format : ImageFormat)
    (contents : Option (List UInt8)) : Except CommandError Image :=
  match contents with
  | none => .error (.unreadable path)
  | some contents => (Image.parse format contents).mapError .image

/-- The image that a path stands for: sources are assembled. -/
def loadProgram (path : String) (format : ImageFormat)
    (contents : Option (List UInt8)) : Except CommandError Image :=
  if isSource path then assembleText path contents
  else loadImage path format contents

def saving (source : String) (output : Option String) (format : ImageFormat)
    (contents : Option (List UInt8)) : Except CommandError Saving :=
  match assembleText source contents with
  | .error e => .error e
  | .ok image =>
      if image.bytes.isEmpty then .error .emptyProgram
      else
        let path := output.getD (PathName.withExtension source "bin")
        let instructions := image.instructionCount
        let vars := image.variableCount?.getD 0
        let report :=
          String.join
            ["Assembled ", toString instructions, " instruction(s), ",
              toString vars, " variable(s), ", toString image.size,
              " bytes -> ", path, "\n"]
        .ok ⟨path, image.contents format, report⟩

def boot (image : Image) : Except CommandError Machine :=
  match Machine.initial.load image.bytes with
  | .ok (machine, _) => .ok machine
  | .error e => .error (.machine (.memory e))

def bootProgram (path : String) (format : ImageFormat)
    (contents : Option (List UInt8)) : Except CommandError Machine :=
  match loadProgram path format contents with
  | .ok image => boot image
  | .error e => .error e

def runReport (machine : Machine) (reason : StopReason) (dump : Bool) :
    String :=
  let state := if dump then machine.document.indented 0 ++ "\n" else ""
  machine.endReport reason ++ state

/--
What a run prints and whether it fails.  A run without a limit has no answer if
it is still going on when the allowance is used up.
-/
def runMachine (allowance : Nat) (machine : Machine)
    (maxCycles : Option UInt64) (dump : Bool) (input : List UInt8) :
    Option (String × Option CommandError) :=
  let console := Console.ofBytes input false
  match machine.runWith allowance maxCycles false console with
  | none => none
  | some outcome =>
      let written := outcome.device.written
      match outcome.result with
      | .error fault => some (written, some (.machine fault))
      | .ok reason =>
          some (written ++ runReport outcome.machine reason dump, none)

def listing (path : String) (format : ImageFormat)
    (contents : Option (List UInt8)) : Except CommandError String :=
  match loadImage path format contents with
  | .ok image => .ok (Listing.ofBytes image.bytes none)
  | .error e => .error e

def execute (allowance : Nat) (files : FileTree) (input : List UInt8) :
    Command → Option CommandResult
  | assemble source output format =>
      match saving source output format (files.read? source) with
      | .error e => some ⟨"", files, some e⟩
      | .ok saving =>
          match files.write? saving.path saving.contents with
          | none => some ⟨"", files, some (.unwritable saving.path)⟩
          | some after => some ⟨saving.report, after, none⟩
  | run path format maxCycles terminal dump =>
      match bootProgram path format (files.read? path) with
      | .error e => some ⟨"", files, some e⟩
      | .ok machine =>
          if terminal then some ⟨"", files, some .noTerminal⟩
          else
            (runMachine allowance machine maxCycles dump input).map
              fun (printed, error) => ⟨printed, files, error⟩
  | list path format =>
      match listing path format (files.read? path) with
      | .error e => some ⟨"", files, some e⟩
      | .ok text => some ⟨text, files, none⟩

section Frame

variable {allowance : Nat} {files : FileTree} {input : List UInt8} {path : String}
  {format : ImageFormat} {maxCycles : Option UInt64} {terminal dump : Bool}
  {result : CommandResult}

theorem files_of_execute_run
    (done : execute allowance files input (.run path format maxCycles terminal dump) =
      some result) : result.files = files := by
  simp only [execute] at done
  split at done
  · cases done
    rfl
  · split at done
    · cases done
      rfl
    · obtain ⟨_, -, rfl⟩ := Option.map_eq_some_iff.1 done
      rfl

theorem files_of_execute_list
    (done : execute allowance files input (.list path format) = some result) :
    result.files = files := by
  simp only [execute] at done
  split at done <;> cases done <;> rfl

end Frame

end Command

namespace Refusal

def versionText : String :=
  "trc3emu 0.1.0\n"

def helpText : String :=
  String.join
    ["Assembler and emulator for the TRC3 redstone computer\n\n",
      "trc3emu asm SOURCE [-o OUTPUT] [--format bin|bits]\n",
      "trc3emu run IMAGE [--format auto|bin|bits] [--clock HZ]\n",
      "  [--max-cycles N] [-t] [--dump-state]\n",
      "trc3emu disasm IMAGE [--format auto|bin|bits]\n"]

def printed : Refusal → String
  | usage => ""
  | help => helpText
  | version => versionText

def status : Refusal → Nat
  | usage => 2
  | help | version => 0

end Refusal

end Redstone

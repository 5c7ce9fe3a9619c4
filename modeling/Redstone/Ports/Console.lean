import Redstone.Ports.Basic
import Redstone.Text.Blank
import Redstone.Text.Bytes
import Redstone.Text.Numeral

/-!
# Console ports

A device that asks for bytes on a line console.  Asking prompts and reads whole
lines until one holds a decimal byte; every other line is turned down and the
prompt is repeated.  Output and bell are written to the same console.
-/

namespace Redstone

/-- The lines not read yet, what has been written, and whether writing fails. -/
structure Console where
  unread : List (List UInt8)
  written : String
  broken : Bool
  deriving DecidableEq, Repr

namespace Console

def ofBytes (input : List UInt8) (broken : Bool) : Console where
  unread := Text.byteLines input
  written := ""
  broken := broken

def prompt (port : UInt8) : String :=
  String.join ["Input for port ", toString port, ": "]

def outputLine (port value : UInt8) : String :=
  String.join ["Port ", toString port, ": ", toString value, "\n"]

def rejection : String :=
  "Invalid input! Enter a decimal byte (0-255).\n"

/-- The byte that a decimal numeral denotes; a plus sign may stand in front. -/
def byteOf? (numeral : List Char) : Option UInt8 :=
  let digits := match numeral with
    | '+' :: rest => rest
    | _ => numeral
  match Numeral.value? 10 digits with
  | some n => if n < 256 then some (UInt8.ofNat n) else none
  | none => none

/-- The byte that a line holds, white space around it aside. -/
def lineByte? (line : String) : Option UInt8 :=
  byteOf? (Text.trimChars line.toList)

/-- Reads lines for a port, after `written`, until one decides the answer. -/
def ask (port : UInt8) (written : String) :
    List (List UInt8) → Except PortError UInt8 × Console
  | [] =>
      (.error (.inputClosed port), ⟨[], written ++ prompt port, false⟩)
  | line :: rest =>
      let asked := written ++ prompt port
      match Text.ofBytes? line with
      | none => (.error .invalidText, ⟨rest, asked, false⟩)
      | some text =>
          match lineByte? text with
          | some value => (.ok value, ⟨rest, asked, false⟩)
          | none => ask port (asked ++ rejection) rest

def write (console : Console) (text : String) : Except PortError Unit × Console :=
  if console.broken then (.error .writerClosed, console)
  else (.ok (), { console with written := console.written ++ text })

instance : Ports Console where
  input console port :=
    if console.broken then (.error .writerClosed, console)
    else ask port console.written console.unread
  output console port value :=
    console.write (outputLine port value)
  bell console := console.write "\x07"

example : lineByte? " +042\r\n" = some 42 := by decide

example : lineByte? "-0" = none := by decide

end Console

end Redstone

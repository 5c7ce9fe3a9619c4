import Redstone.Image.Basic
import Redstone.Text.Blank
import Redstone.Text.Lines
import Redstone.Text.Numeral

/-!
# Images as text

The bits form of an image has one byte on each line, as eight binary digits.
On reading, blank lines and everything from a semicolon on are ignored, and
white space around the digits as well.
-/

namespace Redstone

namespace Image

def toBits (image : Image) : String :=
  String.ofList
    (image.bytes.flatMap fun byte => (Numeral.binary8 byte).toList ++ ['\n'])

/-- What a line says, its comment and the white space around it left out. -/
def bitsCode (line : List Char) : List Char :=
  Text.trimChars (line.takeWhile (· != ';'))

def isBitsCode (code : List Char) : Bool :=
  code.length == 8 && code.all fun c => c == '0' || c == '1'

def bitsValue (code : List Char) : UInt8 :=
  UInt8.ofNat ((Numeral.value? 2 code).getD 0)

/-- What the lines of a bits text say, with the lines that say nothing. -/
def bitsCodes (text : String) : List (List Char) :=
  (Text.lineChars text.toList).map bitsCode

/-- Reads lines numbered from `number` on, after the bytes in `found`. -/
def readBits (number : Nat) (found : Array UInt8) :
    List (List Char) → Except ImageError (List UInt8)
  | [] => .ok found.toList
  | code :: rest =>
      if code.isEmpty then readBits (number + 1) found rest
      else if isBitsCode code then
        readBits (number + 1) (found.push (bitsValue code)) rest
      else .error (.badBitsLine number (String.ofList code))

def ofBits (text : String) : Except ImageError Image :=
  match readBits 1 #[] (bitsCodes text) with
  | .ok bytes => ofBytes bytes
  | .error e => .error e

end Image

end Redstone

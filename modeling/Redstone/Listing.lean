import Redstone.Instruction.Basic
import Redstone.Text.Numeral

/-!
# Listings

A listing shows an image line by line: the words that are code with their
slots and as instructions, the bytes behind them as numbers, and all of them
with their addresses and in binary.
-/

namespace Redstone

namespace Listing

/-- A word as an instruction, or a mark with the word if it is none. -/
def wordText (word : UInt16) : String :=
  match Instruction.decode word with
  | .ok instruction => instruction.text
  | .error _ => String.join ["??? ; ", Numeral.hex 4 word.toNat]

def title : String :=
  "; TRC3 Disassembly\n; ----------------\n\n"

def codeLine (slot : Nat) (word : UInt16) : String :=
  let shown := Numeral.column 16 (wordText word)
  let number := Numeral.decimal 4 slot
  let address := Numeral.hex 3 (2 * slot)
  String.join
    [number, ": ", shown, " ; ", address, "  ", Numeral.binary16 word, "\n"]

def dataLine (address : Nat) (byte : UInt8) : String :=
  let shown := Numeral.column 16 (toString byte)
  String.join
    ["      ", shown, " ; ", Numeral.hex 3 address, "  ", Numeral.binary8 byte,
      "\n"]

/--
The lines of an image from a slot on, of which `words` more words are code.
-/
def linesFrom (slot words : Nat) (found : Array String) :
    List UInt8 → Array String
  | low :: high :: rest =>
      match words with
      | words + 1 =>
          linesFrom (slot + 1) words
            (found.push (codeLine slot (Word.ofBytes low high))) rest
      | 0 => found ++ dataLines (2 * slot) (low :: high :: rest)
  | rest => found ++ dataLines (2 * slot) rest
where
  /-- The lines of data bytes from an address on. -/
  dataLines (address : Nat) (bytes : List UInt8) : List String :=
    bytes.mapIdx fun i byte => dataLine (address + i) byte

/--
The listing of an image.  At most `count` words are code; without a count all
whole words are.
-/
def ofBytes (bytes : List UInt8) (count : Option Nat) : String :=
  let words := count.getD (bytes.length / 2)
  title ++ String.join (linesFrom 0 words #[] bytes).toList

end Listing

end Redstone

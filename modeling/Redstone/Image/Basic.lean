/-!
# Program images

An image is what goes into memory: the instruction words of a program, low
byte first, and one byte for each variable behind them.  It is never larger
than memory.
-/

namespace Redstone

/-- How many instructions and variables the assembler put into an image. -/
structure Layout where
  instructionCount : Nat
  variableCount : Nat
  deriving DecidableEq, Repr

/-- A program image, with its layout if that is known. -/
structure Image where
  bytes : List UInt8
  layout : Option Layout
  length_bytes : bytes.length ≤ 2048
  deriving DecidableEq, Repr

inductive ImageError where
  | tooLarge (size : Nat)
  | badBitsLine (line : Nat) (text : String)
  | notText
  | unknownFormat (name : String)
  deriving DecidableEq, Repr

namespace ImageError

def message : ImageError → String
  | tooLarge size =>
      String.join
        ["image of ", toString size,
          " bytes exceeds the 2048-byte address space"]
  | badBitsLine line text =>
      String.join
        ["line ", toString line, ": expected 8 binary digits, found \"", text,
          "\""]
  | notText => "bits image is not valid UTF-8"
  | unknownFormat name =>
      String.join
        ["unknown image format \"", name, "\" (expected auto, bin or bits)"]

end ImageError

namespace Image

def ofBytes? (bytes : List UInt8) (layout : Option Layout) : Option Image :=
  if h : bytes.length ≤ 2048 then some ⟨bytes, layout, h⟩ else none

def ofBytes (bytes : List UInt8) : Except ImageError Image :=
  match ofBytes? bytes none with
  | some image => .ok image
  | none => .error (.tooLarge bytes.length)

def size (image : Image) : Nat :=
  image.bytes.length

/-- The number of instructions; without a layout every whole word is one. -/
def instructionCount (image : Image) : Nat :=
  match image.layout with
  | some layout => layout.instructionCount
  | none => image.size / 2

def variableCount? (image : Image) : Option Nat :=
  image.layout.map Layout.variableCount

end Image

end Redstone

import Redstone.Image.Bits
import Redstone.Text.Bytes

/-!
# Formats of image files

An image file holds the bytes themselves or their bits form.  A file whose
format is not given is taken for bits if its contents could be nothing else:
valid text with at least one byte in it and no line that is wrong.
-/

namespace Redstone

/-- The format of an image file, or the wish to find it out. -/
inductive ImageFormat where
  | auto | binary | bits
  deriving DecidableEq, Repr

namespace ImageFormat

def ofName? (name : String) : Option ImageFormat :=
  let key := String.ofList (name.toList.map Char.toLower)
  if key = "auto" then some auto
  else if key = "bin" ∨ key = "binary" then some binary
  else if key = "bits" ∨ key = "text" then some bits
  else none

def ofName (name : String) : Except ImageError ImageFormat :=
  match ofName? name with
  | some format => .ok format
  | none => .error (.unknownFormat name)

/-- Whether contents can be read as a bits text with something in it. -/
def looksLikeBits (contents : List UInt8) : Bool :=
  match Text.ofBytes? contents with
  | none => false
  | some text =>
      let codes := (Image.bitsCodes text).filter fun code => !code.isEmpty
      !codes.isEmpty && codes.all Image.isBitsCode

def detect (format : ImageFormat) (contents : List UInt8) : ImageFormat :=
  match format with
  | auto => if looksLikeBits contents then bits else binary
  | given => given

end ImageFormat

namespace Image

def parse (format : ImageFormat) (contents : List UInt8) :
    Except ImageError Image :=
  match format.detect contents with
  | .bits =>
      match Text.ofBytes? contents with
      | some text => ofBits text
      | none => .error .notText
  | _ => ofBytes contents

/-- The contents of a file that holds an image; bytes if no form is given. -/
def contents (image : Image) (format : ImageFormat) : List UInt8 :=
  match format with
  | .bits => Text.toBytes image.toBits
  | _ => image.bytes

end Image

end Redstone

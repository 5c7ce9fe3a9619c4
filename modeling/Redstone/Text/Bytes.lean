/-!
# Text as bytes

Files and console input are bytes.  They are text when they are valid UTF-8,
and every text has exactly one such form.
-/

namespace Redstone

namespace Text

def toBytes (text : String) : List UInt8 :=
  text.toUTF8.data.toList

def ofBytes? (bytes : List UInt8) : Option String :=
  String.fromUTF8? ⟨bytes.toArray⟩

theorem ofBytes?_toBytes (text : String) :
    ofBytes? (toBytes text) = some text := by
  have same : (⟨(toBytes text).toArray⟩ : ByteArray) = text.toUTF8 := by
    simp [toBytes]
  rw [ofBytes?, same]
  unfold String.fromUTF8?
  split
  · rfl
  · next h => exact absurd text.isValidUTF8 h

theorem toBytes_of_ofBytes? {bytes : List UInt8} {text : String}
    (h : ofBytes? bytes = some text) : toBytes text = bytes := by
  unfold ofBytes? String.fromUTF8? at h
  split at h
  · cases h
    simp [toBytes, String.fromUTF8]
  · cases h

/--
Byte lines: each ends with the line feed that closes it, only the last one may
be open.
-/
def byteLines (bytes : List UInt8) : List (List UInt8) :=
  bytes.foldr
    (fun byte lines =>
      if byte = 10 then [byte] :: lines
      else match lines with
        | [] => [[byte]]
        | line :: rest => (byte :: line) :: rest)
    []

theorem flatten_byteLines (bytes : List UInt8) :
    (byteLines bytes).flatten = bytes := by
  induction bytes with
  | nil => rfl
  | cons byte rest ih =>
      have unfolded : byteLines (byte :: rest) =
          if byte = 10 then [byte] :: byteLines rest
          else match byteLines rest with
            | [] => [[byte]]
            | line :: lines => (byte :: line) :: lines := rfl
      rw [unfolded]
      split
      · simp [ih]
      · cases h : byteLines rest with
        | nil => simp_all
        | cons line lines => simp_all

example : byteLines [65, 10, 10, 66] = [[65, 10], [10], [66]] := by decide

end Text

end Redstone

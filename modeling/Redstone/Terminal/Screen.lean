/-!
# Screens

What a program has sent to one port, as lines of text.  A line feed starts a
new line, backspace and delete take back the last character of the line, other
control codes leave a mark, and bytes that are not ASCII leave nothing.  Only
the last 500 lines are kept.
-/

namespace Redstone

/-- The lines of one port, and whether something came in while not viewed. -/
structure Screen where
  /-- Lines and the characters in them, newest first. -/
  rows : List (List Char)
  unread : Bool
  deriving DecidableEq, Repr

namespace Screen

def scrollback : Nat := 500

def empty : Screen where
  rows := [[]]
  unread := false

/-- What a control code leaves in a line. -/
def mark : Char := '\ufffd'

/-- Adds a character to the newest line, or starts one with it. -/
def append (c : Char) : List (List Char) → List (List Char)
  | [] => [[c]]
  | line :: older => (c :: line) :: older

/-- Takes back the newest character of the newest line, if there is one. -/
def erase : List (List Char) → List (List Char)
  | [] => []
  | line :: older => line.tail :: older

/-- Starts a line, and gives up the oldest if there are too many. -/
def breakLine (rows : List (List Char)) : List (List Char) :=
  ([] :: rows).take scrollback

def putByte (rows : List (List Char)) (byte : UInt8) : List (List Char) :=
  if byte = 0x0a then breakLine rows
  else if byte = 0x08 ∨ byte = 0x7f then erase rows
  else if byte < 0x20 then append mark rows
  else if byte < 0x7f then append (Char.ofNat byte.toNat) rows
  else rows

def put (screen : Screen) (byte : UInt8) : Screen :=
  { screen with rows := putByte screen.rows byte }

def lines (screen : Screen) : List (List Char) :=
  (screen.rows.map List.reverse).reverse

def text (screen : Screen) : String :=
  "\n".intercalate (screen.lines.map String.ofList)

example : (([0x61, 0x62, 0x08, 0x0a, 0x01] : List UInt8).foldl put empty).text
    = "a\n\ufffd" := by decide

end Screen

end Redstone

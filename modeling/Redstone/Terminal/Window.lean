import Redstone.Terminal.Board
import Redstone.Terminal.Canvas
import Redstone.Text.Lines

/-!
# The window

Three boxes one below the other: the ports with their marks, the last lines of
the viewed terminal, and the message.  The window is at least sixteen columns
wide and eleven rows high.
-/

namespace Redstone

namespace Window

/-- The label of a terminal: a star for unread output, a question mark for a wait. -/
def label (board : Board) (i : Fin 8) : List Char :=
  let unread := if (board.screen i).unread then "*" else " "
  let waiting := if board.isWaiting i then "?" else " "
  let text := String.join
    [" F", toString (i.val + 1), " p", toString i.val, unread, waiting, " "]
  text.toList

def labelStyle (board : Board) (i : Fin 8) : Style :=
  if i = board.viewed then ⟨.black, .cyan, true, false⟩
  else if (board.screen i).unread then .coloured .yellow
  else .plain

def labels (board : Board) : Row :=
  (List.finRange 8).flatMap fun i =>
    Row.styled (labelStyle board i) (label board i) ++ [Cell.ofChar .plain '|']

def portsBox (board : Board) (width : Nat) : List Row :=
  let frame : Frame := ⟨width, 3, " Ports ", .plain, .plain⟩
  frame.draw [labels board]

def mark (cell : Cell) : List Row → List Row
  | [] => []
  | [last] => [last ++ [cell]]
  | row :: rows => row :: mark cell rows

def screenFrame (board : Board) (width height : Nat) : Frame :=
  if board.finished then
    ⟨width, height, " Halted ", .coloured .darkGray, .coloured .darkGray⟩
  else
    let title := String.join [" Terminal ", toString board.viewed.val, " "]
    ⟨width, height, title, .coloured .green, .coloured .white⟩

/--
The last lines of the viewed terminal.  While the program waits there, a
blinking mark follows the newest line.
-/
def visibleRows (board : Board) (frame : Frame) : List Row :=
  let lines := (board.screen board.viewed).lines
  let shown := lines.drop (lines.length - frame.innerHeight)
  let rows := shown.map (Row.styled frame.inside)
  if !board.finished && board.isWaiting board.viewed then
    mark (Cell.ofChar { frame.inside with blink := true } '_') rows
  else rows

def screenBox (board : Board) (width height : Nat) : List Row :=
  let frame := screenFrame board width height
  frame.draw (visibleRows board frame)

/-- The box of the message, which can hold characters of any width. -/
def statusBox (board : Board) (width : Nat) : List Row :=
  let style := Style.coloured .white
  let frame : Frame := ⟨width, 3, " Status ", style, style⟩
  let lines := Text.lineChars board.status.text.toList
  frame.draw (lines.map (Row.ofText frame.innerWidth style))

def draw (board : Board) (width height : Nat) : List Row :=
  portsBox board width ++ screenBox board width (height - 6) ++
    statusBox board width

end Window

end Redstone

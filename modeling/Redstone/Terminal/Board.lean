import Redstone.Machine.Run
import Redstone.Ports.Handoff
import Redstone.Terminal.Screen

/-!
# The board of terminals

Eight terminals, one for each port, of which one is viewed.  What the program
sends goes to the screen of its port; what the user types goes to the viewed
port, and only if the program waits there.
-/

namespace Redstone

inductive Status where
  | running
  | rung (bells : Nat)
  | stopped (reason : StopReason)
  | failed (message : String)
  deriving DecidableEq, Repr

namespace Status

def text : Status → String
  | running => "Running. Tab/F1-F8: switch terminal, Esc: quit."
  | rung bells => String.join ["Bell (", toString bells, ")"]
  | stopped .halted => "Halted. Esc: quit."
  | stopped .endOfMemory => "Reached end of memory. Esc: quit."
  | stopped reason => String.join ["Stopped: ", reason.label, ". Esc: quit."]
  | failed message => String.join ["Error: ", message, ". Esc: quit."]

end Status

/-- The terminals with the places where typed characters change hands. -/
structure Board where
  screens : Vector Screen 8
  handoffs : Vector Handoff 8
  viewed : Fin 8
  /-- The program has come to an end. -/
  finished : Bool
  status : Status
  bells : Nat
  deriving DecidableEq

namespace Board

/-- The terminal of a port; ports beyond the eighth share the terminals. -/
def terminal (port : Nat) : Fin 8 :=
  ⟨port % 8, Nat.mod_lt port (by decide)⟩

/-- Empty screens, nobody waiting, the first terminal viewed. -/
def initial : Board where
  screens := Vector.replicate 8 Screen.empty
  handoffs := Vector.replicate 8 Handoff.initial
  viewed := terminal 0
  finished := false
  status := .running
  bells := 0

def screen (board : Board) (i : Fin 8) : Screen :=
  board.screens[i]

def handoff (board : Board) (i : Fin 8) : Handoff :=
  board.handoffs[i]

def setScreen (board : Board) (i : Fin 8) (screen : Screen) : Board :=
  { board with screens := board.screens.set i.val screen i.isLt }

def setHandoff (board : Board) (i : Fin 8) (handoff : Handoff) : Board :=
  { board with handoffs := board.handoffs.set i.val handoff i.isLt }

/-- Shows a byte that the program sends; a terminal out of view becomes unread. -/
def output (board : Board) (port value : UInt8) : Board :=
  let i := terminal port.toNat
  let screen := (board.screen i).put value
  let unread := screen.unread || i != board.viewed
  board.setScreen i { screen with unread := unread }

def ring (board : Board) : Board :=
  { board with
    bells := board.bells + 1
    status := .rung (board.bells + 1) }

/-- The program has come to an end, for a reason or with an error. -/
def finish (board : Board) (result : Except String StopReason) : Board :=
  { board with
    finished := true
    status := match result with
      | .ok reason => .stopped reason
      | .error message => .failed message }

def view (board : Board) (i : Fin 8) : Board :=
  let read := { board.screen i with unread := false }
  { board.setScreen i read with viewed := i }

def select (board : Board) (index : Nat) : Board :=
  if h : index < 8 then board.view ⟨index, h⟩ else board

def next (board : Board) : Board :=
  board.view (terminal (board.viewed.val + 1))

/-- Views the terminal before, before the first one the last. -/
def previous (board : Board) : Board :=
  board.view (terminal (board.viewed.val + 7))

def typedByte? (c : Char) : Option UInt8 :=
  if 0x20 ≤ c.toNat ∧ c.toNat ≤ 0x7e then some (UInt8.ofNat c.toNat) else none

/-- Offers a typed character to the viewed port.  The answer tells whether it was taken. -/
def offer (board : Board) (c : Char) : Bool × Board :=
  match typedByte? c with
  | none => (false, board)
  | some byte =>
      let (taken, after) := (board.handoff board.viewed).give byte
      (taken, board.setHandoff board.viewed after)

def ask (board : Board) (port : Nat) : Handoff.Reply × Board :=
  let (reply, after) := (board.handoff (terminal port)).ask
  (reply, board.setHandoff (terminal port) after)

def wake (board : Board) (i : Fin 8) : Handoff.Reply × Board :=
  let (reply, after) := (board.handoff i).wake
  (reply, board.setHandoff i after)

/-- Releases the program if it waits at a terminal, and refuses everything there from then on. -/
def shut (board : Board) (i : Fin 8) : Board :=
  board.setHandoff i (board.handoff i).close

def isWaiting (board : Board) (i : Fin 8) : Bool :=
  (board.handoff i).isWaiting

end Board

end Redstone

/-!
# Ports

The machine reaches the outside world through eight byte ports and a bell.  A
device answers the three requests that an instruction can make; each answer is
a result together with the device as it is afterwards.
-/

namespace Redstone

inductive PortError where
  /-- A script has no byte left for the port. -/
  | scriptExhausted (port : UInt8)
  /-- The console input ended while the port waited for a byte. -/
  | inputClosed (port : UInt8)
  /-- A console line is not valid UTF-8. -/
  | invalidText
  /-- Nobody reads what the console writes. -/
  | writerClosed
  deriving DecidableEq, Repr

namespace PortError

/-- The kinds of failure that callers tell apart. -/
inductive Kind where
  | unexpectedEnd | invalidData | brokenPipe
  deriving DecidableEq, Repr

def kind : PortError → Kind
  | scriptExhausted _ | inputClosed _ => .unexpectedEnd
  | invalidText => .invalidData
  | writerClosed => .brokenPipe

def message : PortError → String
  | scriptExhausted port =>
      String.join ["no scripted input left for port ", toString port]
  | inputClosed port =>
      String.join ["input closed while port ", toString port, " was waiting"]
  | invalidText => "stream did not contain valid UTF-8"
  | writerClosed => "writer closed"

end PortError

/-- A type of devices that the machine can be connected to. -/
class Ports (δ : Type) where
  /-- Asks for a byte from a port. -/
  input : δ → UInt8 → Except PortError UInt8 × δ
  /-- Sends a byte, given last, to a port. -/
  output : δ → UInt8 → UInt8 → Except PortError Unit × δ
  /-- Rings the bell. -/
  bell : δ → Except PortError Unit × δ

end Redstone

import Redstone.Log

/-!
# Events of a run

What a machine reports while it loads and runs.  All its records share the
value `stage=execution`.
-/

namespace Redstone

inductive Event where
  | imageLoaded (bytes : Nat)
  | halted (pc : UInt16) (cycles : UInt64)
  | reachedEnd (cycles : UInt64)
  | interrupted (pc : UInt16)
  | cycleLimit (max : UInt64)
  | stackOverflow (dropped : UInt16)
  | called (target returnTo : UInt16)
  | returned (target : UInt16)
  | returnedFromNothing (pc : UInt16)
  | portInput (port value : UInt8)
  | portOutput (port value : UInt8)
  | pageSelected (page : UInt8)
  deriving DecidableEq, Repr

namespace Event

/-- The record of an event, without the value that all share. -/
def bareRecord : Event → Log.Record
  | imageLoaded bytes => ⟨.debug, "image loaded", [("bytes", toString bytes)]⟩
  | halted pc cycles =>
      ⟨.info, "halted", [("pc", toString pc), ("cycles", toString cycles)]⟩
  | reachedEnd cycles =>
      ⟨.info, "reached end of memory", [("cycles", toString cycles)]⟩
  | interrupted pc => ⟨.info, "interrupted", [("pc", toString pc)]⟩
  | cycleLimit max =>
      ⟨.info, "cycle limit reached", [("cycles", toString max)]⟩
  | stackOverflow dropped =>
      ⟨.warning, "call stack overflow, oldest return address lost",
        [("dropped", toString dropped)]⟩
  | called target returnTo =>
      ⟨.debug, "call",
        [("target", toString target), ("return", toString returnTo)]⟩
  | returned target => ⟨.debug, "return", [("target", toString target)]⟩
  | returnedFromNothing pc =>
      ⟨.warning, "RET on an empty call stack", [("pc", toString pc)]⟩
  | portInput port value =>
      ⟨.debug, "gpio input",
        [("port", toString port), ("value", toString value)]⟩
  | portOutput port value =>
      ⟨.debug, "gpio output",
        [("port", toString port), ("value", toString value)]⟩
  | pageSelected page => ⟨.debug, "page select", [("page", toString page)]⟩

def record (event : Event) : Log.Record :=
  event.bareRecord.tagged "stage" "execution"

end Event

end Redstone

import Redstone.Ports.Basic

/-!
# Scripted ports

A device with a prepared queue of input bytes, shared by all ports.  It records
what is sent and how often the bell rings, and only an empty queue makes it
fail.
-/

namespace Redstone

structure Script where
  inputs : List UInt8
  outputs : Array (UInt8 × UInt8)
  bells : Nat
  deriving DecidableEq, Repr

namespace Script

def ofInputs (inputs : List UInt8) : Script where
  inputs := inputs
  outputs := #[]
  bells := 0

def portOutput (script : Script) (port : UInt8) : List UInt8 :=
  script.outputs.toList.filterMap fun (sentTo, value) =>
    if sentTo = port then some value else none

instance : Ports Script where
  input script port :=
    match script.inputs with
    | [] => (.error (.scriptExhausted port), script)
    | value :: rest => (.ok value, { script with inputs := rest })
  output script port value :=
    (.ok (), { script with outputs := script.outputs.push (port, value) })
  bell script := (.ok (), { script with bells := script.bells + 1 })

end Script

end Redstone

import Redstone.Instruction.Word

/-!
# Memory

The machine has 2048 bytes.  They are seen in three ways: by a linear address
that wraps around, by a page of 256 bytes and an offset that may run on into
the next pages, and by the slots of two bytes that hold instruction words.
-/

namespace Redstone

structure Memory where
  cells : Vector UInt8 2048
  deriving DecidableEq

inductive MemoryError where
  | fetchOutOfRange (slot : UInt16)
  | imageTooLarge (size : Nat)
  deriving DecidableEq, Repr

namespace MemoryError

def message : MemoryError → String
  | fetchOutOfRange slot =>
      String.join
        ["instruction fetch at slot ", toString slot,
          " is past the end of memory"]
  | imageTooLarge size =>
      String.join
        ["image of ", toString size,
          " bytes exceeds the 2048-byte address space"]

end MemoryError

namespace Memory

def size : Nat := 2048

def slotCount : Nat := 1024

def empty : Memory :=
  ⟨Vector.replicate 2048 0⟩

def cell (address : Nat) : Fin 2048 :=
  ⟨address % 2048, Nat.mod_lt address (by decide)⟩

def read (memory : Memory) (address : Nat) : UInt8 :=
  memory.cells[cell address]

def write (memory : Memory) (address : Nat) (value : UInt8) : Memory :=
  ⟨memory.cells.set (cell address).val value (cell address).isLt⟩

theorem read_write (memory : Memory) (address other : Nat) (value : UInt8) :
    (memory.write address value).read other =
      if address % 2048 = other % 2048 then value else memory.read other := by
  simp [read, write, cell, Vector.getElem_set]

def pagedAddress (page : UInt8) (offset : UInt16) : Nat :=
  (page.toNat * 256 + offset.toNat) % 2048

def readPaged (memory : Memory) (page : UInt8) (offset : UInt16) : UInt8 :=
  memory.read (pagedAddress page offset)

def writePaged (memory : Memory) (page : UInt8) (offset : UInt16)
    (value : UInt8) : Memory :=
  memory.write (pagedAddress page offset) value

def fetch (memory : Memory) (slot : UInt16) : Except MemoryError UInt16 :=
  if slot.toNat < slotCount then
    .ok (Word.ofBytes (memory.read (2 * slot.toNat))
      (memory.read (2 * slot.toNat + 1)))
  else .error (.fetchOutOfRange slot)

/-- Memory with an image in its first bytes; the bytes above it stay. -/
def load (memory : Memory) (image : List UInt8) : Except MemoryError Memory :=
  let bytes := image.toArray
  if bytes.size ≤ size then
    .ok ⟨memory.cells.mapFinIdx fun i old _ => bytes.getD i old⟩
  else .error (.imageTooLarge bytes.size)

theorem read_load {memory loaded : Memory} {image : List UInt8}
    (h : memory.load image = .ok loaded) (address : Nat) :
    loaded.read address = image.getD (address % 2048) (memory.read address) := by
  simp only [load] at h
  split at h
  · cases h
    simp [read, cell]
  · cases h

/-- Memory with consecutive bytes replaced from an address on. -/
def poke (memory : Memory) (address : Nat) (bytes : List UInt8) : Memory :=
  let put := fun (state : Memory × Nat) byte =>
    (state.1.write state.2 byte, state.2 + 1)
  (bytes.foldl put (memory, address)).1

def nonZeroCount (memory : Memory) : Nat :=
  memory.cells.toList.countP (· != 0)

def summary (memory : Memory) : String :=
  String.join
    ["Memory \x7b non_zero_cells: ", toString memory.nonZeroCount,
      ", total_cells: ", toString size, " \x7d"]

end Memory

end Redstone

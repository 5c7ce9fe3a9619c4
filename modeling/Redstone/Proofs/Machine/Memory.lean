import Redstone.Machine.Memory

/-!
# One store of bytes

Memory is written by address, by page and offset, by whole images and by clearing, and read by
address, by page and offset and by slot. All of them reach the same 2048 cells: a cell holds the
byte that was put there last, whichever way it came, and each view is a number of the cell modulo
2048. One change is told by what it puts into a cell; by induction a sequence of changes is.
-/

namespace Redstone

namespace Memory

inductive Change where
  | write (address : Nat) (value : UInt8)
  | writePaged (page : UInt8) (offset : UInt16) (value : UInt8)
  | load (image : List UInt8)
  | clear

/-- Memory behind a change. An image that is refused changes nothing. -/
def behind (memory : Memory) : Change → Memory
  | .write address value => memory.write address value
  | .writePaged page offset value => memory.writePaged page offset value
  | .load image =>
      match memory.load image with
      | .ok loaded => loaded
      | .error _ => memory
  | .clear => .empty

def Change.put? (cell : Nat) : Change → Option UInt8
  | .write address value => if address % 2048 = cell then some value else none
  | .writePaged page offset value =>
      if (256 * page.toNat + offset.toNat) % 2048 = cell then some value else none
  | .load image => if image.length ≤ 2048 then image[cell]? else none
  | .clear => some 0

/-- The byte that was put last into a cell, which is zero before. -/
def lastPut (changes : List Change) (cell : Nat) : UInt8 :=
  (changes.filterMap (Change.put? cell)).getLastD 0

/-! ## The views -/

section Views

variable (memory : Memory)

theorem getElem?_toList_cells {cell : Nat} (hcell : cell < 2048) :
    memory.cells.toList[cell]? = some (memory.read cell) := by
  have hinside : cell < memory.cells.toList.length := by
    rw [Vector.length_toList]
    exact hcell
  have hmod : cell % 2048 = cell := Nat.mod_eq_of_lt hcell
  rw [List.getElem?_eq_getElem hinside]
  simp [read, Memory.cell, hmod]

theorem read_mod (address : Nat) : memory.read (address % 2048) = memory.read address := by
  simp only [read, cell, Nat.mod_mod]

theorem pagedAddress_eq (page : UInt8) (offset : UInt16) :
    pagedAddress page offset = (256 * page.toNat + offset.toNat) % 2048 := by
  rw [pagedAddress, Nat.mul_comm]

/-- The word in a slot is the byte at twice its number and, above it, the byte behind that. -/
theorem exists_fetch_eq_ok {slot : UInt16} (hslot : slot.toNat < 1024) :
    ∃ word, memory.fetch slot = .ok word ∧
      word.toNat = (memory.read (2 * slot.toNat)).toNat +
        256 * (memory.read (2 * slot.toNat + 1)).toNat := by
  have hlow := (memory.read (2 * slot.toNat)).toNat_lt
  have hhigh := (memory.read (2 * slot.toNat + 1)).toNat_lt
  refine ⟨_, if_pos hslot, ?_⟩
  rw [Word.ofBytes, UInt16.toNat_ofNat', Nat.mod_eq_of_lt (by omega)]
  omega

theorem fetch_of_le {slot : UInt16} (hslot : 1024 ≤ slot.toNat) :
    memory.fetch slot = .error (.fetchOutOfRange slot) :=
  if_neg (Nat.not_lt.2 hslot)

/-! ## Loading -/

theorem exists_load_eq_ok {image : List UInt8} (hsize : image.length ≤ 2048) :
    ∃ loaded, memory.load image = .ok loaded :=
  ⟨_, if_pos (by rwa [List.size_toArray])⟩

theorem load_of_lt {image : List UInt8} (hsize : 2048 < image.length) :
    memory.load image = .error (.imageTooLarge image.length) := by
  have hlarge : ¬image.toArray.size ≤ size := by
    rw [List.size_toArray]
    exact Nat.not_le.2 hsize
  rw [load, if_neg hlarge, List.size_toArray]

theorem behind_load_of_lt {image : List UInt8} (hsize : 2048 < image.length) :
    memory.behind (.load image) = memory := by
  simp only [behind, memory.load_of_lt hsize]

variable {memory} in
theorem read_of_load_eq_ok {loaded : Memory} {image : List UInt8}
    (hload : memory.load image = .ok loaded) {cell : Nat} (hcell : cell < 2048) :
    loaded.read cell = image[cell]?.getD (memory.read cell) := by
  rw [read_load hload, Nat.mod_eq_of_lt hcell, List.getD_eq_getElem?_getD]

end Views

/-! ## Changes -/

theorem read_empty (address : Nat) : empty.read address = 0 := by
  simp [read, empty]

/-- A cell is what a change puts there, or what it was before. -/
theorem read_behind (memory : Memory) (change : Change) {cell : Nat} (hcell : cell < 2048) :
    (memory.behind change).read cell = (change.put? cell).getD (memory.read cell) := by
  have hmod : cell % 2048 = cell := Nat.mod_eq_of_lt hcell
  cases change with
  | write address value =>
      simp only [behind, Change.put?, read_write, hmod]
      split <;> rfl
  | writePaged page offset value =>
      simp only [behind, Change.put?, writePaged, read_write, pagedAddress_eq, Nat.mod_mod, hmod]
      split <;> rfl
  | load image =>
      by_cases hsize : image.length ≤ 2048
      · obtain ⟨loaded, hload⟩ := memory.exists_load_eq_ok hsize
        simp only [behind, Change.put?, hload, if_pos hsize]
        exact read_of_load_eq_ok hload hcell
      · rw [memory.behind_load_of_lt (Nat.not_le.1 hsize), Change.put?, if_neg hsize]
        rfl
  | clear => exact read_empty cell

/-- A cell is what the changes put there last, or what it was before all of them. -/
theorem read_foldl_behind (memory : Memory) (changes : List Change) {cell : Nat}
    (hcell : cell < 2048) :
    (changes.foldl behind memory).read cell =
      (changes.filterMap (Change.put? cell)).getLastD (memory.read cell) := by
  induction changes generalizing memory with
  | nil => rfl
  | cons change changes ih =>
      rw [List.foldl_cons, ih, memory.read_behind change hcell, List.filterMap_cons]
      cases change.put? cell with
      | none => rfl
      | some value => exact (List.getLastD_cons ..).symm

theorem read_foldl_behind_empty (changes : List Change) (address : Nat) :
    (changes.foldl behind empty).read address = lastPut changes (address % 2048) := by
  have hcell : address % 2048 < 2048 := Nat.mod_lt address (by decide)
  rw [← read_mod, read_foldl_behind empty changes hcell, read_empty, lastPut]

/--
Memory is one store behind its views. After any changes each of the 2048 cells holds the byte that
was put there last. An address reads the cell that it is modulo 2048, an offset in a page the cell
`256 * page + offset` modulo 2048, and a slot, if it is below 1024, the cells at twice its number
and behind; a slot from 1024 on is refused. An image of at most 2048 bytes is loaded into the first
cells, as many as it has bytes, and the others stay; a larger one is refused and changes nothing.
-/
theorem one_store (changes : List Change) :
    let memory := changes.foldl behind empty
    memory.cells.toList.length = 2048 ∧
      (∀ cell < 2048, memory.cells.toList[cell]? = some (lastPut changes cell)) ∧
      (∀ address, memory.read address = lastPut changes (address % 2048)) ∧
      (∀ page offset, pagedAddress page offset < 2048 ∧
        memory.readPaged page offset =
          lastPut changes ((256 * page.toNat + offset.toNat) % 2048)) ∧
      (∀ slot : UInt16, slot.toNat < 1024 → 2 * slot.toNat + 1 < 2048 ∧
        ∃ word, memory.fetch slot = .ok word ∧
          word.toNat = (lastPut changes (2 * slot.toNat)).toNat +
            256 * (lastPut changes (2 * slot.toNat + 1)).toNat) ∧
      (∀ slot : UInt16, 1024 ≤ slot.toNat →
        memory.fetch slot = .error (.fetchOutOfRange slot)) ∧
      (∀ image, image.length ≤ 2048 → ∃ loaded, memory.load image = .ok loaded ∧
        (∀ cell value, image[cell]? = some value → loaded.read cell = value) ∧
        ∀ cell < 2048, image.length ≤ cell → loaded.read cell = memory.read cell) ∧
      ∀ image, 2048 < image.length →
        memory.load image = .error (.imageTooLarge image.length) ∧
          memory.behind (.load image) = memory := by
  intro memory
  have hread := read_foldl_behind_empty changes
  have hbelow {cell : Nat} (hcell : cell < 2048) : memory.read cell = lastPut changes cell := by
    rw [hread, Nat.mod_eq_of_lt hcell]
  refine ⟨Vector.length_toList, ?_, hread, ?_, ?_, fun slot => memory.fetch_of_le, ?_,
    fun image hsize => ⟨memory.load_of_lt hsize, memory.behind_load_of_lt hsize⟩⟩
  · intro cell hcell
    rw [memory.getElem?_toList_cells hcell, hbelow hcell]
  · intro page offset
    refine ⟨Nat.mod_lt _ (by decide), ?_⟩
    rw [readPaged, hread, pagedAddress_eq, Nat.mod_mod]
  · intro slot hslot
    obtain ⟨word, hfetch, hword⟩ := memory.exists_fetch_eq_ok hslot
    rw [hbelow (by omega), hbelow (by omega)] at hword
    exact ⟨by omega, word, hfetch, hword⟩
  · intro image hsize
    obtain ⟨loaded, hload⟩ := memory.exists_load_eq_ok hsize
    refine ⟨loaded, hload, ?_, ?_⟩
    · intro cell value hvalue
      have hcell : cell < image.length := (List.getElem?_eq_some_iff.1 hvalue).1
      rw [read_of_load_eq_ok hload (by omega), hvalue]
      rfl
    · intro cell hcell hbehind
      rw [read_of_load_eq_ok hload hcell, List.getElem?_eq_none hbehind]
      rfl

/--
The last offset that the top page carries on to cell 0, an address that wraps to cell 1, and the
word that both make.
-/
theorem one_store_wrapped :
    let changes := [Change.load [1, 2, 3], .writePaged 7 256 9, .write 2049 5]
    let memory := changes.foldl behind empty
    memory.cells.toList[1]? = some 5 ∧ memory.readPaged 8 2 = 3 ∧
      ∃ word, memory.fetch 0 = .ok word ∧ word.toNat = 0x0509 := by
  intro changes memory
  obtain ⟨_, hcells, _, hpaged, hfetch, _⟩ := one_store changes
  obtain ⟨_, word, hword, hbytes⟩ := hfetch 0 (by decide)
  have hcell : memory.cells.toList[1]? = some 5 := (hcells 1 (by decide)).trans (by decide)
  refine ⟨hcell, (hpaged 8 2).2.trans (by decide), word, hword, ?_⟩
  rw [hbytes]
  decide

end Memory

end Redstone

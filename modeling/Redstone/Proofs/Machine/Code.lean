import Redstone.Proofs.Machine.Memory
import Redstone.Proofs.Machine.Step
import Redstone.Proofs.Program.Image

/-!
# Assembled code in memory

As long as no step stores below the end of the code, memory keeps the words of a
program, and what the machine fetches and decodes in a slot is the instruction on the
line of that number. One step changes no byte but the one that it stores; by
induction a run changes none of the code.
-/

namespace Redstone

namespace Machine

variable (machine : Machine)

/-- The address at which the next step stores a byte, if it stores one. -/
def storeAddress? : Option Nat :=
  match machine.state, machine.current with
  | .running, .ok (.store a imm _) =>
      some (Memory.pagedAddress machine.registers.page (machine.offset a imm))
  | _, _ => none

/-- What steps lead to from `first` if none of them stores below `size`. -/
inductive Sparing (size : Nat) (first : Machine) : Machine → Prop where
  | start : Sparing size first first
  | step {before : Machine} (run : Sparing size first before)
      (spares : ∀ address, before.storeAddress? = some address → size ≤ address)
      {δ : Type} [Ports δ] (device : δ) : Sparing size first (before.step device).machine

section Stored

variable {machine} {δ : Type} [Ports δ] (device : δ)

theorem exists_of_storeAddress?_eq_some {address : Nat}
    (hstore : machine.storeAddress? = some address) :
    ∃ a imm c, machine.state = .running ∧ machine.current = .ok (.store a imm c) ∧
      Memory.pagedAddress machine.registers.page (machine.offset a imm) = address := by
  unfold storeAddress? at hstore
  split at hstore
  case h_1 a imm c hrunning hcurrent =>
    exact ⟨a, imm, c, hrunning, hcurrent, Option.some.inj hstore⟩
  case h_2 => cases hstore

/-- A store puts the byte where it says; no device can make it fail. -/
theorem read_step_store {a imm c : UInt8} (hrunning : machine.state = .running)
    (hcurrent : machine.current = .ok (.store a imm c)) :
    (machine.step device).machine.memory.read
      (Memory.pagedAddress machine.registers.page (machine.offset a imm)) =
        machine.registers.read c := by
  rw [step_of_execute_ok hrunning hcurrent rfl, memory_complete]
  exact (Memory.read_write ..).trans (if_pos rfl)

/-- A step keeps every byte but the one that it stores. -/
theorem read_step_of_ne {address : Nat} (haddress : address < 2048)
    (hother : machine.storeAddress? ≠ some address) :
    (machine.step device).machine.memory.read address = machine.memory.read address := by
  cases hstate : machine.state with
  | halted => rw [step_of_halted hstate]
  | running =>
      cases hcurrent : machine.current with
      | error fault => rw [step_of_current_error hstate hcurrent]
      | ok instruction =>
          cases hresult : (machine.execute device instruction).result with
          | error fault => rw [step_of_execute_error hstate hcurrent hresult]
          | ok done =>
              rw [step_of_execute_ok hstate hcurrent hresult, memory_complete, memory_execute]
              -- Only a store is left; its address is below 2048, so writing does not wrap it.
              cases instruction with
              | store a imm c =>
                  have hapart : Memory.pagedAddress machine.registers.page
                      (machine.offset a imm) ≠ address := fun hsame =>
                    hother (by simp only [storeAddress?, hstate, hcurrent, hsame])
                  have hinside : Memory.pagedAddress machine.registers.page
                      (machine.offset a imm) < 2048 := Nat.mod_lt _ (by decide)
                  simp only [Memory.writePaged]
                  rw [Memory.read_write, if_neg (by omega)]
              | _ => rfl

end Stored

/-- A run that spares the bytes below `size` keeps them. -/
theorem Sparing.read_eq {size : Nat} (hsize : size ≤ 2048) {first last : Machine}
    (run : Sparing size first last) {address : Nat} (haddress : address < size) :
    last.memory.read address = first.memory.read address := by
  induction run with
  | start => rfl
  | step _ spares device ih =>
      have hother := fun hstore => Nat.not_le.2 haddress (spares address hstore)
      rw [read_step_of_ne device (by omega) hother, ih]

end Machine

/-! ## Fetching the words of an image -/

def Memory.HoldsSlot (memory : Memory) (bytes : List UInt8) (i : Nat) : Prop :=
  memory.read (2 * i) = bytes.getD (2 * i) 0 ∧
    memory.read (2 * i + 1) = bytes.getD (2 * i + 1) 0

/-- A slot that holds its word of a program is fetched and decoded as its line. -/
theorem Program.Encodes.exists_fetch_eq {program : Program} {bytes : List UInt8}
    (encodes : program.Encodes bytes) (hsmall : program.size ≤ 2048) {memory : Memory}
    {slot : UInt16} (holds : memory.HoldsSlot bytes slot.toNat)
    {line : Opcode × List String} (hline : program.instructions[slot.toNat]? = some line) :
    ∃ word instruction, memory.fetch slot = .ok word ∧ Instruction.decode word = .ok instruction ∧
      instruction.opcode = line.1 ∧ Resolves program line.1 line.2 instruction.operands := by
  have hslot : slot.toNat < program.slotCount := (List.getElem?_eq_some_iff.1 hline).1
  have hinside : slot.toNat < Memory.slotCount := by
    unfold size at hsmall
    unfold Memory.slotCount
    omega
  obtain ⟨values, resolves, hword⟩ := encodes.exists_word_eq hline
  obtain ⟨instruction, hdecode, hopcode, hoperands⟩ := Instruction.decode_pack resolves.fit
  have hfetch : memory.fetch slot = .ok (Word.pack line.1 (values.map UInt16.toNat)) := by
    unfold Memory.fetch
    rw [if_pos hinside, holds.1, holds.2, hword]
  refine ⟨_, instruction, hfetch, hdecode, hopcode, ?_⟩
  rw [hoperands]
  exact resolves

namespace Machine

/-! ## Loading an image -/

theorem exists_load_eq (machine : Machine) (image : Image) :
    ∃ loaded events, machine.load image.bytes = .ok (loaded, events) ∧
      machine.memory.load image.bytes = .ok loaded.memory := by
  obtain ⟨memory, hmemory⟩ := machine.memory.exists_load_eq_ok image.length_bytes
  refine ⟨{ machine with memory := memory }, [.imageLoaded image.bytes.length], ?_, hmemory⟩
  unfold load
  rw [hmemory]

theorem eq_of_load_eq_ok {machine loaded : Machine} {bytes : List UInt8} {events : List Event}
    (hload : machine.load bytes = .ok (loaded, events)) :
    loaded = { machine with memory := loaded.memory } := by
  unfold load at hload
  split at hload
  · cases hload
    rfl
  · cases hload

/-- A run that spares the code leaves the words of the image in their slots. -/
theorem Sparing.holdsSlot {first loaded last : Machine} {bytes : List UInt8} {count : Nat}
    (hcount : 2 * count ≤ bytes.length) (hbytes : bytes.length ≤ 2048)
    (hload : first.memory.load bytes = .ok loaded.memory)
    (run : Sparing (2 * count) loaded last) {i : Nat} (hi : i < count) :
    last.memory.HoldsSlot bytes i := by
  have hread {address : Nat} (haddress : address < 2 * count) :
      last.memory.read address = bytes.getD address 0 := by
    have hinside : address < bytes.length := by omega
    rw [run.read_eq (by omega) haddress, Memory.read_load hload, Nat.mod_eq_of_lt (by omega),
      List.getD_eq_getElem?_getD, List.getD_eq_getElem?_getD, List.getElem?_eq_getElem hinside]
    rfl
  exact ⟨hread (by omega), hread (by omega)⟩

/-- A machine that is switched on and loaded is about to execute the code of the image. -/
theorem exists_initial_load_eq {source : String} {image : Image} {program : Program}
    (hassemble : assemble source = .ok image) (hreads : Reads source program) :
    ∃ loaded events, initial.load image.bytes = .ok (loaded, events) ∧
      loaded.state = .running ∧ loaded.registers = .initial ∧
      ∀ last, Sparing (2 * program.slotCount) loaded last →
        ∀ i < program.slotCount, last.memory.HoldsSlot image.bytes i := by
  obtain ⟨same, reads, _, _, encodes, _⟩ := (assemble_eq_ok_iff source image).1 hassemble
  cases reads.unique hreads
  obtain ⟨loaded, events, hload, hmemory⟩ := initial.exists_load_eq image
  have hloaded := eq_of_load_eq_ok hload
  have hlength : 2 * program.slotCount ≤ image.bytes.length := by
    rw [encodes.length_eq]
    exact Nat.le_add_right ..
  refine ⟨loaded, events, hload, by rw [hloaded]; rfl, by rw [hloaded]; rfl, ?_⟩
  intro last run i hi
  exact run.holdsSlot hlength image.length_bytes hmemory hi

end Machine

/--
An assembled program is what a machine runs: in every run that stores nothing into the
code, each slot of the code is fetched and decoded as the instruction on its line, with the
values of its operands, and a step there fails only if the device does.
-/
theorem fetches_assembled {source : String} {image : Image}
    (hassemble : assemble source = .ok image) :
    ∃ program loaded events, Reads source program ∧
      Machine.initial.load image.bytes = .ok (loaded, events) ∧
      ∀ machine, Machine.Sparing (2 * program.slotCount) loaded machine →
        machine.state = .running → machine.registers.pc.toNat < program.slotCount →
        (∃ line word instruction,
          program.instructions[machine.registers.pc.toNat]? = some line ∧
          machine.memory.fetch machine.registers.pc = .ok word ∧
          Instruction.decode word = .ok instruction ∧ instruction.opcode = line.1 ∧
          Resolves program line.1 line.2 instruction.operands) ∧
        ∀ (δ : Type) [Ports δ] (device : δ) (fault : Fault),
          (machine.step device).result = .error fault → ∃ e, fault = .port e := by
  obtain ⟨program, reads, _, hsize, encodes, _⟩ := (assemble_eq_ok_iff source image).1 hassemble
  obtain ⟨loaded, events, hload, _, _, holds⟩ := Machine.exists_initial_load_eq hassemble reads
  refine ⟨program, loaded, events, reads, hload, ?_⟩
  intro machine run hrunning hslot
  have hline := List.getElem?_eq_getElem hslot
  obtain ⟨word, instruction, hfetch, hdecode, hagrees⟩ :=
    encodes.exists_fetch_eq hsize (holds machine run _ hslot) hline
  refine ⟨⟨_, word, instruction, hline, hfetch, hdecode, hagrees⟩, ?_⟩
  intro δ _ device fault hstep
  exact Machine.exists_port_of_step_error hrunning (Machine.current_eq_ok hfetch hdecode) hstep

/-- The machine with the loop loaded is at a slot of its code. -/
theorem fetches_assembled_loop :
    ∃ image loaded events, assemble "loop:\nJMP loop" = .ok image ∧
      Machine.initial.load image.bytes = .ok (loaded, events) ∧ loaded.state = .running ∧
      ∃ word instruction, loaded.memory.fetch loaded.registers.pc = .ok word ∧
        Instruction.decode word = .ok instruction ∧ instruction.opcode = .jmp := by
  obtain ⟨image, hassemble⟩ := exists_loop_image
  obtain ⟨program, loaded, events, hreads, hload, hall⟩ := fetches_assembled hassemble
  have hloaded := Machine.eq_of_load_eq_ok hload
  have hrunning : loaded.state = .running := by rw [hloaded]; rfl
  have hpc : loaded.registers.pc = 0 := by rw [hloaded]; rfl
  cases hreads.unique reads_loopProgram
  obtain ⟨⟨line, word, instruction, hline, hfetch, hdecode, hopcode, _⟩, _⟩ :=
    hall loaded .start hrunning (by rw [hpc]; decide)
  rw [hpc] at hline
  cases hline
  exact ⟨image, loaded, events, hassemble, hload, hrunning, word, instruction, hfetch, hdecode,
    hopcode⟩

end Redstone

import Mathlib.Data.Set.Insert
import Redstone.Proofs.Machine.Calls

/-!
# Cells that are not read

A step looks at the two cells of its slot and at the one that a read names, and at no others. So
two machines that differ only in some cells take the same step if the first looks at none of
these, and a byte that is stored is the same in both: the cells that differ only become fewer. By
induction a whole run does not depend on what it has not written itself before reading it.
-/

namespace Redstone

/-! ## Memory as a part of its own -/

def Machine.withMemory (machine : Machine) (memory : Memory) : Machine :=
  { machine with memory := memory }

def Outcome.withMemory {δ α : Type} (outcome : Outcome δ α) (memory : Memory) : Outcome δ α :=
  { outcome with machine := outcome.machine.withMemory memory }

namespace Machine

variable {δ : Type} [Ports δ]

/-- The byte that a read takes is all that an instruction knows of memory. -/
theorem execute_withMemory (machine : Machine) (memory : Memory) (device : δ)
    {instruction : Instruction}
    (hread : ∀ a imm c, instruction = .read a imm c →
      memory.readPaged machine.registers.page (machine.offset a imm) =
        machine.memory.readPaged machine.registers.page (machine.offset a imm)) :
    (machine.withMemory memory).execute device instruction =
      (machine.execute device instruction).withMemory
        (match instruction with
          | .store a imm c =>
              memory.writePaged machine.registers.page (machine.offset a imm)
                (machine.registers.read c)
          | _ => memory) := by
  cases instruction with
  | read a imm c =>
      show Outcome.mk _ ((machine.withMemory memory).setRegister c
        (memory.readPaged machine.registers.page (machine.offset a imm)).toNat) _ _ = _
      rw [hread a imm c rfl]
      rfl
  | branch condition target =>
      show Outcome.mk _ (if machine.holds condition then _ else _) _ _ =
        Outcome.withMemory ⟨_, if machine.holds condition then _ else _, _, _⟩ memory
      by_cases hholds : machine.holds condition = true
      · rw [if_pos hholds, if_pos hholds]
        rfl
      · rw [if_neg hholds, if_neg hholds]
        rfl
  | ret =>
      show Outcome.mk _ (machine.withMemory memory).leave.1 _ (machine.withMemory memory).leave.2 =
        Outcome.withMemory ⟨_, machine.leave.1, _, machine.leave.2⟩ memory
      cases hpop : machine.stack.pop with
      | none =>
          rw [leave_of_pop_eq_none machine hpop,
            leave_of_pop_eq_none (machine.withMemory memory) hpop]
          rfl
      | some popped =>
          rw [leave_of_pop_eq_some machine hpop,
            leave_of_pop_eq_some (machine.withMemory memory) hpop]
          rfl
  | input port c =>
      simp only [execute, Instruction.request?, perform]
      cases (Ports.input device port).1 with
      | ok value => rfl
      | error e => rfl
  | _ => rfl

theorem complete_withMemory (machine : Machine) (memory : Memory) (instruction : Instruction) :
    (machine.withMemory memory).complete instruction =
      ((machine.complete instruction).1.withMemory memory, (machine.complete instruction).2) := by
  by_cases hhalt : instruction = .halt
  · subst hhalt
    rfl
  · by_cases hend : 1024 ≤ (machine.registers.pc + 1).toNat
    · rw [complete_of_le _ hhalt hend, complete_of_le (machine.withMemory memory) hhalt hend]
      rfl
    · have hslot := Nat.not_le.1 hend
      rw [complete_of_lt _ hhalt hslot, complete_of_lt (machine.withMemory memory) hhalt hslot]
      rfl

end Machine

theorem Outcome.finish_withMemory {δ : Type} (done : Outcome δ Unit) (memory : Memory)
    (instruction : Instruction) :
    (done.withMemory memory).finish instruction = (done.finish instruction).withMemory memory := by
  obtain ⟨result, machine, device, events⟩ := done
  cases result with
  | error fault => rfl
  | ok done =>
      simp only [finish, withMemory, machine.complete_withMemory memory instruction]

/-! ## What a step looks at -/

namespace Machine

/-- The next step fetches its word from a cell, or reads its operand there. -/
inductive Inspects (machine : Machine) : Nat → Prop where
  | low (running : machine.state = .running) (inside : machine.registers.pc.toNat < 1024) :
      Inspects machine (2 * machine.registers.pc.toNat)
  | high (running : machine.state = .running) (inside : machine.registers.pc.toNat < 1024) :
      Inspects machine (2 * machine.registers.pc.toNat + 1)
  | operand {a imm c : UInt8} (running : machine.state = .running)
      (current : machine.current = .ok (.read a imm c)) :
      Inspects machine (Memory.pagedAddress machine.registers.page (machine.offset a imm))

/-- Machines that differ in nothing but what they hold in some cells. -/
structure AlikeOutside (cells : Set Nat) (machine other : Machine) : Prop where
  registers_eq : other.registers = machine.registers
  stack_eq : other.stack = machine.stack
  state_eq : other.state = machine.state
  cycles_eq : other.cycles = machine.cycles
  read_eq : ∀ cell < 2048, cell ∉ cells → other.memory.read cell = machine.memory.read cell

namespace AlikeOutside

variable {cells more : Set Nat} {machine other : Machine} {δ : Type} [Ports δ]

theorem mono (alike : machine.AlikeOutside cells other) (subset : cells ⊆ more) :
    machine.AlikeOutside more other :=
  { alike with read_eq := fun cell hcell houtside =>
      alike.read_eq cell hcell fun hinside => houtside (subset hinside) }

theorem eq_withMemory (alike : machine.AlikeOutside cells other) :
    other = machine.withMemory other.memory := by
  obtain ⟨registers, memory, stack, state, cycles⟩ := other
  obtain ⟨rfl, rfl, rfl, rfl, _⟩ := alike
  rfl

/-- Both machines are at the same instruction if the first fetches it from cells that they share. -/
theorem current_eq (alike : machine.AlikeOutside cells other)
    (running : machine.state = .running)
    (unread : ∀ cell ∈ cells, ¬ machine.Inspects cell) : other.current = machine.current := by
  have hfetch : other.memory.fetch machine.registers.pc =
      machine.memory.fetch machine.registers.pc := by
    by_cases hslot : machine.registers.pc.toNat < 1024
    · have hlow := alike.read_eq (2 * machine.registers.pc.toNat) (by omega)
        fun hinside => unread _ hinside (.low running hslot)
      have hhigh := alike.read_eq (2 * machine.registers.pc.toNat + 1) (by omega)
        fun hinside => unread _ hinside (.high running hslot)
      unfold Memory.fetch
      rw [hlow, hhigh]
    · rw [Memory.fetch_of_le _ (Nat.not_lt.1 hslot), Memory.fetch_of_le _ (Nat.not_lt.1 hslot)]
  unfold current
  rw [alike.registers_eq, hfetch]

theorem storeAddress?_eq (alike : machine.AlikeOutside cells other)
    (unread : ∀ cell ∈ cells, ¬ machine.Inspects cell) :
    other.storeAddress? = machine.storeAddress? := by
  have hoffset : other.offset = machine.offset := by
    rw [alike.eq_withMemory]
    rfl
  cases hstate : machine.state with
  | halted => simp only [storeAddress?, alike.state_eq, hstate]
  | running =>
      simp only [storeAddress?, alike.state_eq, hstate, alike.current_eq hstate unread,
        alike.registers_eq, hoffset]

/-- A step that looks at none of the cells has the same outcome apart from memory. -/
theorem step_eq_withMemory (alike : machine.AlikeOutside cells other)
    (unread : ∀ cell ∈ cells, ¬ machine.Inspects cell) (device : δ) :
    other.step device =
      (machine.step device).withMemory (other.step device).machine.memory := by
  cases hstate : machine.state with
  | halted =>
      have hhalted : other.state = .halted := alike.state_eq.trans hstate
      rw [step_of_halted hstate, step_of_halted hhalted, alike.eq_withMemory]
      rfl
  | running =>
      have hrunning : other.state = .running := alike.state_eq.trans hstate
      have hsame := alike.current_eq hstate unread
      cases hcurrent : machine.current with
      | error fault =>
          rw [step_of_current_error hstate hcurrent,
            step_of_current_error hrunning (hsame.trans hcurrent), alike.eq_withMemory]
          rfl
      | ok instruction =>
          have hread (a imm c : UInt8) (hinstruction : instruction = .read a imm c) :
              other.memory.readPaged machine.registers.page (machine.offset a imm) =
                machine.memory.readPaged machine.registers.page (machine.offset a imm) := by
            subst hinstruction
            exact alike.read_eq _ (Nat.mod_lt _ (by decide)) fun hinside =>
              unread _ hinside (.operand hstate hcurrent)
          have hstep : other.step device = _ := step_of_current_ok hrunning (hsame.trans hcurrent)
          rw [alike.eq_withMemory, execute_withMemory _ _ _ hread, Outcome.finish_withMemory,
            ← alike.eq_withMemory] at hstep
          rw [step_of_current_ok hstate hcurrent, hstep]
          rfl

/--
A step that looks at none of the cells in which two machines differ is the same for both. Behind
it they differ only where they did before, and not in the cell that it stores.
-/
theorem exists_step_eq (alike : machine.AlikeOutside cells other)
    (unread : ∀ cell ∈ cells, ¬ machine.Inspects cell) (device : δ) :
    ∃ memory, other.step device = (machine.step device).withMemory memory ∧
      ∀ cell < 2048, (cell ∈ cells → machine.storeAddress? = some cell) →
        memory.read cell = (machine.step device).machine.memory.read cell := by
  refine ⟨_, alike.step_eq_withMemory unread device, fun cell hcell hleft => ?_⟩
  have hsame := alike.storeAddress?_eq unread
  by_cases hstore : machine.storeAddress? = some cell
  · obtain ⟨a, imm, c, hrunning, hcurrent, rfl⟩ := exists_of_storeAddress?_eq_some hstore
    have hstored := read_step_store device (alike.state_eq.trans hrunning)
      ((alike.current_eq hrunning unread).trans hcurrent)
    rw [alike.registers_eq] at hstored
    rw [read_step_store device hrunning hcurrent, ← hstored, alike.eq_withMemory]
    rfl
  · rw [read_step_of_ne device hcell hstore, read_step_of_ne device hcell (hsame ▸ hstore)]
    exact alike.read_eq cell hcell (mt hleft hstore)

theorem step (alike : machine.AlikeOutside cells other)
    (unread : ∀ cell ∈ cells, ¬ machine.Inspects cell) (device : δ) :
    (machine.step device).machine.AlikeOutside {cell ∈ cells | machine.storeAddress? ≠ some cell}
      (other.step device).machine := by
  obtain ⟨memory, hstep, hread⟩ := alike.exists_step_eq unread device
  rw [hstep]
  refine ⟨rfl, rfl, rfl, rfl, fun cell hcell houtside => hread cell hcell fun hinside => ?_⟩
  by_contra hkept
  exact houtside ⟨hinside, hkept⟩

/-- Loading images of one length brings together all that they say alike. -/
theorem exists_load_eq (alike : machine.AlikeOutside cells other) {image image' : List UInt8}
    (hsize : image.length ≤ 2048) (hsame : image'.length = image.length) :
    ∃ loaded loaded' events, machine.load image = .ok (loaded, events) ∧
      other.load image' = .ok (loaded', events) ∧
      loaded.AlikeOutside {cell | image.length ≤ cell ∨ image[cell]? ≠ image'[cell]?} loaded' := by
  obtain ⟨memory, hmemory⟩ := machine.memory.exists_load_eq_ok hsize
  obtain ⟨memory', hmemory'⟩ := other.memory.exists_load_eq_ok (hsame ▸ hsize)
  refine ⟨machine.withMemory memory, other.withMemory memory', [.imageLoaded image.length], ?_, ?_,
    alike.registers_eq, alike.stack_eq, alike.state_eq, alike.cycles_eq, ?_⟩
  · unfold load
    rw [hmemory]
    rfl
  · unfold load
    rw [hmemory', ← hsame]
    rfl
  · intro cell hcell houtside
    obtain ⟨hinside, hbyte⟩ := not_or.1 houtside
    have hvalue := List.getElem?_eq_getElem (Nat.not_le.1 hinside)
    show memory'.read cell = memory.read cell
    rw [Memory.read_of_load_eq_ok hmemory hcell, Memory.read_of_load_eq_ok hmemory' hcell,
      ← not_not.1 hbyte, hvalue]
    rfl

end AlikeOutside

/-! ## What a run looks at -/

section Run

variable {δ : Type} [Ports δ]

def Overwrites (machine : Machine) (device : δ) (n cell : Nat) : Prop :=
  ∃ k < n, (machine.after device k).1.storeAddress? = some cell

/-- None of the first `n` steps looks at one of the cells before a step has stored a byte there. -/
def Ignores (machine : Machine) (device : δ) (cells : Set Nat) (n : Nat) : Prop :=
  ∀ k < n, ∀ cell ∈ cells, (machine.after device k).1.Inspects cell →
    machine.Overwrites device k cell

/--
Two machines run alike for `n` steps: each step has the same result and events and leaves the same
device, and in the end the machines differ only in cells that they did not overwrite.
-/
structure RunsAlike (machine other : Machine) (device : δ) (cells : Set Nat) (n : Nat) : Prop where
  steps : ∀ k < n,
    ((other.after device k).1.step (other.after device k).2).result =
      ((machine.after device k).1.step (machine.after device k).2).result ∧
    ((other.after device k).1.step (other.after device k).2).events =
      ((machine.after device k).1.step (machine.after device k).2).events
  device_eq : ∀ k ≤ n, (other.after device k).2 = (machine.after device k).2
  last : (machine.after device n).1.AlikeOutside
    {cell ∈ cells | ¬ machine.Overwrites device n cell} (other.after device n).1

variable {cells : Set Nat} {machine other : Machine} {device : δ} {n : Nat}

theorem overwrites_succ_iff {cell : Nat} :
    machine.Overwrites device (n + 1) cell ↔ machine.Overwrites device n cell ∨
      (machine.after device n).1.storeAddress? = some cell := by
  unfold Overwrites
  constructor
  · rintro ⟨k, hk, hstore⟩
    rcases Nat.lt_succ_iff_lt_or_eq.1 hk with hlt | rfl
    · exact .inl ⟨k, hlt, hstore⟩
    · exact .inr hstore
  · rintro (⟨k, hk, hstore⟩ | hstore)
    · exact ⟨k, Nat.lt_succ_of_lt hk, hstore⟩
    · exact ⟨n, Nat.lt_succ_self n, hstore⟩

/-- A run that ignores the cells in which two machines differ is the same for both. -/
theorem AlikeOutside.runsAlike (alike : machine.AlikeOutside cells other)
    (ignores : machine.Ignores device cells n) : machine.RunsAlike other device cells n := by
  induction n with
  | zero =>
      refine ⟨nofun, fun k hk => ?_, alike.mono fun cell hinside => ⟨hinside, nofun⟩⟩
      rw [Nat.le_zero.1 hk]
      rfl
  | succ n ih =>
      have before := ih fun k hk => ignores k (Nat.lt_succ_of_lt hk)
      -- What the cells differ in by now has not been overwritten, so the next step ignores it.
      have unread : ∀ cell ∈ {cell ∈ cells | ¬ machine.Overwrites device n cell},
          ¬ (machine.after device n).1.Inspects cell := fun cell hleft hinspects =>
        hleft.2 (ignores n (Nat.lt_succ_self n) cell hleft.1 hinspects)
      obtain ⟨memory, hstep, _⟩ := before.last.exists_step_eq unread (machine.after device n).2
      have hdevice := before.device_eq n le_rfl
      refine ⟨fun k hk => ?_, fun k hk => ?_, ?_⟩
      · rcases Nat.lt_succ_iff_lt_or_eq.1 hk with hlt | rfl
        · exact before.steps k hlt
        · rw [hdevice, hstep]
          exact ⟨rfl, rfl⟩
      · rcases Nat.le_succ_iff.1 hk with hle | rfl
        · exact before.device_eq k hle
        · show ((other.after device n).1.step (other.after device n).2).device = _
          rw [hdevice, hstep]
          rfl
      · have hnext : (other.after device (n + 1)).1 =
            ((other.after device n).1.step (machine.after device n).2).machine := by
          rw [← hdevice]
          rfl
        rw [hnext]
        refine (before.last.step unread (machine.after device n).2).mono ?_
        rintro cell ⟨⟨hinside, hkept⟩, hstore⟩
        exact ⟨hinside, fun hoverwritten => (overwrites_succ_iff.1 hoverwritten).elim hkept hstore⟩

end Run

/--
What a run does not read does not matter. Two machines that differ only in some cells run alike on
one device if no step of the first looks at such a cell before a step has stored a byte there. The
same holds behind loading: of two images of one length, only the bytes in which they differ and the
cells above them can matter.
-/
theorem unread_immaterial {cells : Set Nat} {machine other : Machine}
    (alike : machine.AlikeOutside cells other) {δ : Type} [Ports δ] (device : δ) (n : Nat) :
    (machine.Ignores device cells n → machine.RunsAlike other device cells n) ∧
      ∀ image image' : List UInt8, image.length ≤ 2048 → image'.length = image.length →
        ∃ loaded loaded' events, machine.load image = .ok (loaded, events) ∧
          other.load image' = .ok (loaded', events) ∧
          let open_cells := {cell | image.length ≤ cell ∨ image[cell]? ≠ image'[cell]?}
          loaded.Ignores device open_cells n → loaded.RunsAlike loaded' device open_cells n := by
  refine ⟨alike.runsAlike, fun image image' hsize hsame => ?_⟩
  obtain ⟨loaded, loaded', events, hload, hload', alike'⟩ := alike.exists_load_eq hsize hsame
  exact ⟨loaded, loaded', events, hload, hload', alike'.runsAlike⟩

/-- A machine that is about to store a byte in cell 6 and to read it back. -/
def readingBack : Machine :=
  { initial with memory := Memory.empty.poke 0 [0x19, 0x60, 0x31, 0xa8, 0x32, 0xa0, 5, 5] }

/--
What cells 6 and 7 hold at the start does not matter: the one is read only after it has been
stored, the other not at all.
-/
theorem unread_immaterial_stored :
    let other := readingBack.withMemory ((readingBack.memory.write 6 9).write 7 9)
    readingBack.AlikeOutside {6, 7} other ∧
      readingBack.Ignores (Script.ofInputs []) {6, 7} 3 ∧
      other.memory.read 6 = 9 ∧ other.memory.read 7 = 9 ∧
      (other.after (Script.ofInputs []) 3).1.registers.read 2 = 3 ∧
      (other.after (Script.ofInputs []) 3).1.memory.read 6 = 3 := by
  intro other
  have alike : readingBack.AlikeOutside {6, 7} other := by
    refine ⟨rfl, rfl, rfl, rfl, fun cell hcell houtside => ?_⟩
    obtain ⟨hsix, hseven⟩ : cell ≠ 6 ∧ cell ≠ 7 := by simpa using houtside
    show ((readingBack.memory.write 6 9).write 7 9).read cell = _
    rw [Memory.read_write, if_neg (by omega), Memory.read_write, if_neg (by omega)]
  have ignores : readingBack.Ignores (Script.ofInputs []) {6, 7} 3 := by
    intro k hk cell hcell hinspects
    have hcells : cell = 6 ∨ cell = 7 := by simpa using hcell
    have hpc : (readingBack.after (Script.ofInputs []) k).1.registers.pc.toNat = k := by
      obtain rfl | rfl | rfl : k = 0 ∨ k = 1 ∨ k = 2 := by omega
      all_goals rfl
    cases hinspects with
    | low => omega
    | high => omega
    | operand running current =>
        -- Only the third instruction reads, and it reads what the second has stored.
        obtain rfl | rfl | rfl : k = 0 ∨ k = 1 ∨ k = 2 := by omega
        · cases current
        · cases current
        · cases current
          exact ⟨1, by decide, rfl⟩
  have runs := (unread_immaterial alike (Script.ofInputs []) 3).1 ignores
  have hstored : readingBack.Overwrites (Script.ofInputs []) 3 6 := ⟨1, by decide, rfl⟩
  refine ⟨alike, ignores, ?_, ?_, ?_, ?_⟩
  · show ((readingBack.memory.write 6 9).write 7 9).read 6 = 9
    rw [Memory.read_write, if_neg (by decide), Memory.read_write, if_pos rfl]
  · show ((readingBack.memory.write 6 9).write 7 9).read 7 = 9
    rw [Memory.read_write, if_pos rfl]
  · rw [runs.last.registers_eq]
    rfl
  · rw [runs.last.read_eq 6 (by decide) fun hleft => hleft.2 hstored]
    rfl

end Machine

end Redstone

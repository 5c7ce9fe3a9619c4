import Redstone.Proofs.Machine.Pieces

/-!
# Two ways to limit a run

A run can be limited by a mark for the cycle counter, which is set before the first instruction,
or by the number of instructions. Both execute the same instructions, on a machine with any number
of cycles behind it, as long as the mark is a number that the counter can reach. The counter has 64
bits: where the mark does not fit into them the addition overflows, and nothing is executed.
-/

namespace Redstone

namespace Machine

variable {δ : Type} [Ports δ] {machine : Machine} {device : δ} {max : UInt64}

/-! ## The mark -/

/-- A mark within 64 bits leaves the whole limit to go. -/
theorem mark_sub_cycles (fits : machine.cycles.toNat + max.toNat < 2 ^ 64) :
    (machine.cycles + max).toNat - machine.cycles.toNat = max.toNat := by
  rw [UInt64.toNat_add, Nat.mod_eq_of_lt fits]
  omega

/-- A run up to a mark is the repetition of as many steps as the limit allows. -/
theorem runLimited_of_fits (fits : machine.cycles.toNat + max.toNat < 2 ^ 64) :
    machine.runLimited max device =
      let progress := machine.advance max.toNat device
      ⟨match progress.fault with
        | some fault => .error fault
        | none => .ok progress.executed,
        progress.machine, progress.device, progress.events.toList⟩ := by
  rw [← mark_sub_cycles fits]
  exact if_neg (Nat.not_le.2 fits)

theorem runLimited_of_overflow (large : 2 ^ 64 ≤ machine.cycles.toNat + max.toNat) :
    machine.runLimited max device = ⟨.error (.overflow .addition), machine, device, []⟩ :=
  if_pos large

/-! ## The number of instructions -/

/-- A run with a limit is the repetition of so many steps, with a reason where no step fails. -/
theorem exists_runWith_eq (machine : Machine) (device : δ) (max : UInt64) (allowance : Nat) :
    let progress := machine.advance max.toNat device
    ∃ whole, machine.runWith allowance (some max) false device = some whole ∧
      whole.machine = progress.machine ∧ whole.device = progress.device ∧
      (∀ fault, progress.fault = some fault → whole.result = .error fault) ∧
      (progress.fault = none → ∃ reason, whole.result = .ok reason ∧
        Stops (some max) progress.executed progress.machine reason) := by
  intro progress
  have within {n : Nat} (hle : n ≤ max.toNat) : ∀ other ∈ some max, n ≤ other.toNat := by
    intro other hother
    cases hother
    exact hle
  cases hstate : machine.state with
  | halted =>
      have hprogress : progress = ⟨0, none, machine, device, #[]⟩ :=
        continueFor_of_halted hstate max.toNat 0 device #[]
      rw [hprogress]
      exact ⟨_, runWith_of_halted hstate allowance (some max) false, rfl, rfl, nofun,
        fun _ => ⟨_, rfl, .halted (within (Nat.zero_le _)) hstate⟩⟩
  | running =>
      have hadvance : machine.advance max.toNat device = progress := rfl
      have hrun := runWith_of_running hstate (some max) allowance hadvance
      have reaches : machine.Reaches device max.toNat progress :=
        machine.reaches_advance device max.toNat
      clear_value progress
      cases reaches with
      | @bound last _ _ executes =>
          cases hlast : last.state with
          | halted =>
              simp only [if_pos hlast] at hrun
              exact ⟨_, hrun, rfl, rfl, nofun, fun _ => ⟨_, rfl, .halted (within le_rfl) hlast⟩⟩
          | running =>
              simp only [if_neg (ne_halted_of_running hlast)] at hrun
              exact ⟨_, hrun, rfl, rfl, nofun, fun _ => ⟨_, rfl, .limit rfl rfl hlast⟩⟩
      | halted executes hle hhalted =>
          simp only [if_pos hhalted] at hrun
          exact ⟨_, hrun, rfl, rfl, nofun, fun _ => ⟨_, rfl, .halted (within hle) hhalted⟩⟩
      | fault executes hlt hrunning hfails =>
          refine ⟨_, hrun, rfl, rfl, ?_, nofun⟩
          intro fault hfault
          cases hfault
          rfl

/-! ## Both -/

/--
A run limited by a mark and one limited by the number of instructions come to the same machine and
device by the same steps, whatever the cycle counter shows, if the mark fits into the counter. If no
step fails, both have executed as many instructions as the limit allows or as it takes to halt, and
the first of them answers the number; if one fails, both fail with its fault. A mark that does not
fit stops the program before the first instruction, where the other run goes on.
-/
theorem runLimited_agrees_with_runWith (machine : Machine) (device : δ) (max : UInt64) :
    let limited := machine.runLimited max device
    (machine.cycles.toNat + max.toNat < 2 ^ 64 →
      ∀ allowance, ∃ whole n between,
        machine.runWith allowance (some max) false device = some whole ∧
        whole.machine = limited.machine ∧ whole.device = limited.device ∧
        Executes machine device n limited.machine between ∧
        ((∃ reason, whole.result = .ok reason ∧ limited.result = .ok n ∧
            limited.device = between ∧
            (n : ℕ∞) = min (max.toNat : ℕ∞) (machine.stepsToHalt device)) ∨
          ∃ fault, whole.result = .error fault ∧ limited.result = .error fault ∧
            n < max.toNat ∧ limited.machine.state = .running ∧
            (limited.machine.step between).result = .error fault ∧
            limited.device = (limited.machine.step between).device)) ∧
    (2 ^ 64 ≤ machine.cycles.toNat + max.toNat →
      limited = ⟨.error (.overflow .addition), machine, device, []⟩) := by
  intro limited
  refine ⟨?_, runLimited_of_overflow⟩
  intro fits allowance
  obtain ⟨whole, hwhole, hmachine, hdevice, hfault, hnone⟩ :=
    exists_runWith_eq machine device max allowance
  have reaches := machine.reaches_advance device max.toNat
  have hlimited : limited = _ := runLimited_of_fits fits
  clear_value limited
  subst hlimited
  generalize machine.advance max.toNat device = progress at *
  cases reaches with
  | bound executes =>
      obtain ⟨reason, hreason, stops⟩ := hnone rfl
      exact ⟨whole, _, _, hwhole, hmachine, hdevice, executes,
        .inl ⟨reason, hreason, rfl, rfl, stops.count_eq executes⟩⟩
  | halted executes _ _ =>
      obtain ⟨reason, hreason, stops⟩ := hnone rfl
      exact ⟨whole, _, _, hwhole, hmachine, hdevice, executes,
        .inl ⟨reason, hreason, rfl, rfl, stops.count_eq executes⟩⟩
  | fault executes hlt hrunning hfails =>
      exact ⟨whole, _, _, hwhole, hmachine, hdevice, executes,
        .inr ⟨_, hfault _ rfl, rfl, hlt, hrunning, hfails, rfl⟩⟩

def behindOne : Machine :=
  (oneThenHalt.step (Script.ofInputs [])).machine

theorem executes_behindOne : Executes behindOne (Script.ofInputs []) 1
    (behindOne.step (Script.ofInputs [])).machine (Script.ofInputs []) := by
  have hstep : (behindOne.step (Script.ofInputs [])).result = .ok .halt := by rfl
  exact .next hstep (.refl _ _)

/-- The largest limit whose mark the counter can reach. -/
theorem runLimited_agrees_with_runWith_last :
    let max : UInt64 := 0xfffffffffffffffe
    let limited := behindOne.runLimited max (Script.ofInputs [])
    behindOne.cycles.toNat + max.toNat < 2 ^ 64 ∧ limited.result = .ok 1 ∧
      ∃ whole, behindOne.runWith 0 (some max) false (Script.ofInputs []) = some whole ∧
        whole.machine = limited.machine := by
  intro max limited
  have fits : behindOne.cycles.toNat + max.toNat < 2 ^ 64 := by decide
  have hresult : limited.result = .ok 1 := by rfl
  obtain ⟨whole, _, _, hwhole, hmachine, _⟩ :=
    (runLimited_agrees_with_runWith behindOne (Script.ofInputs []) max).1 fits 0
  exact ⟨fits, hresult, whole, hwhole, hmachine⟩

/-- With the next limit the addition overflows, though the machine is one instruction from its end. -/
theorem runLimited_stops_short :
    let max : UInt64 := 0xffffffffffffffff
    let limited := behindOne.runLimited max (Script.ofInputs [])
    limited.result = .error (.overflow .addition) ∧ limited.machine.state = .running ∧
      (Driver.runWith (some max) false).count behindOne (Script.ofInputs []) = 1 ∧
      ∃ whole, behindOne.runWith 0 (some max) false (Script.ofInputs []) = some whole ∧
        whole.result = .ok .halted ∧ whole.machine.state = .halted := by
  intro max limited
  have hlimited : limited =
      ⟨.error (.overflow .addition), behindOne, Script.ofInputs [], []⟩ :=
    runLimited_of_overflow (by decide)
  have hhalts : (behindOne.step (Script.ofInputs [])).machine.state = .halted := by rfl
  have within : ∀ other ∈ some max, 1 ≤ other.toNat := by
    intro other hother
    rw [← Option.some.inj hother]
    decide
  have stops : Stops (some max) 1 (behindOne.step (Script.ofInputs [])).machine .halted :=
    .halted within hhalts
  rw [hlimited]
  exact ⟨rfl, rfl, (stops.count_eq executes_behindOne).symm, _, rfl, rfl, rfl⟩

end Machine

end Redstone

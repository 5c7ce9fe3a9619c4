import Redstone.Proofs.Machine.Calls

/-!
# Runs as repeated steps

All kinds of run are the same repetition of steps. It ends because its bound is used up, because
the machine has halted or because a step fails, and up to there every step executes an
instruction. How often a run may still step has no influence on what it does until then, so that
the end of a run can be told from the steps alone.
-/

namespace Redstone

namespace Machine

variable {δ : Type} [Ports δ]

/-- A step that fails, at whatever stage, leaves the whole machine as it was. -/
theorem machine_step_of_error {machine : Machine} {device : δ} {fault : Fault}
    (hstep : (machine.step device).result = .error fault) :
    (machine.step device).machine = machine := by
  cases hstate : machine.state with
  | halted => rw [step_of_halted hstate]
  | running =>
      cases hcurrent : machine.current with
      | error fault' => rw [step_of_current_error hstate hcurrent]
      | ok instruction =>
          cases hresult : (machine.execute device instruction).result with
          | error fault' => rw [step_of_execute_error hstate hcurrent hresult]
          | ok done =>
              rw [step_of_execute_ok hstate hcurrent hresult] at hstep
              cases hstep

/-- What a step that executes an instruction comes to. -/
theorem exists_current_of_step_ok {machine : Machine} {device : δ} {instruction : Instruction}
    (hstep : (machine.step device).result = .ok instruction) :
    machine.state = .running ∧ machine.current = .ok instruction ∧
      (machine.execute device instruction).result = .ok () := by
  cases hstate : machine.state with
  | halted =>
      rw [step_of_halted hstate] at hstep
      cases hstep
  | running =>
      cases hcurrent : machine.current with
      | error fault =>
          rw [step_of_current_error hstate hcurrent] at hstep
          cases hstep
      | ok other =>
          cases hresult : (machine.execute device other).result with
          | error fault =>
              rw [step_of_execute_error hstate hcurrent hresult] at hstep
              cases hstep
          | ok done =>
              rw [step_of_execute_ok hstate hcurrent hresult] at hstep
              cases hstep
              exact ⟨rfl, rfl, hresult⟩

theorem cycles_step {machine : Machine} {device : δ} {instruction : Instruction}
    (hstep : (machine.step device).result = .ok instruction) :
    (machine.step device).machine.cycles = machine.cycles + 1 := by
  obtain ⟨hrunning, hcurrent, hresult⟩ := exists_current_of_step_ok hstep
  rw [step_of_execute_ok hrunning hcurrent hresult]
  exact (cycles_complete _ _).trans (congrArg (· + 1) (cycles_execute _ _ _))

/-! ## One turn of a repetition -/

theorem continueFor_of_halted {machine : Machine} (hhalted : machine.state = .halted)
    (n done : Nat) (device : δ) (events : Array Event) :
    continueFor n ⟨done, none, machine, device, events⟩ =
      ⟨done, none, machine, device, events⟩ := by
  cases n with
  | zero => rfl
  | succ n => exact if_pos hhalted

theorem continueFor_of_ok {machine : Machine} {device : δ} {instruction : Instruction}
    (hstep : (machine.step device).result = .ok instruction) (n done : Nat)
    (events : Array Event) :
    continueFor (n + 1) ⟨done, none, machine, device, events⟩ =
      continueFor n ⟨done + 1, none, (machine.step device).machine, (machine.step device).device,
        events ++ (machine.step device).events⟩ := by
  obtain ⟨hrunning, _⟩ := exists_current_of_step_ok hstep
  simp only [continueFor, if_neg (ne_halted_of_running hrunning), hstep]

theorem continueFor_of_fault {machine : Machine} {device : δ} {fault : Fault}
    (hrunning : machine.state = .running) (hstep : (machine.step device).result = .error fault)
    (n done : Nat) (events : Array Event) :
    continueFor (n + 1) ⟨done, none, machine, device, events⟩ =
      ⟨done, some fault, machine, (machine.step device).device,
        events ++ (machine.step device).events⟩ := by
  simp only [continueFor, if_neg (ne_halted_of_running hrunning), hstep,
    machine_step_of_error hstep]

/-! ## Steps that execute instructions -/

/-- So many steps, each of which executes an instruction, lead to a machine and a device. -/
inductive Executes : Machine → δ → Nat → Machine → δ → Prop where
  | refl (machine : Machine) (device : δ) : Executes machine device 0 machine device
  | next {machine last : Machine} {device left : δ} {instruction : Instruction} {n : Nat}
      (done : (machine.step device).result = .ok instruction)
      (rest : Executes (machine.step device).machine (machine.step device).device n last left) :
      Executes machine device (n + 1) last left

namespace Executes

variable {machine middle last : Machine} {device between left : δ} {m n : Nat}

theorem trans (first : Executes machine device m middle between)
    (second : Executes middle between n last left) :
    Executes machine device (m + n) last left := by
  induction first with
  | refl machine device => rwa [Nat.zero_add]
  | @next _ _ _ _ _ k done _ ih =>
      rw [Nat.add_right_comm]
      exact .next done (ih second)

/-- A longer execution goes through the end of a shorter one. -/
theorem remaining (first : Executes machine device m middle between)
    (whole : Executes machine device (m + n) last left) : Executes middle between n last left := by
  induction first with
  | refl machine device => rwa [Nat.zero_add] at whole
  | @next _ _ _ _ _ k done _ ih =>
      rw [Nat.add_right_comm] at whole
      cases whole with
      | next _ rest => exact ih rest

theorem unique {last' : Machine} {left' : δ} (first : Executes machine device n last left)
    (second : Executes machine device n last' left') : last = last' ∧ left = left' := by
  have hnone : Executes last left 0 last' left' := first.remaining second
  cases hnone with
  | refl => exact ⟨rfl, rfl⟩

/-- Where an execution goes on, a step executes an instruction. -/
theorem exists_step_ok (first : Executes machine device m middle between)
    (whole : Executes machine device n last left) (hlt : m < n) :
    ∃ instruction, (middle.step between).result = .ok instruction := by
  obtain ⟨k, rfl⟩ := Nat.exists_eq_add_of_lt hlt
  have rest : Executes middle between (k + 1) last left := first.remaining whole
  cases rest with
  | next done _ => exact ⟨_, done⟩

/-- An execution can be stopped at any point on its way. -/
theorem exists_of_le (executes : Executes machine device n last left) (hle : m ≤ n) :
    ∃ middle between, Executes machine device m middle between := by
  induction executes generalizing m with
  | refl machine device =>
      obtain rfl := Nat.le_zero.1 hle
      exact ⟨machine, device, .refl machine device⟩
  | @next machine last device left instruction n done _ ih =>
      cases m with
      | zero => exact ⟨machine, device, .refl machine device⟩
      | succ m =>
          obtain ⟨middle, between, rest⟩ := ih (Nat.le_of_succ_le_succ hle)
          exact ⟨middle, between, .next done rest⟩

theorem eq_zero_of_halted (executes : Executes machine device n last left)
    (hhalted : machine.state = .halted) : n = 0 := by
  cases executes with
  | refl => rfl
  | next done _ =>
      rw [step_of_halted hhalted] at done
      cases done

theorem running_of_lt (first : Executes machine device m middle between)
    (whole : Executes machine device n last left) (hlt : m < n) : middle.state = .running := by
  obtain ⟨instruction, hstep⟩ := first.exists_step_ok whole hlt
  exact (exists_current_of_step_ok hstep).1

theorem cycles_eq (executes : Executes machine device n last left) :
    last.cycles = machine.cycles + UInt64.ofNat n := by
  induction executes with
  | refl machine device => exact (UInt64.add_zero _).symm
  | @next machine last device left _ k done _ ih =>
      rw [ih, cycles_step done, UInt64.ofNat_add, UInt64.add_assoc, UInt64.add_comm 1]
      rfl

theorem after_succ (machine : Machine) (device : δ) (n : Nat) :
    machine.after device (n + 1) =
      (machine.step device).machine.after (machine.step device).device n := by
  induction n with
  | zero => rfl
  | succ n ih =>
      rw [after, ih]
      rfl

theorem after_eq (executes : Executes machine device n last left) :
    machine.after device n = (last, left) := by
  induction executes with
  | refl machine device => rfl
  | next done _ ih =>
      rw [after_succ]
      exact ih

/-- A repetition goes on from the end of an execution with what is left of its bound. -/
theorem exists_continueFor_eq (executes : Executes machine device m last left) (n done : Nat)
    (events : Array Event) :
    ∃ events', continueFor (m + n) ⟨done, none, machine, device, events⟩ =
      continueFor n ⟨done + m, none, last, left, events'⟩ := by
  induction executes generalizing done events with
  | refl machine device => exact ⟨events, by rw [Nat.zero_add, Nat.add_zero]⟩
  | @next machine last device left instruction k hstep _ ih =>
      obtain ⟨events', hrest⟩ :=
        ih (done + 1) (events ++ (machine.step device).events)
      refine ⟨events', ?_⟩
      rw [Nat.add_right_comm, continueFor_of_ok hstep, hrest, Nat.add_assoc, Nat.add_comm 1 k]

end Executes

/-! ## The three ways a repetition ends -/

/-- What a repetition of at most so many steps comes to, its events aside. -/
inductive Reaches (machine : Machine) (device : δ) (bound : Nat) : Progress δ → Prop where
  | bound {last : Machine} {left : δ} {events : Array Event}
      (executes : Executes machine device bound last left) :
      Reaches machine device bound ⟨bound, none, last, left, events⟩
  | halted {last : Machine} {left : δ} {n : Nat} {events : Array Event}
      (executes : Executes machine device n last left) (within : n ≤ bound)
      (halted : last.state = .halted) : Reaches machine device bound ⟨n, none, last, left, events⟩
  | fault {last : Machine} {left : δ} {n : Nat} {fault : Fault} {events : Array Event}
      (executes : Executes machine device n last left) (within : n < bound)
      (running : last.state = .running) (fails : (last.step left).result = .error fault) :
      Reaches machine device bound ⟨n, some fault, last, (last.step left).device, events⟩

/-- Every machine goes on until it has halted, a step fails or the steps allowed are taken. -/
theorem exists_executes (bound : Nat) (machine : Machine) (device : δ) :
    ∃ n last left, n ≤ bound ∧ Executes machine device n last left ∧
      (n = bound ∨ last.state = .halted ∨
        n < bound ∧ last.state = .running ∧ ∃ fault, (last.step left).result = .error fault) := by
  induction bound generalizing machine device with
  | zero => exact ⟨0, machine, device, le_rfl, .refl machine device, .inl rfl⟩
  | succ bound ih =>
      cases hstate : machine.state with
      | halted => exact ⟨0, machine, device, Nat.zero_le _, .refl _ _, .inr (.inl hstate)⟩
      | running =>
          cases hstep : (machine.step device).result with
          | error fault =>
              exact ⟨0, machine, device, Nat.zero_le _, .refl _ _,
                .inr (.inr ⟨Nat.succ_pos bound, hstate, fault, hstep⟩)⟩
          | ok instruction =>
              obtain ⟨n, last, left, hle, rest, hend⟩ :=
                ih (machine.step device).machine (machine.step device).device
              refine ⟨n + 1, last, left, Nat.succ_le_succ hle, .next hstep rest, ?_⟩
              rcases hend with rfl | hhalted | ⟨hlt, hrunning, hfails⟩
              · exact .inl rfl
              · exact .inr (.inl hhalted)
              · exact .inr (.inr ⟨Nat.succ_lt_succ hlt, hrunning, hfails⟩)

namespace Executes

variable {machine last : Machine} {device left : δ} {n bound : Nat}

theorem exists_advance_eq (executes : Executes machine device n last left) :
    ∃ events, machine.advance n device = ⟨n, none, last, left, events⟩ := by
  obtain ⟨events, hcontinue⟩ := executes.exists_continueFor_eq 0 0 #[]
  refine ⟨events, ?_⟩
  rw [Nat.zero_add] at hcontinue
  exact hcontinue

theorem exists_advance_eq_of_halted (executes : Executes machine device n last left)
    (hle : n ≤ bound) (hhalted : last.state = .halted) :
    ∃ events, machine.advance bound device = ⟨n, none, last, left, events⟩ := by
  obtain ⟨rest, rfl⟩ := Nat.exists_eq_add_of_le hle
  obtain ⟨events, hcontinue⟩ := executes.exists_continueFor_eq rest 0 #[]
  refine ⟨events, ?_⟩
  rw [Nat.zero_add, continueFor_of_halted hhalted] at hcontinue
  exact hcontinue

theorem exists_advance_eq_of_fault {fault : Fault}
    (executes : Executes machine device n last left) (hlt : n < bound)
    (hrunning : last.state = .running) (hfails : (last.step left).result = .error fault) :
    ∃ events, machine.advance bound device =
      ⟨n, some fault, last, (last.step left).device, events⟩ := by
  obtain ⟨rest, rfl⟩ := Nat.exists_eq_add_of_lt hlt
  obtain ⟨events, hcontinue⟩ := executes.exists_continueFor_eq (rest + 1) 0 #[]
  refine ⟨events ++ (last.step left).events, ?_⟩
  rw [Nat.zero_add, continueFor_of_fault hrunning hfails] at hcontinue
  exact hcontinue

end Executes

theorem reaches_advance (machine : Machine) (device : δ) (bound : Nat) :
    machine.Reaches device bound (machine.advance bound device) := by
  obtain ⟨n, last, left, hle, executes, hend⟩ := exists_executes bound machine device
  rcases hend with rfl | hhalted | ⟨hlt, hrunning, fault, hfails⟩
  · obtain ⟨events, hadvance⟩ := executes.exists_advance_eq
    rw [hadvance]
    exact .bound executes
  · obtain ⟨events, hadvance⟩ := executes.exists_advance_eq_of_halted hle hhalted
    rw [hadvance]
    exact .halted executes hle hhalted
  · obtain ⟨events, hadvance⟩ := executes.exists_advance_eq_of_fault hlt hrunning hfails
    rw [hadvance]
    exact .fault executes hlt hrunning hfails

/-! ## Runs to the end -/

section Ends

variable {machine last : Machine} {device left between : δ} {n allowance : Nat}
  {result : Except Fault Nat}

/--
How a run ends that has executed so many instructions: the machine has halted, or a step fails.
-/
inductive Ends (last : Machine) (between : δ) (n : Nat) : Except Fault Nat → δ → Prop where
  | halted (halted : last.state = .halted) : Ends last between n (.ok n) between
  | fault {fault : Fault} (running : last.state = .running)
      (fails : (last.step between).result = .error fault) :
      Ends last between n (.error fault) (last.step between).device

/-- A run without a limit comes to an end after so many instructions, its events aside. -/
def RunsTo (machine : Machine) (device : δ) (n : Nat) (result : Except Fault Nat) (last : Machine)
    (left : δ) : Prop :=
  ∃ allowance events, machine.run allowance device = some ⟨result, last, left, events⟩ ∧
    (machine.advance allowance device).executed = n

theorem run_of_advance {progress : Progress δ} (h : machine.advance allowance device = progress) :
    machine.run allowance device = match progress.fault with
      | some fault =>
          some ⟨.error fault, progress.machine, progress.device, progress.events.toList⟩
      | none =>
          if progress.machine.state = .halted then
            some ⟨.ok progress.executed, progress.machine, progress.device,
              progress.events.toList⟩
          else none := by
  subst h
  rfl

theorem runsTo_iff : machine.RunsTo device n result last left ↔
    ∃ between, Executes machine device n last between ∧ Ends last between n result left := by
  constructor
  · intro ⟨allowance, events, hrun, hcount⟩
    have reaches := machine.reaches_advance device allowance
    generalize hadvance : machine.advance allowance device = progress at reaches hcount
    rw [run_of_advance hadvance] at hrun
    cases reaches with
    | @bound reached _ _ executes =>
        obtain rfl : allowance = n := hcount
        by_cases hhalted : reached.state = .halted
        · simp only [if_pos hhalted] at hrun
          cases hrun
          exact ⟨_, executes, .halted hhalted⟩
        · simp only [if_neg hhalted] at hrun
          cases hrun
    | halted executes within halted =>
        obtain rfl := hcount
        simp only [if_pos halted] at hrun
        cases hrun
        exact ⟨_, executes, .halted halted⟩
    | fault executes within running fails =>
        obtain rfl := hcount
        cases hrun
        exact ⟨_, executes, .fault running fails⟩
  · intro ⟨between, executes, ends⟩
    cases ends with
    | halted hhalted =>
        obtain ⟨events, hadvance⟩ := executes.exists_advance_eq_of_halted le_rfl hhalted
        refine ⟨n, events.toList, ?_, by rw [hadvance]⟩
        rw [run_of_advance hadvance]
        exact if_pos hhalted
    | fault hrunning hfails =>
        obtain ⟨events, hadvance⟩ :=
          executes.exists_advance_eq_of_fault (Nat.lt_succ_self n) hrunning hfails
        refine ⟨n + 1, events.toList, ?_, by rw [hadvance]⟩
        rw [run_of_advance hadvance]

theorem Ends.le_of_executes (ends : Ends last between n result left)
    (executes : Executes machine device n last between) {m : Nat} {middle : Machine} {seen : δ}
    (other : Executes machine device m middle seen) : m ≤ n := by
  by_contra hlt
  obtain ⟨instruction, hstep⟩ := executes.exists_step_ok other (Nat.not_le.1 hlt)
  cases ends with
  | halted hhalted =>
      rw [step_of_halted hhalted] at hstep
      cases hstep
  | fault hrunning hfails =>
      rw [hfails] at hstep
      cases hstep

/-- A run is what it has done so far and the run that goes on from there. -/
theorem Executes.runsTo_add_iff {middle : Machine} {m : Nat}
    (first : Executes machine device m middle between) :
    machine.RunsTo device (m + n) result last left ↔
      ∃ result', middle.RunsTo between n result' last left ∧ result = result'.map (m + ·) := by
  simp only [runsTo_iff]
  constructor
  · intro ⟨seen, executes, ends⟩
    cases ends with
    | halted hhalted => exact ⟨.ok n, ⟨_, first.remaining executes, .halted hhalted⟩, rfl⟩
    | fault hrunning hfails =>
        exact ⟨.error _, ⟨_, first.remaining executes, .fault hrunning hfails⟩, rfl⟩
  · intro ⟨result', ⟨seen, executes, ends⟩, hresult⟩
    refine ⟨seen, first.trans executes, ?_⟩
    cases ends with
    | halted hhalted =>
        subst hresult
        exact .halted hhalted
    | fault hrunning hfails =>
        subst hresult
        exact .fault hrunning hfails

/-- A run that goes through a machine ends no earlier than there. -/
theorem Executes.le_of_runsTo {middle : Machine} {m : Nat}
    (first : Executes machine device m middle between)
    (runs : machine.RunsTo device n result last left) : m ≤ n := by
  obtain ⟨seen, executes, ends⟩ := runsTo_iff.1 runs
  exact ends.le_of_executes executes first

end Ends

end Machine

end Redstone

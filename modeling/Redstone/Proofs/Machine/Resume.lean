import Redstone.Ports.Script
import Redstone.Proofs.Machine.Run

/-!
# Going on after a failure

A step that fails changes nothing, so a run that stops because its script has run out of input
stops in front of the instruction that asks for it. Given more input it goes on from there, and
both parts together are the run that has all the input from the start. Two facts about scripts
carry this: bytes behind those that are used do not matter, and neither does what has been
recorded before.
-/

namespace Redstone

/-! ## Devices that answer alike -/

def Outcome.mapDevice {δ ε α : Type} (f : δ → ε) (outcome : Outcome δ α) : Outcome ε α :=
  ⟨outcome.result, outcome.machine, f outcome.device, outcome.events⟩

theorem Outcome.finish_mapDevice {δ ε : Type} (f : δ → ε) (done : Outcome δ Unit)
    (instruction : Instruction) :
    (done.mapDevice f).finish instruction = (done.finish instruction).mapDevice f := by
  obtain ⟨result, machine, device, events⟩ := done
  cases result with
  | error fault => rfl
  | ok done => rfl

namespace Machine

variable {δ ε : Type} [Ports δ] [Ports ε] {machine : Machine} {device : δ}

/-- Only what the instruction at hand asks of the device can tell two devices apart. -/
theorem step_mapDevice (f : δ → ε)
    (same : ∀ instruction request, machine.current = .ok instruction →
      instruction.request? = some request →
      machine.perform (f device) request = (machine.perform device request).mapDevice f) :
    machine.step (f device) = (machine.step device).mapDevice f := by
  cases hstate : machine.state with
  | halted =>
      rw [step_of_halted hstate, step_of_halted hstate]
      rfl
  | running =>
      cases hcurrent : machine.current with
      | error fault =>
          rw [step_of_current_error hstate hcurrent, step_of_current_error hstate hcurrent]
          rfl
      | ok instruction =>
          rw [step_of_current_ok hstate hcurrent, step_of_current_ok hstate hcurrent,
            ← Outcome.finish_mapDevice]
          congr 1
          unfold execute
          cases hrequest : instruction.request? with
          | none => rfl
          | some request => exact same instruction request hcurrent hrequest

end Machine

namespace Script

def withMore (more : List UInt8) (script : Script) : Script :=
  { script with inputs := script.inputs ++ more }

/-- What is left and what has been recorded when one script is used after another. -/
def followedBy (first second : Script) : Script where
  inputs := second.inputs
  outputs := first.outputs ++ second.outputs
  bells := first.bells + second.bells

variable {machine : Machine} {script : Script}

/-- A request that is granted does not depend on the input behind it. -/
theorem perform_withMore {request : Request} (more : List UInt8)
    (granted : (machine.perform script request).result = .ok ()) :
    machine.perform (script.withMore more) request =
      (machine.perform script request).mapDevice (withMore more) := by
  cases request with
  | input port c =>
      obtain ⟨inputs, outputs, bells⟩ := script
      cases inputs with
      | nil => cases granted
      | cons value rest => rfl
  | output c port => rfl
  | bell => rfl

theorem perform_followedBy (first script : Script) (request : Request) :
    machine.perform (first.followedBy script) request =
      (machine.perform script request).mapDevice first.followedBy := by
  cases request with
  | input port c =>
      obtain ⟨inputs, outputs, bells⟩ := script
      cases inputs with
      | nil => rfl
      | cons value rest => rfl
  | output c port =>
      have hpush : first.outputs ++ script.outputs.push (port, machine.registers.read c) =
          (first.outputs ++ script.outputs).push (port, machine.registers.read c) :=
        Array.append_push
      unfold Machine.perform Outcome.mapDevice followedBy
      simp only [Ports.output, hpush]
  | bell => rfl

/-- A script refuses nothing but input, and that only when it has none. -/
theorem eq_of_perform_error {request : Request} {fault : Fault}
    (refused : (machine.perform script request).result = .error fault) :
    script.inputs = [] ∧ (machine.perform script request).device = script := by
  cases request with
  | input port c =>
      obtain ⟨inputs, outputs, bells⟩ := script
      cases inputs with
      | nil => exact ⟨rfl, rfl⟩
      | cons value rest => cases refused
  | output c port => cases refused
  | bell => cases refused

theorem step_followedBy (first : Script) :
    machine.step (first.followedBy script) = (machine.step script).mapDevice first.followedBy :=
  Machine.step_mapDevice first.followedBy fun _ request _ _ =>
    first.perform_followedBy script request

theorem step_withMore {instruction : Instruction} (more : List UInt8)
    (hstep : (machine.step script).result = .ok instruction) :
    machine.step (script.withMore more) =
      (machine.step script).mapDevice (withMore more) := by
  obtain ⟨_, hcurrent, hresult⟩ := Machine.exists_current_of_step_ok hstep
  refine Machine.step_mapDevice (withMore more) fun other request hother hrequest => ?_
  rw [hcurrent] at hother
  cases hother
  refine perform_withMore more ?_
  simpa only [Machine.execute, hrequest] using hresult

/-- A step that fails at the script has found no input and has recorded nothing. -/
theorem eq_of_step_port {e : PortError} (hrunning : machine.state = .running)
    (hstep : (machine.step script).result = .error (.port e)) :
    script.inputs = [] ∧ (machine.step script).device = script := by
  cases hcurrent : machine.current with
  | error fault =>
      rw [Machine.step_of_current_error hrunning hcurrent] at hstep
      exact absurd hcurrent (Except.error.inj hstep ▸ machine.current_ne_port e)
  | ok instruction =>
      cases hresult : (machine.execute script instruction).result with
      | ok done =>
          rw [Machine.step_of_execute_ok hrunning hcurrent hresult] at hstep
          cases hstep
      | error fault =>
          rw [Machine.step_of_execute_error hrunning hcurrent hresult]
          unfold Machine.execute at hresult ⊢
          cases hrequest : instruction.request? with
          | none =>
              rw [hrequest] at hresult
              cases hresult
          | some request =>
              simp only [hrequest] at hresult ⊢
              exact eq_of_perform_error hresult

/-! ## Whole runs -/

open Machine

variable {last : Machine} {left : Script} {n : Nat} {result : Except Fault Nat}

theorem executes_withMore (executes : Executes machine script n last left) (more : List UInt8) :
    Executes machine (script.withMore more) n last (left.withMore more) := by
  induction executes with
  | refl machine script => exact .refl machine _
  | @next machine _ script _ instruction _ done _ ih =>
      have hstep := step_withMore more done
      have hdone : (machine.step (script.withMore more)).result = .ok instruction := by
        rw [hstep]
        exact done
      refine .next hdone ?_
      rw [hstep]
      exact ih

theorem executes_followedBy_iff (first : Script) :
    Executes machine (first.followedBy script) n last left ↔
      ∃ left', Executes machine script n last left' ∧ left = first.followedBy left' := by
  constructor
  · intro executes
    generalize hdevice : first.followedBy script = device at executes
    induction executes generalizing script with
    | refl machine device => exact ⟨script, .refl machine script, hdevice.symm⟩
    | next done _ ih =>
        subst hdevice
        rw [step_followedBy] at done ih
        obtain ⟨left', rest, hleft⟩ := ih rfl
        exact ⟨left', .next done rest, hleft⟩
  · rintro ⟨left', executes, rfl⟩
    induction executes with
    | refl machine script => exact .refl machine _
    | @next machine _ script _ instruction _ done _ ih =>
        have hdone : (machine.step (first.followedBy script)).result = .ok instruction := by
          rw [step_followedBy]
          exact done
        refine .next hdone ?_
        rw [step_followedBy]
        exact ih

theorem ends_followedBy_iff (first : Script) {between : Script} :
    Ends last (first.followedBy between) n result left ↔
      ∃ left', Ends last between n result left' ∧ left = first.followedBy left' := by
  constructor
  · intro ends
    cases ends with
    | halted hhalted => exact ⟨between, .halted hhalted, rfl⟩
    | fault hrunning hfails =>
        rw [step_followedBy] at hfails ⊢
        exact ⟨_, .fault hrunning hfails, rfl⟩
  · rintro ⟨left', ends, rfl⟩
    cases ends with
    | halted hhalted => exact .halted hhalted
    | fault hrunning hfails =>
        have hdevice : (last.step (first.followedBy between)).device =
            first.followedBy (last.step between).device := by
          rw [step_followedBy]
          rfl
        rw [← hdevice]
        refine .fault hrunning ?_
        rw [step_followedBy]
        exact hfails

/-- What has been recorded before has no influence on a run. -/
theorem runsTo_followedBy_iff (first : Script) :
    machine.RunsTo (first.followedBy script) n result last left ↔
      ∃ left', machine.RunsTo script n result last left' ∧ left = first.followedBy left' := by
  simp only [runsTo_iff, executes_followedBy_iff]
  constructor
  · rintro ⟨_, ⟨between, executes, rfl⟩, ends⟩
    obtain ⟨left', ends', hleft⟩ := (ends_followedBy_iff first).1 ends
    exact ⟨left', ⟨between, executes, ends'⟩, hleft⟩
  · rintro ⟨left', ⟨between, executes, ends⟩, hleft⟩
    exact ⟨_, ⟨between, executes, rfl⟩, (ends_followedBy_iff first).2 ⟨left', ends, hleft⟩⟩

/--
A run that stops for want of input has used up its bytes, and with more of them the same steps
lead to the same place.
-/
theorem executes_of_runsTo_port {e : PortError} {used more : List UInt8} {stuck : Machine}
    {spent : Script} (stops : machine.RunsTo (.ofInputs used) n (.error (.port e)) stuck spent) :
    Executes machine (.ofInputs (used ++ more)) n stuck (spent.followedBy (.ofInputs more)) := by
  obtain ⟨between, executes, ends⟩ := runsTo_iff.1 stops
  cases ends with
  | fault hrunning hfails =>
      obtain ⟨hinputs, hdevice⟩ := eq_of_step_port hrunning hfails
      have hspent : (stuck.step between).device.followedBy (.ofInputs more) =
          between.withMore more := by
        rw [hdevice, followedBy, withMore, hinputs]
        exact congrArg (Script.mk more · _) Array.append_empty
      rw [hspent]
      exact executes_withMore executes more

end Script

/--
A step that fails changes nothing in the machine. And a run that stops because its script is
used up can be taken up again with more input: whatever that second run comes to, the run that has
all the input from the start comes to as well, with the same machine, with the outputs, the bells
and the instructions of both parts together, and it comes to nothing else.
-/
theorem Machine.run_resumed :
    (∀ (δ : Type) [Ports δ] (machine : Machine) (device : δ) (fault : Fault),
      (machine.step device).result = .error fault → (machine.step device).machine = machine) ∧
    ∀ (machine stuck : Machine) (used more : List UInt8) (n : Nat) (e : PortError)
      (spent : Script),
      machine.RunsTo (.ofInputs used) n (.error (.port e)) stuck spent →
        ∀ (total : Nat) (result : Except Fault Nat) (last : Machine) (left : Script),
          machine.RunsTo (.ofInputs (used ++ more)) total result last left ↔
            ∃ (m : Nat) (result' : Except Fault Nat) (left' : Script),
              stuck.RunsTo (.ofInputs more) m result' last left' ∧ total = n + m ∧
                result = result'.map (n + ·) ∧ left.inputs = left'.inputs ∧
                left.outputs = spent.outputs ++ left'.outputs ∧
                left.bells = spent.bells + left'.bells := by
  refine ⟨fun δ _ machine device fault => machine_step_of_error, ?_⟩
  intro machine stuck used more n e spent stops total result last left
  have hfirst : Executes machine (.ofInputs (used ++ more)) n stuck
      (spent.followedBy (.ofInputs more)) := Script.executes_of_runsTo_port stops
  constructor
  · intro whole
    obtain ⟨m, rfl⟩ := Nat.exists_eq_add_of_le (hfirst.le_of_runsTo whole)
    obtain ⟨result', rest, hresult⟩ := hfirst.runsTo_add_iff.1 whole
    obtain ⟨left', rest', rfl⟩ := (Script.runsTo_followedBy_iff spent).1 rest
    exact ⟨m, result', left', rest', rfl, hresult, rfl, rfl, rfl⟩
  · rintro ⟨m, result', left', rest, rfl, hresult, hinputs, houtputs, hbells⟩
    obtain rfl : left = spent.followedBy left' := by
      cases left
      cases hinputs
      cases houtputs
      cases hbells
      rfl
    exact hfirst.runsTo_add_iff.2
      ⟨result', (Script.runsTo_followedBy_iff spent).2 ⟨left', rest, rfl⟩, hresult⟩

def Machine.askingTwice : Machine :=
  { initial with memory := Memory.empty.poke 0 [0x01, 0xb0, 0x02, 0xb0, 0x00, 0x08] }

/--
With one byte for two inputs a run stops after the first; the run that is given the second byte
ends as the run with both.
-/
theorem Machine.run_resumed_asking_twice :
    ∃ (stuck last : Machine) (spent rest left : Script),
      askingTwice.RunsTo (Script.ofInputs [5]) 1 (.error (.port (.scriptExhausted 0))) stuck
          spent ∧
        stuck.RunsTo (Script.ofInputs [7]) 2 (.ok 2) last rest ∧
        askingTwice.RunsTo (Script.ofInputs [5, 7]) 3 (.ok 3) last left ∧
        last.registers.read 1 = 5 ∧ last.registers.read 2 = 7 := by
  obtain ⟨stuck, hstuck⟩ : ∃ stuck, (askingTwice.step (Script.ofInputs [5])).machine = stuck :=
    ⟨_, rfl⟩
  obtain ⟨asked, hasked⟩ : ∃ asked, stuck.step (Script.ofInputs [7]) = asked := ⟨_, rfl⟩
  obtain ⟨done, hdone⟩ : ∃ done, asked.machine.step asked.device = done := ⟨_, rfl⟩
  have stops : askingTwice.RunsTo (Script.ofInputs [5]) 1 (.error (.port (.scriptExhausted 0)))
      stuck (.ofInputs []) := by
    have hstep : (askingTwice.step (Script.ofInputs [5])).result = .ok (.input 0 1) := by rfl
    subst hstuck
    exact runsTo_iff.2 ⟨_, .next hstep (.refl _ _), .fault (by rfl) (by rfl)⟩
  have goes : stuck.RunsTo (Script.ofInputs [7]) 2 (.ok 2) done.machine done.device := by
    have hstep : (stuck.step (Script.ofInputs [7])).result = .ok (.input 0 2) := by
      subst hstuck
      rfl
    have hhalt : (asked.machine.step asked.device).result = .ok .halt := by
      subst hasked hstuck
      rfl
    subst hdone hasked
    refine runsTo_iff.2 ⟨_, .next hstep (.next hhalt (.refl _ _)), .halted ?_⟩
    subst hstuck
    rfl
  refine ⟨stuck, done.machine, _, _, Script.followedBy (.ofInputs []) done.device, stops, goes,
    ?_, ?_, ?_⟩
  · exact (run_resumed.2 askingTwice stuck [5] [7] 1 _ _ stops 3 (.ok 3) _ _).2
      ⟨2, .ok 2, _, goes, rfl, rfl, rfl, rfl, rfl⟩
  all_goals
    subst hdone hasked hstuck
    rfl

end Redstone

import Mathlib.Data.ENat.Lattice
import Redstone.Proofs.Machine.Run

/-!
# Runs in pieces

A machine goes on by single steps, by runs to the end and by runs that a limit or a raised flag
cuts short. All of them repeat the same step, and each of them tells from the machine alone whether
it is over. So it does not matter how the way to a machine is cut into pieces.
-/

namespace Redstone

namespace Machine

variable {δ : Type} [Ports δ]

inductive Driver where
  | step
  | run
  | runWith (limit : Option UInt64) (stop : Bool)

inductive Answer where
  | executed (instruction : Instruction)
  | ended (count : Nat)
  | stopped (reason : StopReason)

/-- A driver comes back from a machine and a device without a failure, its events aside. -/
inductive Returns (machine : Machine) (device : δ) : Driver → Answer → Machine → δ → Prop where
  | step {instruction : Instruction} {last : Machine} {left : δ} {events : List Event}
      (h : machine.step device = ⟨.ok instruction, last, left, events⟩) :
      Returns machine device .step (.executed instruction) last left
  | run {allowance count : Nat} {last : Machine} {left : δ} {events : List Event}
      (h : machine.run allowance device = some ⟨.ok count, last, left, events⟩) :
      Returns machine device .run (.ended count) last left
  | runWith {allowance : Nat} {limit : Option UInt64} {stop : Bool} {reason : StopReason}
      {last : Machine} {left : δ} {events : List Event}
      (h : machine.runWith allowance limit stop device = some ⟨.ok reason, last, left, events⟩) :
      Returns machine device (.runWith limit stop) (.stopped reason) last left

noncomputable def stepsToHalt (machine : Machine) (device : δ) : ℕ∞ :=
  ⨅ (n : Nat) (_ : (machine.after device n).1.state = .halted), (n : ℕ∞)

/-- The number of instructions that a driver is to execute before it comes back. -/
noncomputable def Driver.count (machine : Machine) (device : δ) : Driver → ℕ∞
  | .step => 1
  | .run => machine.stepsToHalt device
  | .runWith limit false =>
      min (limit.elim ⊤ fun max => (max.toNat : ℕ∞)) (machine.stepsToHalt device)
  | .runWith _ true => 0

/-- Drivers that come back one after another, with their counts added up. -/
inductive Leads : Machine → δ → List (Driver × Answer) → ℕ∞ → Machine → δ → Prop where
  | nil (machine : Machine) (device : δ) : Leads machine device [] 0 machine device
  | cons {machine middle last : Machine} {device between left : δ} {driver : Driver}
      {answer : Answer} {calls : List (Driver × Answer)} {total : ℕ∞}
      (returns : machine.Returns device driver answer middle between)
      (rest : Leads middle between calls total last left) :
      Leads machine device ((driver, answer) :: calls) (driver.count machine device + total)
        last left

/-! ## Steps up to the end -/

namespace Executes

variable {machine middle last : Machine} {device between left : δ} {m n : Nat}

theorem le_stepsToHalt (executes : Executes machine device n last left) :
    (n : ℕ∞) ≤ machine.stepsToHalt device := by
  refine le_iInf₂ fun k hhalted => ?_
  by_contra hlt
  have hkn : k < n := by exact_mod_cast not_le.1 hlt
  obtain ⟨middle, between, first⟩ := executes.exists_of_le (Nat.le_of_lt hkn)
  rw [first.after_eq] at hhalted
  exact ne_halted_of_running (first.running_of_lt executes hkn) hhalted

theorem stepsToHalt_eq (executes : Executes machine device n last left)
    (hhalted : last.state = .halted) : machine.stepsToHalt device = n := by
  refine le_antisymm (iInf₂_le n ?_) executes.le_stepsToHalt
  rw [executes.after_eq]
  exact hhalted

end Executes

/-! ## Runs with a limit -/

/-- Why a run with a limit is over at a machine after so many instructions. -/
inductive Stops (limit : Option UInt64) : Nat → Machine → StopReason → Prop where
  | halted {n : Nat} {last : Machine} (within : ∀ max ∈ limit, n ≤ max.toNat)
      (halted : last.state = .halted) : Stops limit n last last.haltReason
  | limit {n : Nat} {last : Machine} {max : UInt64} (limited : limit = some max)
      (reached : n = max.toNat) (running : last.state = .running) : Stops limit n last .cycleLimit

section Stops

variable {machine middle last : Machine} {device between left : δ} {m n : Nat}
  {limit : Option UInt64} {reason : StopReason} {answer : Answer}

theorem runWith_of_running {progress : Progress δ} (hrunning : machine.state = .running)
    (limit : Option UInt64) (allowance : Nat)
    (hadvance : machine.advance (limit.elim allowance UInt64.toNat) device = progress) :
    machine.runWith allowance limit false device = match progress.fault with
      | some fault =>
          some ⟨.error fault, progress.machine, progress.device, progress.events.toList ++ []⟩
      | none =>
          if progress.machine.state = .halted then
            some ⟨.ok progress.machine.haltReason, progress.machine, progress.device,
              progress.events.toList ++ []⟩
          else
            limit.map fun max =>
              ⟨.ok .cycleLimit, progress.machine, progress.device,
                progress.events.toList ++ [.cycleLimit max]⟩ := by
  subst hadvance
  cases limit with
  | none => exact if_neg (ne_halted_of_running hrunning)
  | some max => exact if_neg (ne_halted_of_running hrunning)

theorem runWith_of_halted (hhalted : machine.state = .halted) (allowance : Nat)
    (limit : Option UInt64) (stop : Bool) :
    machine.runWith allowance limit stop device =
      some ⟨.ok machine.haltReason, machine, device, []⟩ :=
  if_pos hhalted

theorem runWith_of_stopped (hrunning : machine.state = .running) (allowance : Nat)
    (limit : Option UInt64) :
    machine.runWith allowance limit true device =
      some ⟨.ok .interrupted, machine, device, [.interrupted machine.registers.pc]⟩ :=
  if_neg (ne_halted_of_running hrunning)

theorem Executes.returns_runWith (executes : Executes machine device n last left)
    (stops : Stops limit n last reason) :
    machine.Returns device (.runWith limit false) (.stopped reason) last left := by
  cases hstate : machine.state with
  | halted =>
      obtain rfl := executes.eq_zero_of_halted hstate
      cases executes with
      | refl =>
          cases stops with
          | halted within hhalted => exact .runWith (runWith_of_halted hstate 0 limit false)
          | limit _ _ hrunning => exact absurd hstate (ne_halted_of_running hrunning)
  | running =>
      cases stops with
      | halted within hhalted =>
          have hle : n ≤ limit.elim n UInt64.toNat := by
            cases limit with
            | none => exact le_rfl
            | some max => exact within max rfl
          obtain ⟨events, hadvance⟩ := executes.exists_advance_eq_of_halted hle hhalted
          have hrun := runWith_of_running hstate limit n hadvance
          simp only [if_pos hhalted] at hrun
          exact .runWith hrun
      | limit limited reached hrunning =>
          subst limited reached
          obtain ⟨events, hadvance⟩ := executes.exists_advance_eq
          have hrun := runWith_of_running hstate (some _) 0 hadvance
          simp only [if_neg (ne_halted_of_running hrunning)] at hrun
          exact .runWith hrun

theorem Returns.exists_stops
    (returns : machine.Returns device (.runWith limit false) answer last left) :
    ∃ n reason, Executes machine device n last left ∧ Stops limit n last reason ∧
      answer = .stopped reason := by
  cases returns with
  | @runWith allowance _ _ _ _ _ _ h =>
  cases hstate : machine.state with
  | halted =>
      rw [runWith_of_halted hstate] at h
      cases h
      exact ⟨0, _, .refl _ _, .halted (fun _ _ => Nat.zero_le _) hstate, rfl⟩
  | running =>
      have reaches := machine.reaches_advance device (limit.elim allowance UInt64.toNat)
      generalize hadvance : machine.advance (limit.elim allowance UInt64.toNat) device =
        progress at reaches
      rw [runWith_of_running hstate limit allowance hadvance] at h
      have within (n : Nat) (hle : n ≤ limit.elim allowance UInt64.toNat) :
          ∀ max ∈ limit, n ≤ max.toNat := by
        rintro max rfl
        exact hle
      cases reaches with
      | @bound reached _ _ executes =>
          cases hreached : reached.state with
          | halted =>
              simp only [if_pos hreached] at h
              cases h
              exact ⟨_, _, executes, .halted (within _ le_rfl) hreached, rfl⟩
          | running =>
              simp only [if_neg (ne_halted_of_running hreached)] at h
              cases limit with
              | none => cases h
              | some max =>
                  cases h
                  exact ⟨_, _, executes, .limit rfl rfl hreached, rfl⟩
      | halted executes hle hhalted =>
          simp only [if_pos hhalted] at h
          cases h
          exact ⟨_, _, executes, .halted (within _ hle) hhalted, rfl⟩
      | fault executes hlt hrunning hfails => cases h

/-- The end of a run with a limit, told from its steps. -/
theorem returns_runWith_iff :
    machine.Returns device (.runWith limit false) answer last left ↔
      ∃ n reason, Executes machine device n last left ∧ Stops limit n last reason ∧
        answer = .stopped reason :=
  ⟨Returns.exists_stops, fun ⟨_, _, executes, stops, hanswer⟩ =>
    hanswer ▸ executes.returns_runWith stops⟩

theorem returns_run_iff :
    machine.Returns device .run answer last left ↔
      ∃ n, Executes machine device n last left ∧ last.state = .halted ∧ answer = .ended n := by
  constructor
  · intro returns
    cases returns with
    | run h =>
    have runs : machine.RunsTo device _ _ last left := ⟨_, _, h, rfl⟩
    obtain ⟨between, executes, ends⟩ := runsTo_iff.1 runs
    cases ends with
    | halted hhalted => exact ⟨_, executes, hhalted, rfl⟩
  · rintro ⟨n, executes, hhalted, rfl⟩
    obtain ⟨allowance, events, hrun, _⟩ := runsTo_iff.2 ⟨left, executes, .halted hhalted⟩
    exact .run hrun

/-! ## How many instructions are executed -/

theorem Stops.count_eq (stops : Stops limit n last reason)
    (executes : Executes machine device n last left) :
    (n : ℕ∞) = (Driver.runWith limit false).count machine device := by
  cases stops with
  | halted within hhalted =>
      rw [Driver.count, executes.stepsToHalt_eq hhalted, min_eq_right]
      cases limit with
      | none => exact le_top
      | some max => exact Nat.cast_le.2 (within max rfl)
  | limit limited reached hrunning =>
      subst limited reached
      exact (min_eq_left executes.le_stepsToHalt).symm

/-- A driver that comes back has executed as many instructions as it is to. -/
theorem Returns.exists_executes {driver : Driver}
    (returns : machine.Returns device driver answer last left) :
    ∃ n : Nat, (n : ℕ∞) = driver.count machine device ∧ Executes machine device n last left ∧
      ∀ k, answer = .ended k → k = n := by
  cases driver with
  | step =>
      cases returns with
      | @step instruction _ _ events h =>
      have hstep : (machine.step device).result = .ok instruction := by rw [h]
      refine ⟨1, rfl, ?_, nofun⟩
      have executes : Executes machine device 1 _ _ := .next hstep (.refl _ _)
      rwa [h] at executes
  | run =>
      obtain ⟨n, executes, hhalted, rfl⟩ := returns_run_iff.1 returns
      exact ⟨n, (executes.stepsToHalt_eq hhalted).symm, executes, by rintro _ ⟨⟩; rfl⟩
  | runWith limit stop =>
      cases stop with
      | false =>
          obtain ⟨n, reason, executes, stops, rfl⟩ := returns_runWith_iff.1 returns
          exact ⟨n, stops.count_eq executes, executes, nofun⟩
      | true =>
          cases returns with
          | runWith h =>
          refine ⟨0, rfl, ?_, nofun⟩
          cases hstate : machine.state with
          | halted =>
              rw [runWith_of_halted hstate] at h
              cases h
              exact .refl _ _
          | running =>
              rw [runWith_of_stopped hstate] at h
              cases h
              exact .refl _ _

theorem Leads.exists_executes {calls : List (Driver × Answer)} {total : ℕ∞}
    (leads : Leads machine device calls total last left) :
    ∃ n : Nat, (n : ℕ∞) = total ∧ Executes machine device n last left := by
  induction leads with
  | nil machine device => exact ⟨0, rfl, .refl machine device⟩
  | cons returns _ ih =>
      obtain ⟨m, hm, first, _⟩ := returns.exists_executes
      obtain ⟨n, hn, rest⟩ := ih
      refine ⟨m + n, ?_, first.trans rest⟩
      rw [Nat.cast_add, hm, hn]

/-! ## Going on behind a piece -/

theorem Executes.returns_run_iff (first : Executes machine device m middle between) {k : Nat} :
    middle.Returns between .run (.ended k) last left ↔
      machine.Returns device .run (.ended (m + k)) last left := by
  rw [Machine.returns_run_iff, Machine.returns_run_iff]
  constructor
  · rintro ⟨n, rest, hhalted, ⟨⟩⟩
    exact ⟨m + k, first.trans rest, hhalted, rfl⟩
  · rintro ⟨n, whole, hhalted, ⟨⟩⟩
    exact ⟨k, first.remaining whole, hhalted, rfl⟩

/-- A run without a limit comes from a machine to its end as it does from the machines before. -/
theorem Executes.returns_unlimited_iff (first : Executes machine device m middle between) :
    middle.Returns between (.runWith none false) answer last left ↔
      machine.Returns device (.runWith none false) answer last left := by
  rw [returns_runWith_iff, returns_runWith_iff]
  constructor
  · rintro ⟨n, reason, rest, stops, hanswer⟩
    cases stops with
    | halted _ hhalted => exact ⟨m + n, _, first.trans rest, .halted nofun hhalted, hanswer⟩
    | limit limited _ _ => cases limited
  · rintro ⟨n, reason, whole, stops, hanswer⟩
    cases stops with
    | halted _ hhalted =>
        have hle : m ≤ n := (Ends.halted hhalted).le_of_executes whole first
        obtain ⟨k, rfl⟩ := Nat.exists_eq_add_of_le hle
        exact ⟨k, _, first.remaining whole, .halted nofun hhalted, hanswer⟩
    | limit limited _ _ => cases limited

theorem Stops.add_iff {a b : UInt64} {reached : StopReason}
    (stops : Stops (some a) m middle reached) (rest : Executes middle between n last left)
    (hsum : (a + b).toNat = a.toNat + b.toNat) :
    Stops (some b) n last reason ↔ Stops (some (a + b)) (m + n) last reason := by
  have within {k : Nat} {max : UInt64} (hle : k ≤ max.toNat) :
      ∀ other ∈ some max, k ≤ other.toNat := by
    rintro _ ⟨⟩
    exact hle
  cases stops with
  | halted first hmiddle =>
      obtain rfl := rest.eq_zero_of_halted hmiddle
      cases rest with
      | refl =>
      have hle : m ≤ a.toNat := first a rfl
      constructor <;> intro stops <;> cases stops with
      | halted _ hhalted => exact .halted (within (by omega)) hhalted
      | limit _ _ hrunning => exact absurd hmiddle (ne_halted_of_running hrunning)
  | limit limited reached hmiddle =>
      cases limited
      constructor <;> intro stops
      · cases stops with
        | halted second hhalted =>
            have hle : n ≤ b.toNat := second b rfl
            exact .halted (within (by omega)) hhalted
        | limit limited reached' hrunning =>
            cases limited
            exact .limit rfl (by omega) hrunning
      · cases stops with
        | halted both hhalted =>
            have hle : m + n ≤ (a + b).toNat := both _ rfl
            exact .halted (within (by omega)) hhalted
        | limit limited reached' hrunning =>
            cases limited
            exact .limit rfl (by omega) hrunning

theorem Stops.le_of_executes {b : UInt64} (stops : Stops (some b) n last reason)
    (whole : Executes machine device n last left)
    (first : Executes machine device m middle between) (hle : m ≤ b.toNat) : m ≤ n := by
  cases stops with
  | halted _ hhalted => exact (Ends.halted hhalted).le_of_executes whole first
  | limit limited reached _ =>
      cases limited
      exact reached ▸ hle

theorem Stops.le_limit {a : UInt64} (stops : Stops (some a) n last reason) : n ≤ a.toNat := by
  cases stops with
  | halted within _ => exact within a rfl
  | limit limited reached _ =>
      cases limited
      exact Nat.le_of_eq reached

/-- What is left of a sum of limits behind the first is what the second allows. -/
theorem Returns.returns_add_iff {a b : UInt64} {reached : Answer}
    (returns : machine.Returns device (.runWith (some a) false) reached middle between)
    (hlt : a.toNat + b.toNat < 2 ^ 64) :
    middle.Returns between (.runWith (some b) false) answer last left ↔
      machine.Returns device (.runWith (some (a + b)) false) answer last left := by
  have hsum : (a + b).toNat = a.toNat + b.toNat := by
    rw [UInt64.toNat_add, Nat.mod_eq_of_lt hlt]
  obtain ⟨m, _, first, stops, _⟩ := returns.exists_stops
  rw [returns_runWith_iff, returns_runWith_iff]
  constructor
  · rintro ⟨n, reason, rest, stops', hanswer⟩
    exact ⟨m + n, reason, first.trans rest, (stops.add_iff rest hsum).1 stops', hanswer⟩
  · rintro ⟨n, reason, whole, stops', hanswer⟩
    have hle : m ≤ (a + b).toNat := hsum ▸ Nat.le_add_right_of_le stops.le_limit
    obtain ⟨k, rfl⟩ := Nat.exists_eq_add_of_le (stops'.le_of_executes whole first hle)
    have rest := first.remaining whole
    exact ⟨k, reason, rest, (stops.add_iff rest hsum).2 stops', hanswer⟩

end Stops

/--
It does not matter how a run is cut into calls. A driver that comes back has executed as many
instructions as it is to, and a run to the end answers their number. Drivers called one after
another, whatever they answer, come to the machine and the device that as many single steps as
all of them together come to. From there a run without a limit ends as it would have without the
cuts. And one limit behind another is the sum of the two.
-/
theorem run_in_pieces (machine : Machine) (device : δ) :
    (∀ (driver : Driver) (answer : Answer) (last : Machine) (left : δ),
      machine.Returns device driver answer last left →
        ∃ n : Nat, (n : ℕ∞) = driver.count machine device ∧
          Executes machine device n last left ∧ ∀ k, answer = .ended k → k = n) ∧
    (∀ (calls : List (Driver × Answer)) (total : ℕ∞) (middle : Machine) (between : δ),
      Leads machine device calls total middle between →
        ∃ n : Nat, (n : ℕ∞) = total ∧ Executes machine device n middle between ∧
          machine.after device n = (middle, between) ∧
          (machine.cycles.toNat + n < 2 ^ 64 →
            middle.cycles.toNat = machine.cycles.toNat + n) ∧
          ∀ (last : Machine) (left : δ),
            (∀ answer, middle.Returns between (.runWith none false) answer last left ↔
              machine.Returns device (.runWith none false) answer last left) ∧
            ∀ k, middle.Returns between .run (.ended k) last left ↔
              machine.Returns device .run (.ended (n + k)) last left) ∧
    ∀ (a b : UInt64) (reached : Answer) (middle : Machine) (between : δ),
      a.toNat + b.toNat < 2 ^ 64 →
      machine.Returns device (.runWith (some a) false) reached middle between →
        ∀ (answer : Answer) (last : Machine) (left : δ),
          middle.Returns between (.runWith (some b) false) answer last left ↔
            machine.Returns device (.runWith (some (a + b)) false) answer last left := by
  refine ⟨fun driver answer last left returns => returns.exists_executes, ?_,
    fun a b reached middle between hlt returns answer last left => returns.returns_add_iff hlt⟩
  intro calls total middle between leads
  obtain ⟨n, hn, executes⟩ := leads.exists_executes
  refine ⟨n, hn, executes, executes.after_eq, fun hlt => ?_, fun last left =>
    ⟨fun answer => executes.returns_unlimited_iff, fun k => executes.returns_run_iff⟩⟩
  rw [executes.cycles_eq, UInt64.toNat_add, UInt64.toNat_ofNat', Nat.add_mod_mod,
    Nat.mod_eq_of_lt hlt]

def oneThenHalt : Machine :=
  { initial with memory := Memory.empty.poke 2 [0x00, 0x08] }

/--
A limit of 1 ends in front of the halt, a raised flag leaves it there, and another limit of 1 ends
on the halt; so does a limit of 2, and so do two steps.
-/
theorem run_in_pieces_one_then_halt :
    ∃ (middle last : Machine) (between left : Script),
      oneThenHalt.Returns (Script.ofInputs []) (.runWith (some 1) false) (.stopped .cycleLimit)
          middle between ∧
        middle.Returns between (.runWith none true) (.stopped .interrupted) middle between ∧
        middle.Returns between (.runWith (some 1) false) (.stopped .halted) last left ∧
        oneThenHalt.Returns (Script.ofInputs []) (.runWith (some 2) false) (.stopped .halted)
          last left ∧
        oneThenHalt.after (Script.ofInputs []) 2 = (last, left) := by
  obtain ⟨first, hfirst⟩ : ∃ first, oneThenHalt.step (Script.ofInputs []) = first := ⟨_, rfl⟩
  obtain ⟨second, hsecond⟩ : ∃ second, first.machine.step first.device = second := ⟨_, rfl⟩
  have goes : Executes oneThenHalt (Script.ofInputs []) 1 first.machine first.device := by
    have hstep : (oneThenHalt.step (Script.ofInputs [])).result = .ok .nop := by rfl
    subst hfirst
    exact .next hstep (.refl _ _)
  have halts : Executes first.machine first.device 1 second.machine second.device := by
    have hstep : (first.machine.step first.device).result = .ok .halt := by
      subst hfirst
      rfl
    subst hsecond
    exact .next hstep (.refl _ _)
  have hrunning : first.machine.state = .running := by
    subst hfirst
    rfl
  have cut : Stops (some 1) 1 first.machine .cycleLimit := .limit rfl rfl hrunning
  have ends : Stops (some 1) 1 second.machine .halted := by
    have hreason : second.machine.haltReason = .halted := by
      subst hsecond hfirst
      rfl
    rw [← hreason]
    refine .halted ?_ ?_
    · rintro _ ⟨⟩
      rfl
    · subst hsecond hfirst
      rfl
  have flagged : first.machine.Returns first.device (.runWith none true) (.stopped .interrupted)
      first.machine first.device := .runWith (runWith_of_stopped hrunning 0 none)
  obtain ⟨_, calls, sums⟩ := run_in_pieces oneThenHalt (Script.ofInputs [])
  obtain ⟨n, hn, _, hafter, _⟩ := calls _ _ _ _
    (.cons (goes.returns_runWith cut) (.cons flagged (.cons (halts.returns_runWith ends)
      (.nil _ _))))
  obtain rfl : n = 2 := by
    rw [← cut.count_eq goes, ← ends.count_eq halts] at hn
    exact Nat.cast_injective hn
  exact ⟨_, _, _, _, goes.returns_runWith cut, flagged, halts.returns_runWith ends,
    (sums 1 1 _ _ _ (by decide) (goes.returns_runWith cut) _ _ _).1
      (halts.returns_runWith ends), hafter⟩

end Machine

end Redstone

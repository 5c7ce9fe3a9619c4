import Redstone.Proofs.Machine.Calls

/-!
# The sixteen newest calls

Calls may go deeper than the stack. It then holds the sixteen newest entries that have not been
taken off again, and what it has lost does not come back. Nothing counts the entries, but as long
as none of them is zero the slots tell how many there are: the last slot is occupied exactly when
there are sixteen, and all slots are zero exactly when there are none.
-/

namespace Redstone

namespace CallStack

inductive Use where
  | push (slot : UInt16)
  | pop
  deriving DecidableEq

/-- What is pushed can be told from an empty slot. -/
def Use.Occupies : Use → Prop
  | .push slot => slot &&& 0x3ff ≠ 0
  | .pop => True

instance (use : Use) : Decidable use.Occupies :=
  match use with
  | .push slot => inferInstanceAs (Decidable (slot &&& 0x3ff ≠ 0))
  | .pop => inferInstanceAs (Decidable True)

/-- The stack behind a use of it. A pop that finds no entry changes nothing. -/
def behind (stack : CallStack) : Use → CallStack
  | .push slot => stack.push slot
  | .pop =>
      match stack.pop with
      | some (_, rest) => rest
      | none => stack

/-- A list of entries, newest first, of which a push keeps sixteen. -/
def Use.keep (entries : List UInt16) : Use → List UInt16
  | .push slot => ((slot &&& 0x3ff) :: entries).take 16
  | .pop => entries.tail

theorem push_and_slotMask (stack : CallStack) (slot : UInt16) :
    stack.push (slot &&& 0x3ff) = stack.push slot := by
  simp only [push, and_slotMask (toNat_slotMask_le slot)]

theorem behind_pop_of_pop_eq_none {stack : CallStack} (hpop : stack.pop = none) :
    stack.behind .pop = stack := by
  simp only [behind, hpop]

/-! ## One use -/

namespace Holds

variable {stack : CallStack} {entries : List UInt16}

theorem slots_eq_of_full (holds : stack.Holds entries) (hfull : entries.length = 16) :
    stack.slots = entries := by
  rw [holds.slots_eq, hfull]
  exact List.append_nil entries

theorem push_of_full (holds : stack.Holds entries) (hfull : entries.length = 16) {slot : UInt16}
    (hne : slot &&& 0x3ff ≠ 0) :
    (stack.push slot).Holds ((slot &&& 0x3ff) :: entries.dropLast) where
  length_le := by
    rw [List.length_cons, List.length_dropLast]
    omega
  slots_eq := by
    have hnone : 16 - ((slot &&& 0x3ff) :: entries.dropLast).length = 0 := by
      rw [List.length_cons, List.length_dropLast]
      omega
    show (slot &&& 0x3ff) :: stack.slots.dropLast = _
    rw [holds.slots_eq_of_full hfull, hnone]
    exact (List.append_nil _).symm
  ne_zero := List.forall_mem_cons.2
    ⟨hne, fun other hmem => holds.ne_zero other (List.dropLast_subset _ hmem)⟩
  narrow := List.forall_mem_cons.2
    ⟨toNat_slotMask_le slot, fun other hmem => holds.narrow other (List.dropLast_subset _ hmem)⟩

theorem push_keep (holds : stack.Holds entries) {slot : UInt16} (hne : slot &&& 0x3ff ≠ 0) :
    (stack.push slot).Holds (Use.keep entries (.push slot)) := by
  have hlength := holds.length_le
  show (stack.push slot).Holds (((slot &&& 0x3ff) :: entries).take 16)
  by_cases hfull : entries.length = 16
  · have hkept : ((slot &&& 0x3ff) :: entries).take 16 = (slot &&& 0x3ff) :: entries.dropLast := by
      rw [List.take_succ_cons, List.dropLast_eq_take, hfull]
    rw [hkept]
    exact holds.push_of_full hfull hne
  · have hroom : entries.length < 16 := by omega
    have hkept : ((slot &&& 0x3ff) :: entries).take 16 = (slot &&& 0x3ff) :: entries :=
      List.take_of_length_le hroom
    rw [hkept, ← stack.push_and_slotMask]
    exact holds.push hroom hne (toNat_slotMask_le slot)

theorem behind (holds : stack.Holds entries) {use : Use} (hoccupies : use.Occupies) :
    (stack.behind use).Holds (use.keep entries) := by
  cases use with
  | push slot => exact holds.push_keep hoccupies
  | pop =>
      cases entries with
      | nil =>
          rw [behind_pop_of_pop_eq_none holds.pop_nil]
          exact holds
      | cons slot older =>
          obtain ⟨rest, hpop, hrest⟩ := holds.pop_cons
          simp only [CallStack.behind, hpop]
          exact hrest

/-- The last slot is occupied exactly when sixteen entries are there. -/
theorem overflow?_eq_some_iff (holds : stack.Holds entries) {dropped : UInt16} :
    stack.overflow? = some dropped ↔ entries.length = 16 ∧ entries.getLast? = some dropped := by
  have hlength := holds.length_le
  by_cases hfull : entries.length = 16
  · rw [overflow?, holds.slots_eq_of_full hfull, Option.filter_eq_some_iff]
    constructor
    · intro hlost
      exact ⟨hfull, hlost.1⟩
    · intro hboth
      have hne := holds.ne_zero dropped (List.mem_of_getLast? hboth.2)
      exact ⟨hboth.2, bne_iff_ne.2 hne⟩
  · rw [holds.overflow?_eq_none (by omega)]
    constructor
    · intro hlost
      cases hlost
    · intro hboth
      exact absurd hboth.1 hfull

theorem pop_eq_none_iff (holds : stack.Holds entries) : stack.pop = none ↔ entries = [] := by
  constructor
  · intro hnone
    cases entries with
    | nil => rfl
    | cons slot older =>
        obtain ⟨rest, hpop, _⟩ := holds.pop_cons
        rw [hnone] at hpop
        cases hpop
  · intro hempty
    subst hempty
    exact holds.pop_nil

/-! ## Uses one after another -/

theorem foldl_behind (holds : stack.Holds entries) (uses : List Use)
    (hoccupies : ∀ use ∈ uses, use.Occupies) :
    (uses.foldl CallStack.behind stack).Holds (uses.foldl Use.keep entries) := by
  induction uses generalizing stack entries with
  | nil => exact holds
  | cons use uses ih =>
      have hhead := hoccupies use List.mem_cons_self
      have htail := fun other hmem => hoccupies other (List.mem_cons_of_mem use hmem)
      exact ih (holds.behind hhead) htail

end Holds

/-- The slot that a call comes back to has low bits unless the call is in the last slot. -/
theorem occupies_push_next (machine : Machine) (hpc : machine.registers.pc.toNat ≤ 1022) :
    (Use.push (machine.registers.pc + 1)).Occupies := by
  have hnext := machine.next_toNat (Nat.le_succ_of_le hpc)
  intro hzero
  have hmask := toNat_slotMask (machine.registers.pc + 1)
  rw [hzero, hnext] at hmask
  have hlow : 0 = (machine.registers.pc.toNat + 1) % 1024 := hmask
  omega

/--
A stack that has been pushed and popped in any order and to any depth holds what a list holds of
which sixteen entries are kept: its slots are the list with zeros behind it. A pop takes the newest
entry and finds none exactly when the list is empty; a push loses an entry exactly when there are
sixteen, and it is the oldest one. The calls of a machine push such slots, except in the last slot.
-/
theorem holds_sixteen_newest (uses : List Use) (hoccupies : ∀ use ∈ uses, use.Occupies) :
    let stack := uses.foldl behind empty
    let entries := uses.foldl Use.keep []
    entries.length ≤ 16 ∧ stack.slots = entries ++ List.replicate (16 - entries.length) 0 ∧
      (stack.pop = none ↔ entries = []) ∧ (stack.pop = none → stack.behind .pop = stack) ∧
      (∀ slot older, entries = slot :: older → ∃ rest, stack.pop = some (slot, rest) ∧
        rest.slots = older ++ List.replicate (16 - older.length) 0) ∧
      (∀ dropped, stack.overflow? = some dropped ↔
        entries.length = 16 ∧ entries.getLast? = some dropped) ∧
      ∀ (machine : Machine) (target : UInt16), machine.registers.pc.toNat ≤ 1022 →
        (machine.enter target).1.stack =
            machine.stack.behind (.push (machine.registers.pc + 1)) ∧
          (Use.push (machine.registers.pc + 1)).Occupies := by
  intro stack entries
  have holds : stack.Holds entries := holds_empty.foldl_behind uses hoccupies
  refine ⟨holds.length_le, holds.slots_eq, holds.pop_eq_none_iff, behind_pop_of_pop_eq_none, ?_,
    fun dropped => holds.overflow?_eq_some_iff,
    fun machine target hpc => ⟨rfl, occupies_push_next machine hpc⟩⟩
  intro slot older hentries
  rw [hentries] at holds
  obtain ⟨rest, hpop, hrest⟩ := holds.pop_cons
  exact ⟨rest, hpop, hrest.slots_eq⟩

/-- Sixteen calls, one call more, which loses the first of them, and two returns. -/
theorem holds_sixteen_newest_seventeen :
    let calls := (List.range' 1 16).map fun n => Use.push (UInt16.ofNat n)
    let deeper := calls ++ [Use.push 17, Use.pop, Use.pop]
    (∀ use ∈ deeper, use.Occupies) ∧ (calls.foldl behind empty).overflow? = some 1 ∧
      (deeper.foldl behind empty).slots =
        [15, 14, 13, 12, 11, 10, 9, 8, 7, 6, 5, 4, 3, 2, 0, 0] := by
  intro calls deeper
  have hcalls : ∀ use ∈ calls, use.Occupies := by decide
  have hdeeper : ∀ use ∈ deeper, use.Occupies := by decide
  obtain ⟨_, _, _, _, _, hlost, _⟩ := holds_sixteen_newest calls hcalls
  obtain ⟨_, hslots, _⟩ := holds_sixteen_newest deeper hdeeper
  refine ⟨hdeeper, (hlost 1).2 (by decide), ?_⟩
  rw [hslots]
  decide

end CallStack

end Redstone

import Redstone.Proofs.Program.Names

/-!
# What a symbol table keeps

Declarations and placements come to a table in any order. It accepts a declaration whose name is
legal and not yet taken and whose number is in range; anything else it refuses and stays what it
is. One action that is accepted adds one entry and touches no other. By induction a table knows
all that it has accepted: labels and definitions by their numbers, variables by where they lie
behind the slots of the last placement, or as unplaced if there was none since.
-/

namespace Redstone

namespace Symbols

/-- What can be done to a table: a declaration, or placing the variables behind some slots. -/
inductive Action where
  | label (name : String) (index : UInt16)
  | var (name : String) (value : Int)
  | definition (name : String) (value : Int)
  | place (slotCount : Nat)

namespace Action

def name? : Action → Option String
  | label name _ | var name _ | definition name _ => some name
  | place _ => none

def byte? : Action → Option UInt8
  | var _ value => some (UInt8.ofNat value.toNat)
  | label .. | definition .. | place _ => none

def slotCount? : Action → Option Nat
  | place slotCount => some slotCount
  | label .. | var .. | definition .. => none

/-- A variable is a byte, and a definition is not negative. -/
def InRange : Action → Prop
  | var _ value => 0 ≤ value ∧ value ≤ 255
  | definition _ value => 0 ≤ value
  | label .. | place _ => True

/-- The symbol under which an action is kept behind so many variables. -/
def symbol? (ordinal : Nat) : Action → Option Symbol
  | label _ index => some (.label index)
  | var _ value => some (.var (UInt8.ofNat value.toNat) ordinal)
  | definition _ value => some (.definition value)
  | place _ => none

end Action

def Taken (actions : List Action) (name : String) : Prop :=
  ∃ action ∈ actions, ∃ other, action.name? = some other ∧ SameName name other

/-- A table accepts an action behind others that it has accepted. -/
structure Action.Acceptable (done : List Action) (action : Action) : Prop where
  in_range : action.InRange
  legal : ∀ name, action.name? = some name → LegalName name
  not_taken : ∀ name, action.name? = some name → ¬ Taken done name

/-- The bytes that the variables start with, in the order of their declarations. -/
def values (actions : List Action) : List UInt8 :=
  actions.filterMap Action.byte?

def lastPlaced? (actions : List Action) : Option Nat :=
  (actions.filterMap Action.slotCount?).getLast?

def act (symbols : Symbols) : Action → Except SymbolError Symbols
  | .label name index => (symbols.declareLabel name index).map Prod.fst
  | .var name value => (symbols.declareVariable name value).map Prod.fst
  | .definition name value => (symbols.declareDefinition name value).map Prod.fst
  | .place slotCount => .ok (symbols.place slotCount)

/-- The table behind an action; one that is refused leaves it as it is. -/
def behind (symbols : Symbols) (action : Action) : Symbols :=
  match symbols.act action with
  | .ok after => after
  | .error _ => symbols

def accepted (symbols : Symbols) : List Action → List Action
  | [] => []
  | action :: actions =>
      match symbols.act action with
      | .ok after => action :: after.accepted actions
      | .error _ => symbols.accepted actions

theorem accepted_append (symbols : Symbols) (actions more : List Action) :
    symbols.accepted (actions ++ more) =
      symbols.accepted actions ++ (actions.foldl behind symbols).accepted more := by
  induction actions generalizing symbols with
  | nil => rfl
  | cons action actions ih =>
      rw [List.cons_append, List.foldl_cons, behind, accepted, accepted]
      cases symbols.act action with
      | ok after => exact congrArg (action :: ·) (ih after)
      | error e => exact ih symbols

/-! ## One action -/

section Act

variable {symbols after : Symbols} {action : Action}

theorem act_cases (hact : symbols.act action = .ok after) :
    (∃ slotCount, action = .place slotCount ∧ after = symbols.place slotCount) ∨
      ∃ name symbol, action.name? = some name ∧ action.symbol? symbols.vars.size = some symbol ∧
        action.InRange ∧ symbols.check name = .ok (key name) ∧
        after.entries = (key name, symbol) :: symbols.entries ∧
        after.data = symbols.data ++ action.byte?.toList ∧ after.placement = symbols.placement := by
  have hkey {name found : String} (hcheck : symbols.check name = .ok found) :
      found = key name := ((check_eq_ok_iff symbols name found).1 hcheck).1
  cases action with
  | place slotCount =>
      cases hact
      exact .inl ⟨slotCount, rfl, rfl⟩
  | label name index =>
      cases hcheck : symbols.check name with
      | error e => simp [act, declareLabel, hcheck, Except.map] at hact
      | ok found =>
          obtain rfl := hkey hcheck
          simp only [act, declareLabel, hcheck, Except.map, Except.ok.injEq] at hact
          subst hact
          exact .inr ⟨name, _, rfl, rfl, trivial, hcheck, rfl, (List.append_nil _).symm, rfl⟩
  | var name value =>
      cases hcheck : symbols.check name with
      | error e => simp [act, declareVariable, hcheck, Except.map] at hact
      | ok found =>
          obtain rfl := hkey hcheck
          by_cases hrange : 0 ≤ value ∧ value < 256
          · simp only [act, declareVariable, hcheck, if_pos hrange, Except.map,
              Except.ok.injEq] at hact
            subst hact
            refine .inr ⟨name, _, rfl, rfl, ⟨hrange.1, by omega⟩, hcheck, rfl, ?_, rfl⟩
            simp [data, add, Action.byte?]
          · simp [act, declareVariable, hcheck, if_neg hrange, Except.map] at hact
  | definition name value =>
      cases hcheck : symbols.check name with
      | error e => simp [act, declareDefinition, hcheck, Except.map] at hact
      | ok found =>
          obtain rfl := hkey hcheck
          by_cases hrange : 0 ≤ value
          · simp only [act, declareDefinition, hcheck, if_pos hrange, Except.map,
              Except.ok.injEq] at hact
            subst hact
            exact .inr ⟨name, _, rfl, rfl, hrange, hcheck, rfl, (List.append_nil _).symm, rfl⟩
          · simp [act, declareDefinition, hcheck, if_neg hrange, Except.map] at hact

theorem exists_act_eq_ok (hrange : action.InRange)
    (hcheck : ∀ name, action.name? = some name → symbols.check name = .ok (key name)) :
    ∃ after, symbols.act action = .ok after := by
  cases action with
  | place slotCount => exact ⟨_, rfl⟩
  | label name index => simp [act, declareLabel, hcheck name rfl, Except.map]
  | var name value =>
      have hbyte : 0 ≤ value ∧ value < 256 := ⟨hrange.1, Int.lt_add_one_of_le hrange.2⟩
      simp [act, declareVariable, hcheck name rfl, hbyte, Except.map]
  | definition name value =>
      have hnatural : 0 ≤ value := hrange
      simp [act, declareDefinition, hcheck name rfl, hnatural, Except.map]

end Act

/-! ## All actions -/

theorem values_append (actions more : List Action) :
    values (actions ++ more) = values actions ++ values more :=
  List.filterMap_append

theorem lastPlaced?_concat (actions : List Action) (last : Action) :
    lastPlaced? (actions ++ [last]) = last.slotCount?.or (lastPlaced? actions) := by
  unfold lastPlaced?
  rw [List.filterMap_append]
  cases hslots : last.slotCount? with
  | none => simp [hslots]
  | some slotCount => simp [hslots]

theorem taken_concat_iff (actions : List Action) (last : Action) (name : String) :
    Taken (actions ++ [last]) name ↔
      Taken actions name ∨ ∃ other, last.name? = some other ∧ SameName name other := by
  simp [Taken, or_and_right, exists_or]

/-- The table knows what it has accepted, and no other names. -/
structure Keeps (symbols : Symbols) (done : List Action) : Prop where
  find?_eq_none_iff : ∀ name, symbols.find? (key name) = none ↔ ¬ Taken done name
  find?_eq_some : ∀ earlier action later, done = earlier ++ action :: later →
    ∀ name symbol, action.name? = some name → action.symbol? (values earlier).length = some symbol →
      symbols.find? (key name) = some symbol
  legal : ∀ action ∈ done, ∀ name, action.name? = some name → LegalName name
  data_eq : symbols.data = values done
  placed_le : ∀ placement, symbols.placement = some placement → placement.placed ≤ symbols.vars.size
  address?_eq : ∀ earlier name value later, done = earlier ++ .var name value :: later →
    symbols.address? (values earlier).length =
      (lastPlaced? later).map fun slotCount =>
        UInt16.ofNat (2 * slotCount + (values earlier).length)

theorem keeps_empty : empty.Keeps [] where
  find?_eq_none_iff name := by simp [empty, find?, Taken]
  find?_eq_some := by simp
  legal := by simp
  data_eq := rfl
  placed_le := nofun
  address?_eq := by simp

namespace Keeps

variable {symbols after : Symbols} {done : List Action} {action : Action}

theorem size_vars_eq (keeps : symbols.Keeps done) : symbols.vars.size = (values done).length := by
  rw [size_vars, keeps.data_eq]

theorem check_eq_ok_iff (keeps : symbols.Keeps done) (name : String) :
    symbols.check name = .ok (key name) ↔ LegalName name ∧ ¬ Taken done name := by
  rw [Symbols.check_eq_ok_iff, keeps.find?_eq_none_iff]
  exact and_iff_right rfl

theorem legal_concat (keeps : symbols.Keeps done)
    (legal : ∀ name, action.name? = some name → LegalName name) :
    ∀ declaring ∈ done ++ [action], ∀ name, declaring.name? = some name → LegalName name := by
  intro declaring member name named
  rcases List.mem_append.1 member with member | member
  · exact keeps.legal declaring member name named
  · rw [List.mem_singleton.1 member] at named
    exact legal name named

/-- The next variable lies behind all that have been placed. -/
theorem address?_next (keeps : symbols.Keeps done) :
    symbols.address? (values done).length = none := by
  rw [← keeps.size_vars_eq]
  unfold address?
  cases hplacement : symbols.placement with
  | none => rfl
  | some placement => exact if_neg (Nat.not_lt.2 (keeps.placed_le placement hplacement))

/-- Placing the variables gives all of them an address, and declares nothing. -/
theorem place (keeps : symbols.Keeps done) (slotCount : Nat) :
    (symbols.place slotCount).Keeps (done ++ [.place slotCount]) where
  find?_eq_none_iff name := by
    have none : ¬ ∃ other, (Action.place slotCount).name? = some other ∧ SameName name other :=
      nofun
    rw [taken_concat_iff, or_iff_left none]
    exact keeps.find?_eq_none_iff name
  find?_eq_some earlier action later split name symbol named kept := by
    rcases (Program.eq_concat_iff _ _ _ _ _).1 split with ⟨-, rfl, -⟩ | ⟨rest, -, split⟩
    · cases named
    · exact keeps.find?_eq_some earlier action rest split name symbol named kept
  legal := keeps.legal_concat nofun
  data_eq := by
    rw [values_append]
    exact keeps.data_eq.trans (List.append_nil _).symm
  placed_le placement hplacement := by
    cases hplacement
    exact Nat.le_refl _
  address?_eq earlier name value later split := by
    rcases (Program.eq_concat_iff _ _ _ _ _).1 split with ⟨-, absurd, -⟩ | ⟨rest, rfl, before⟩
    · cases absurd
    · have hplaced : (values earlier).length < symbols.vars.size := by
        rw [keeps.size_vars_eq, before]
        simp [values, Action.byte?]
      rw [lastPlaced?_concat]
      simp [address?, Symbols.place, hplaced, Action.slotCount?]

/-- A declaration that is accepted adds its entry and leaves the others alone. -/
theorem declare (keeps : symbols.Keeps done) {name : String} {symbol : Symbol}
    (named : action.name? = some name) (kept : action.symbol? symbols.vars.size = some symbol)
    (checked : symbols.check name = .ok (key name))
    (entries_eq : after.entries = (key name, symbol) :: symbols.entries)
    (data_eq : after.data = symbols.data ++ action.byte?.toList)
    (placement_eq : after.placement = symbols.placement) : after.Keeps (done ++ [action]) where
  find?_eq_none_iff other := by
    rw [find?_of_entries_eq entries_eq, taken_concat_iff, not_or, ← keeps.find?_eq_none_iff]
    by_cases same : key other = key name
    · have : SameName other name := (key_eq_key_iff _ _).1 same
      simp [same, named, this]
    · have : ¬ SameName other name := fun h => same ((key_eq_key_iff _ _).2 h)
      simp [same, named, this]
  find?_eq_some earlier declaring later split other found declares kept' := by
    rw [find?_of_entries_eq entries_eq]
    rcases (Program.eq_concat_iff _ _ _ _ _).1 split with ⟨rfl, rfl, -⟩ | ⟨rest, -, split⟩
    · rw [named] at declares
      cases declares
      rw [← keeps.size_vars_eq, kept] at kept'
      simp [Option.some.inj kept']
    · have known := keeps.find?_eq_some earlier declaring rest split other found declares kept'
      have fresh := ((Symbols.check_eq_ok_iff _ _ _).1 checked).2.2
      have different : key other ≠ key name := by
        intro same
        rw [same, fresh] at known
        cases known
      simp [different, known]
  legal := keeps.legal_concat fun other declares => by
    rw [named] at declares
    cases declares
    exact ((keeps.check_eq_ok_iff name).1 checked).1
  data_eq := by
    rw [data_eq, keeps.data_eq, values_append]
    cases hbyte : action.byte? <;> simp [values, hbyte]
  placed_le placement hplacement := by
    have hle := keeps.placed_le placement (placement_eq ▸ hplacement)
    rw [size_vars] at hle ⊢
    rw [data_eq, List.length_append]
    omega
  address?_eq earlier other value later split := by
    have same (ordinal : Nat) : after.address? ordinal = symbols.address? ordinal := by
      unfold address?
      rw [placement_eq]
    have silent : action.slotCount? = none := by
      cases action with
      | place slotCount => cases named
      | _ => rfl
    rw [same]
    rcases (Program.eq_concat_iff _ _ _ _ _).1 split with ⟨rfl, rfl, rfl⟩ | ⟨rest, rfl, before⟩
    · exact keeps.address?_next
    · rw [lastPlaced?_concat, silent]
      exact keeps.address?_eq earlier other value rest before

theorem act (keeps : symbols.Keeps done) (hact : symbols.act action = .ok after) :
    after.Keeps (done ++ [action]) := by
  rcases act_cases hact with
    ⟨slotCount, rfl, rfl⟩ | ⟨name, symbol, named, kept, -, checked, entries, data, placement⟩
  · exact keeps.place slotCount
  · exact keeps.declare named kept checked entries data placement

theorem exists_act_eq_ok_iff (keeps : symbols.Keeps done) (action : Action) :
    (∃ after, symbols.act action = .ok after) ↔ action.Acceptable done := by
  constructor
  · rintro ⟨after, hact⟩
    rcases act_cases hact with ⟨slotCount, rfl, -⟩ | ⟨name, -, named, -, range, checked, -⟩
    · exact ⟨trivial, nofun, nofun⟩
    · obtain ⟨legal, free⟩ := (keeps.check_eq_ok_iff name).1 checked
      refine ⟨range, fun other declares => ?_, fun other declares => ?_⟩
      · rw [named] at declares
        cases declares
        exact legal
      · rw [named] at declares
        cases declares
        exact free
  · rintro ⟨range, legal, free⟩
    exact exists_act_eq_ok range fun name named =>
      (keeps.check_eq_ok_iff name).2 ⟨legal name named, free name named⟩

theorem foldl_behind (keeps : symbols.Keeps done) (actions : List Action) :
    (actions.foldl behind symbols).Keeps (done ++ symbols.accepted actions) := by
  induction actions generalizing symbols done with
  | nil => rwa [accepted, List.append_nil]
  | cons action actions ih =>
      rw [List.foldl_cons, behind, accepted]
      cases hact : symbols.act action with
      | ok after =>
          rw [List.append_cons]
          exact ih (keeps.act hact)
      | error e => exact ih keeps

/-- Every spelling of a name that has been accepted means what was declared under it. -/
theorem lookup_eq (keeps : symbols.Keeps done) {earlier later : List Action}
    (split : done = earlier ++ action :: later) {name other : String} {symbol : Symbol}
    (named : action.name? = some other) (same : SameName name other)
    (kept : action.symbol? (values earlier).length = some symbol) :
    symbols.lookup name = some (symbols.meaning symbol) := by
  have member : action ∈ done := by simp [split]
  have free : builtin? (key name) = none := by
    rw [← Option.not_isSome_iff_eq_none, isSome_builtin?_key]
    intro ⟨number, builtin⟩
    exact (keeps.legal action member other named).not_builtin number
      (builtin.of_sameName same.symm)
  refine lookup_of_find? free ?_
  rw [(key_eq_key_iff name other).2 same]
  exact keeps.find?_eq_some earlier action later split other symbol named kept

end Keeps

/--
A table keeps what it has accepted. Behind any actions on an empty table, an action is accepted
exactly if its number is in range and its name is legal and not taken by an action accepted before;
one that is refused changes no name and no number of variables; and what has been accepted stays
so. Builtin names stand for their numbers. Under every spelling a label and a definition are
resolved to their numbers, and a variable to its address behind the slots of the last placement
after it, by the number of variables before it, or not at all if there is no such placement. The
data are the bytes of all variables in the order in which they were accepted.
-/
theorem keeps_declarations (actions : List Action) :
    let symbols := actions.foldl behind empty
    let done := empty.accepted actions
    (∀ action, (∃ after, symbols.act action = .ok after) ↔ action.Acceptable done) ∧
      (∀ action e, symbols.act action = .error e →
        (symbols.behind action).vars.size = symbols.vars.size ∧ ∀ name,
          (symbols.behind action).lookup name = symbols.lookup name ∧
            (symbols.behind action).resolve name = symbols.resolve name) ∧
      (∀ more, empty.accepted (actions ++ more) = done ++ symbols.accepted more) ∧
      (∀ name number, Builtin name number → symbols.resolve name = .ok number) ∧
      (∀ earlier other index later, done = earlier ++ .label other index :: later →
        ∀ name, SameName name other → symbols.resolve name = .ok index.toNat) ∧
      (∀ earlier other value later, done = earlier ++ .definition other value :: later →
        ∀ name, SameName name other → symbols.resolve name = .ok value) ∧
      (∀ earlier other value later, done = earlier ++ .var other value :: later →
        ∀ name, SameName name other → symbols.resolve name =
          match lastPlaced? later with
          | some slotCount => .ok ((2 * slotCount + (values earlier).length) % 65536 : Nat)
          | none => .error (.unplaced name)) ∧
      symbols.data = values done ∧ symbols.vars.size = (values done).length := by
  intro symbols done
  have keeps : symbols.Keeps done := keeps_empty.foldl_behind actions
  refine ⟨keeps.exists_act_eq_ok_iff, ?_, accepted_append empty actions, ?_, ?_, ?_, ?_,
    keeps.data_eq, keeps.size_vars_eq⟩
  · intro action e refused
    have unchanged : symbols.behind action = symbols := by rw [behind, refused]
    rw [unchanged]
    exact ⟨rfl, fun name => ⟨rfl, rfl⟩⟩
  · exact fun name number builtin => symbols.resolve_of_builtin builtin
  · intro earlier other index later split name same
    rw [resolve, keeps.lookup_eq split rfl same rfl]
    rfl
  · intro earlier other value later split name same
    rw [resolve, keeps.lookup_eq split rfl same rfl]
    rfl
  · intro earlier other value later split name same
    rw [resolve, keeps.lookup_eq split rfl same rfl]
    simp only [meaning, keeps.address?_eq earlier other value later split]
    cases lastPlaced? later with
    | none => rfl
    | some slotCount => simp only [Option.map_some, UInt16.toNat_ofNat']

end Symbols

end Redstone

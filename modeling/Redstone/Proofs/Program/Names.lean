import Redstone.Proofs.Program.Statement

/-!
# Names and the symbol table

A symbol table tracks a program when looking up a key finds exactly what the
lines of the program declare. A name is accepted exactly when it is legal and
fresh, declaring it goes on tracking, and after the variables have been placed
the table resolves every name to the number that it stands for.
-/

namespace Redstone

/-! ## Keys and builtin names -/

theorem Symbols.key_eq_key_iff (a b : String) : key a = key b ↔ SameName a b := by
  rw [key, key, String.ofList_inj]
  rfl

theorem SameName.symm {a b : String} (h : SameName a b) : SameName b a :=
  Eq.symm h

theorem Builtin.of_sameName {a b : String} {number : Nat} (same : SameName a b)
    (h : Builtin b number) : Builtin a number := by
  obtain ⟨small, kind, member, spelt⟩ := h
  exact ⟨small, kind, member, Eq.trans same spelt⟩

theorem builtin_iff (name : String) (number : Nat) :
    Builtin name number ↔ number ≤ 7 ∧ ∃ kind ∈ ['r', 'p'],
      (Symbols.key name).toList = [kind, Nat.digitChar number] := by
  have lower : ∀ digit ≤ 7, (Nat.digitChar digit).toLower = Nat.digitChar digit := by decide
  unfold Builtin SameName Symbols.key
  constructor
  · intro ⟨small, kind, member, spelt⟩
    refine ⟨small, kind, member, ?_⟩
    rcases List.mem_pair.1 member with rfl | rfl <;> simpa [lower number small] using spelt
  · intro ⟨small, kind, member, spelt⟩
    refine ⟨small, kind, member, ?_⟩
    rcases List.mem_pair.1 member with rfl | rfl <;> simpa [lower number small] using spelt

namespace Symbols

theorem builtin?_key_eq_some_iff (name : String) (number : UInt16) :
    builtin? (key name) = some number ↔ Builtin name number.toNat := by
  have digit (c : Char) (h : '0' ≤ c ∧ c ≤ '7') :
      c.toNat - '0'.toNat ≤ 7 ∧ Nat.digitChar (c.toNat - '0'.toNat) = c := by
    have low : 48 ≤ c.toNat := h.1
    have high : c.toNat ≤ 55 := h.2
    have small : c.toNat - 48 ≤ 7 := by omega
    refine ⟨small, Char.toNat_inj.1 ?_⟩
    rw [show '0'.toNat = 48 from rfl, Nat.toNat_digitChar_of_lt_ten (by omega)]
    omega
  rw [builtin_iff]
  constructor
  · intro h
    unfold builtin? at h
    split at h
    · next kind c spelt =>
        split at h
        · next shape =>
            obtain ⟨small, char_eq⟩ := digit c shape.2
            have value : number.toNat = c.toNat - '0'.toNat := by
              rw [← Option.some.inj h, UInt16.toNat_ofNat']
              omega
            rw [value, char_eq]
            exact ⟨small, kind, by simpa using shape.1, spelt⟩
        · simp at h
    · simp at h
  · intro ⟨small, kind, member, spelt⟩
    have range : ∀ n ≤ 7, ('0' ≤ Nat.digitChar n ∧ Nat.digitChar n ≤ '7') ∧
        (Nat.digitChar n).toNat - '0'.toNat = n := by decide
    obtain ⟨shape, value⟩ := range number.toNat small
    have kinds : kind = 'r' ∨ kind = 'p' := by simpa using member
    simp only [builtin?, spelt, kinds, shape, and_self, if_true, value, UInt16.ofNat_toNat]

theorem isSome_builtin?_key (name : String) :
    (builtin? (key name)).isSome = true ↔ ∃ number, Builtin name number := by
  rw [Option.isSome_iff_exists]
  constructor
  · intro ⟨number, h⟩
    exact ⟨number.toNat, (builtin?_key_eq_some_iff _ _).1 h⟩
  · intro ⟨number, h⟩
    refine ⟨UInt16.ofNat number, (builtin?_key_eq_some_iff _ _).2 ?_⟩
    have small := h.1
    rwa [UInt16.toNat_ofNat', Nat.mod_eq_of_lt (by omega)]

theorem isNumeric_eq_false_iff {name : String} (nonempty : name.toList ≠ []) :
    Literal.isNumeric name = false ↔ ∃ c ∈ name.toList, c.isDigit = false := by
  simp [Literal.isNumeric, nonempty]

theorem isSome_character?_iff (name : String) :
    (Literal.character? name).isSome = true ↔
      ∃ c : Char, 0x20 ≤ c.toNat ∧ c.toNat ≤ 0x7e ∧ name.toList = ['\'', c, '\''] := by
  unfold Literal.character? Literal.charCode?
  split
  · next c spelt =>
      rw [spelt]
      split
      · next printable => simpa using printable
      · next unprintable =>
          simp only [Option.isSome_none, Bool.false_eq_true, false_iff]
          intro ⟨d, low, high, same⟩
          cases same
          exact unprintable ⟨low, high⟩
  · next other =>
      simp only [Option.isSome_none, Bool.false_eq_true, false_iff]
      intro h
      obtain ⟨c, -, -, spelt⟩ := h
      exact other c spelt

/-- A name is legal if it passes the tests that are made before its key is looked up. -/
theorem legalName_iff (name : String) :
    LegalName name ↔ name.isEmpty = false ∧ Literal.isNumeric name = false ∧
      (Literal.character? name).isSome = false ∧ (builtin? (key name)).isSome = false := by
  simp only [← Bool.not_eq_true (Option.isSome _), isSome_character?_iff, isSome_builtin?_key]
  constructor
  · intro legal
    refine ⟨by simpa using legal.nonempty,
      (isNumeric_eq_false_iff legal.nonempty).2 legal.not_digits, ?_, ?_⟩
    · intro ⟨c, low, high, spelt⟩
      exact legal.not_character c low high spelt
    · intro ⟨number, builtin⟩
      exact legal.not_builtin number builtin
  · intro ⟨filled, digits, unquoted, free⟩
    have nonempty : name.toList ≠ [] := by simpa using filled
    exact
      { nonempty
        not_digits := (isNumeric_eq_false_iff nonempty).1 digits
        not_character := fun c low high spelt => unquoted ⟨c, low, high, spelt⟩
        not_builtin := fun number builtin => free ⟨number, builtin⟩ }

/-- A name may be declared when it is legal and its key has no entry yet. -/
theorem check_eq_ok_iff (symbols : Symbols) (name found : String) :
    symbols.check name = .ok found ↔
      found = key name ∧ LegalName name ∧ symbols.find? (key name) = none := by
  rw [legalName_iff, ← Option.not_isSome_iff_eq_none, check]
  split_ifs with empty numeric quoted reserved declared
  · simp [empty]
  · simp [numeric]
  · simp [quoted]
  · simp [reserved]
  · simp [declared]
  · simp [empty, numeric, quoted, reserved, declared, eq_comm]

end Symbols

/-! ## Tables that track a program -/

namespace Line

/-- The entry that a line adds to the table behind the lines `before`. -/
def binding? (before : Program) : Line → Option (String × Symbol)
  | label name => some (Symbols.key name, .label (Session.labelIndex before.slotCount))
  | var name value =>
      some (Symbols.key name, .var (UInt8.ofNat value.toNat) before.varCount)
  | definition name value => some (Symbols.key name, .definition value)
  | blank | instruction .. => none

theorem name?_of_binding? {before : Program} {line : Line} {key : String} {symbol : Symbol}
    (h : line.binding? before = some (key, symbol)) :
    ∃ name, line.name? = some name ∧ key = Symbols.key name := by
  cases line <;> simp_all [binding?, name?]

theorem binding?_of_name? {line : Line} {name : String} (before : Program)
    (h : line.name? = some name) :
    ∃ symbol, line.binding? before = some (Symbols.key name, symbol) := by
  cases line <;> simp_all [binding?, name?]

end Line

namespace Program

def Declares (program : Program) (key : String) (symbol : Symbol) : Prop :=
  ∃ before line after, program = before ++ line :: after ∧
    line.binding? before = some (key, symbol)

theorem eq_concat_iff {α : Type} (program before after : List α) (last line : α) :
    program ++ [last] = before ++ line :: after ↔
      (before = program ∧ line = last ∧ after = []) ∨
        ∃ rest, after = rest ++ [last] ∧ program = before ++ line :: rest := by
  rcases List.eq_nil_or_concat' after with rfl | ⟨rest, final, rfl⟩
  · constructor
    · intro h
      obtain ⟨same, line_eq⟩ := List.append_inj' h rfl
      exact .inl ⟨same.symm, by simpa using line_eq.symm, rfl⟩
    · intro h
      rcases h with ⟨rfl, rfl, -⟩ | ⟨rest, absurd, -⟩
      · rfl
      · simp at absurd
  · constructor
    · intro h
      rw [← List.cons_append, ← List.append_assoc] at h
      obtain ⟨same, line_eq⟩ := List.append_inj' h rfl
      exact .inr ⟨rest, by simpa using line_eq.symm, same⟩
    · intro h
      rcases h with ⟨-, -, absurd⟩ | ⟨rest', rest_eq, rfl⟩
      · simp at absurd
      · rw [rest_eq]
        simp

theorem declares_concat_iff (program : Program) (line : Line) (key : String)
    (symbol : Symbol) :
    Declares (program ++ [line]) key symbol ↔
      Declares program key symbol ∨ line.binding? program = some (key, symbol) := by
  constructor
  · intro ⟨before, declaring, after, split, entry⟩
    rcases (eq_concat_iff program before after line declaring).1 split with
      ⟨rfl, rfl, -⟩ | ⟨rest, -, split⟩
    · exact .inr entry
    · exact .inl ⟨before, declaring, rest, split, entry⟩
  · intro h
    rcases h with ⟨before, declaring, after, rfl, entry⟩ | entry
    · exact ⟨before, declaring, after ++ [line], by simp, entry⟩
    · exact ⟨program, line, [], rfl, entry⟩

/-- A key has an entry exactly when a line declares a name with that key. -/
theorem exists_declares_iff (program : Program) (key : String) :
    (∃ symbol, program.Declares key symbol) ↔
      ∃ line ∈ program, ∃ name, line.name? = some name ∧ key = Symbols.key name := by
  constructor
  · intro h
    obtain ⟨symbol, before, line, after, rfl, entry⟩ := h
    exact ⟨line, by simp, Line.name?_of_binding? entry⟩
  · intro h
    obtain ⟨line, member, name, named, rfl⟩ := h
    obtain ⟨before, after, rfl⟩ := List.append_of_mem member
    obtain ⟨symbol, entry⟩ := Line.binding?_of_name? before named
    exact ⟨symbol, before, line, after, rfl, entry⟩

end Program

theorem Session.labelIndex_toNat (count : Nat) :
    (Session.labelIndex count).toNat = min count 1023 := by
  rw [Session.labelIndex, UInt16.toNat_ofNat']
  omega

namespace Symbols

/-- The table holds what the lines of a program declare, and nothing else. -/
structure Tracks (symbols : Symbols) (program : Program) : Prop where
  find?_iff : ∀ key symbol, symbols.find? key = some symbol ↔ program.Declares key symbol
  data_eq : symbols.data = program.data
  legal : ∀ line ∈ program, ∀ name, line.name? = some name → LegalName name

theorem tracks_empty : empty.Tracks [] where
  find?_iff key symbol := by simp [empty, find?, Program.Declares]
  data_eq := rfl
  legal := by simp

theorem size_vars (symbols : Symbols) : symbols.vars.size = symbols.data.length := by
  simp [data]

def meaning (symbols : Symbols) : Symbol → Meaning
  | .label index => .label index
  | .var value ordinal => .var value (symbols.address? ordinal)
  | .definition value => .definition value

/-- A name that is none of the builtin ones means what is declared under its key. -/
theorem lookup_of_find? {symbols : Symbols} {name : String} {symbol : Symbol}
    (free : builtin? (key name) = none) (found : symbols.find? (key name) = some symbol) :
    symbols.lookup name = some (symbols.meaning symbol) := by
  unfold lookup
  simp only [free, found]
  cases symbol <;> rfl

/-- A builtin name stands for its number in every table. -/
theorem resolve_of_builtin (symbols : Symbols) {name : String} {number : Nat}
    (builtin : Builtin name number) : symbols.resolve name = .ok number := by
  have bound : number < 65536 := by
    have := builtin.1
    omega
  have number_eq : (UInt16.ofNat number).toNat = number := by
    rw [UInt16.toNat_ofNat', Nat.mod_eq_of_lt bound]
  have found : builtin? (key name) = some (UInt16.ofNat number) :=
    (builtin?_key_eq_some_iff _ _).2 (by rwa [number_eq])
  simp only [resolve, lookup, found, number_eq]

theorem find?_of_entries_eq {symbols after : Symbols} {key : String} {symbol : Symbol}
    (entries_eq : after.entries = (key, symbol) :: symbols.entries) (other : String) :
    after.find? other = if other == key then some symbol else symbols.find? other := by
  rw [find?, entries_eq, List.lookup_cons, find?]
  cases other == key <;> rfl

namespace Tracks

variable {symbols after : Symbols} {program : Program}

theorem size_vars_eq (tracks : symbols.Tracks program) :
    symbols.vars.size = program.varCount := by
  rw [size_vars, tracks.data_eq]
  rfl

theorem find?_eq_none_iff (tracks : symbols.Tracks program) (name : String) :
    symbols.find? (key name) = none ↔
      ∀ line ∈ program, ∀ other, line.name? = some other → ¬ SameName name other := by
  have declared := Program.exists_declares_iff program (key name)
  simp only [← tracks.find?_iff, ← Option.isSome_iff_exists, key_eq_key_iff] at declared
  rw [← Option.not_isSome_iff_eq_none, declared]
  constructor
  · intro none line member other named same
    exact none ⟨line, member, other, named, same⟩
  · intro fresh ⟨line, member, other, named, same⟩
    exact fresh line member other named same

/-- Exactly the legal and fresh names may be declared. -/
theorem check_eq_ok_iff (tracks : symbols.Tracks program) (name found : String) :
    symbols.check name = .ok found ↔ found = key name ∧ Fresh program name := by
  rw [Symbols.check_eq_ok_iff, tracks.find?_eq_none_iff]
  rfl

theorem exists_check_eq_error (tracks : symbols.Tracks program) {name : String}
    (stale : ¬ Fresh program name) : ∃ e, symbols.check name = .error e := by
  cases checked : symbols.check name with
  | error e => exact ⟨e, rfl⟩
  | ok found => exact absurd ((tracks.check_eq_ok_iff name found).1 checked).2 stale

/-- A line that declares nothing leaves the table as it is. -/
theorem concat_of_name?_eq_none (tracks : symbols.Tracks program) {line : Line}
    (silent : line.name? = none) : symbols.Tracks (program ++ [line]) := by
  have no_entry : line.binding? program = none := by
    cases line <;> simp_all [Line.name?, Line.binding?]
  have no_byte : line.byte? = none := by
    cases line <;> simp_all [Line.name?, Line.byte?]
  refine ⟨fun key symbol => ?_, ?_, ?_⟩
  · simp [Program.declares_concat_iff, no_entry, tracks.find?_iff]
  · simp [Program.data, no_byte, tracks.data_eq]
  · intro declaring member name named
    rcases List.mem_append.1 member with member | member
    · exact tracks.legal declaring member name named
    · simp_all

/-- Declaring a fresh name puts the entry of its line in front. -/
theorem concat (tracks : symbols.Tracks program) {line : Line} {name : String}
    {symbol : Symbol} (fresh : Fresh program name) (named : line.name? = some name)
    (entry : line.binding? program = some (key name, symbol))
    (entries_eq : after.entries = (key name, symbol) :: symbols.entries)
    (data_eq : after.data = symbols.data ++ line.byte?.toList) :
    after.Tracks (program ++ [line]) := by
  have unbound : symbols.find? (key name) = none := (tracks.find?_eq_none_iff name).2 fresh.2
  refine ⟨fun other found => ?_, ?_, ?_⟩
  · have looked : after.find? other =
        if other == key name then some symbol else symbols.find? other := by
      rw [find?, entries_eq, List.lookup_cons, find?]
      cases other == key name <;> rfl
    rw [looked, Program.declares_concat_iff, entry, ← tracks.find?_iff]
    by_cases same : other = key name
    · simp [same, unbound]
    · have : key name ≠ other := fun h => same h.symm
      simp [same, this]
  · rw [data_eq, tracks.data_eq]
    cases byte : line.byte? <;> simp [Program.data, byte]
  · intro declaring member other otherNamed
    rcases List.mem_append.1 member with member | member
    · exact tracks.legal declaring member other otherNamed
    · have : declaring = line := by simpa using member
      subst this
      rw [named] at otherNamed
      cases otherNamed
      exact fresh.1

/-! ## Declarations -/

theorem declareLabel (tracks : symbols.Tracks program) {name : String}
    (fresh : Fresh program name) :
    ∃ after event,
      symbols.declareLabel name (Session.labelIndex program.slotCount) = .ok (after, event) ∧
        after.Tracks (program ++ [.label name]) := by
  have checked := (tracks.check_eq_ok_iff name _).2 ⟨rfl, fresh⟩
  refine ⟨symbols.add (key name) (.label (Session.labelIndex program.slotCount)),
    .label (key name) (Session.labelIndex program.slotCount), ?_, ?_⟩
  · simp only [Symbols.declareLabel, checked]
  · exact tracks.concat fresh rfl rfl rfl (List.append_nil _).symm

theorem declareVariable (tracks : symbols.Tracks program) {name : String} {value : Int}
    (fresh : Fresh program name) (small : 0 ≤ value ∧ value ≤ 255) :
    ∃ after event, symbols.declareVariable name value = .ok (after, event) ∧
      after.Tracks (program ++ [.var name value]) := by
  have checked := (tracks.check_eq_ok_iff name _).2 ⟨rfl, fresh⟩
  have range : 0 ≤ value ∧ value < 256 := by omega
  let byte := UInt8.ofNat value.toNat
  let added := symbols.add (key name) (.var byte symbols.vars.size)
  refine ⟨{ added with vars := added.vars.push (key name, byte) }, .var (key name) byte, ?_, ?_⟩
  · simp only [Symbols.declareVariable, checked, range, and_self, if_true, added, byte]
  · refine tracks.concat fresh rfl ?_ rfl ?_
    · simp only [Line.binding?, tracks.size_vars_eq, byte]
    · simp [data, added, add, Line.byte?, byte]

theorem declareDefinition (tracks : symbols.Tracks program) {name : String} {value : Int}
    (fresh : Fresh program name) (natural : 0 ≤ value) :
    ∃ after event, symbols.declareDefinition name value = .ok (after, event) ∧
      after.Tracks (program ++ [.definition name value]) := by
  have checked := (tracks.check_eq_ok_iff name _).2 ⟨rfl, fresh⟩
  refine ⟨symbols.add (key name) (.definition value), .definition (key name) value, ?_, ?_⟩
  · simp only [Symbols.declareDefinition, checked, natural, if_true]
  · exact tracks.concat fresh rfl rfl rfl (List.append_nil _).symm

theorem exists_declareLabel_eq_error (tracks : symbols.Tracks program) {name : String}
    (index : UInt16) (stale : ¬ Fresh program name) :
    ∃ e, symbols.declareLabel name index = .error e := by
  obtain ⟨e, checked⟩ := tracks.exists_check_eq_error stale
  exact ⟨e, by simp only [Symbols.declareLabel, checked]⟩

theorem exists_declareVariable_eq_error (tracks : symbols.Tracks program) {name : String}
    {value : Int} (bad : ¬ (Fresh program name ∧ 0 ≤ value ∧ value ≤ 255)) :
    ∃ e, symbols.declareVariable name value = .error e := by
  by_cases fresh : Fresh program name
  · have checked := (tracks.check_eq_ok_iff name _).2 ⟨rfl, fresh⟩
    have range : ¬ (0 ≤ value ∧ value < 256) := fun range => bad ⟨fresh, by omega⟩
    exact ⟨.variableRange name value, by
      simp only [Symbols.declareVariable, checked, range, if_false]⟩
  · obtain ⟨e, checked⟩ := tracks.exists_check_eq_error fresh
    exact ⟨e, by simp only [Symbols.declareVariable, checked]⟩

theorem exists_declareDefinition_eq_error (tracks : symbols.Tracks program) {name : String}
    {value : Int} (bad : ¬ (Fresh program name ∧ 0 ≤ value)) :
    ∃ e, symbols.declareDefinition name value = .error e := by
  by_cases fresh : Fresh program name
  · have checked := (tracks.check_eq_ok_iff name _).2 ⟨rfl, fresh⟩
    have negative : ¬ 0 ≤ value := fun natural => bad ⟨fresh, natural⟩
    exact ⟨.definitionRange name value, by
      simp only [Symbols.declareDefinition, checked, negative, if_false]⟩
  · obtain ⟨e, checked⟩ := tracks.exists_check_eq_error fresh
    exact ⟨e, by simp only [Symbols.declareDefinition, checked]⟩

/-! ## Resolution -/

theorem builtin?_eq_none (tracks : symbols.Tracks program) {name other : String} {line : Line}
    (member : line ∈ program) (named : line.name? = some other) (same : SameName name other) :
    builtin? (key name) = none := by
  rw [← Option.not_isSome_iff_eq_none, isSome_builtin?_key]
  intro ⟨number, builtin⟩
  exact (tracks.legal line member other named).not_builtin number
    (builtin.of_sameName same.symm)

theorem varCount_lt {before after : Program} {name : String} {value : Int} :
    before.varCount < Program.varCount (before ++ .var name value :: after) := by
  simp [Program.varCount, Program.data, Line.byte?]

/-- Once the variables have been placed, the number of a variable is its address. -/
theorem address?_place (tracks : symbols.Tracks program) {ordinal : Nat}
    (placed : ordinal < program.varCount) :
    (symbols.place program.slotCount).address? ordinal =
      some (UInt16.ofNat (2 * program.slotCount + ordinal)) := by
  simp [address?, place, tracks.size_vars_eq, placed]

/-- Every spelling of a declared name means what its line puts under it. -/
theorem lookup_of_split (tracks : symbols.Tracks program) {before after : Program} {line : Line}
    {name other : String} {symbol : Symbol} (split : program = before ++ line :: after)
    (entry : line.binding? before = some (key other, symbol)) (same : SameName name other)
    (slots : Nat) :
    (symbols.place slots).lookup name = some ((symbols.place slots).meaning symbol) := by
  have keys : key name = key other := (key_eq_key_iff name other).2 same
  have found : symbols.find? (key name) = some symbol := by
    rw [tracks.find?_iff, keys]
    exact ⟨before, line, after, split, entry⟩
  have placed : (symbols.place slots).find? (key name) = some symbol := found
  have free : builtin? (key name) = none := by
    obtain ⟨declared, named, keys'⟩ := Line.name?_of_binding? entry
    have member : line ∈ program := by simp [split]
    exact tracks.builtin?_eq_none member named ((key_eq_key_iff _ _).1 (keys.trans keys'))
  exact lookup_of_find? free placed

/-- A name is resolved to the number that it comes to. -/
theorem resolve_of_means (tracks : symbols.Tracks program) {name : String} {value : Int}
    (means : Means program name value) :
    (symbols.place program.slotCount).resolve name = .ok value := by
  cases means with
  | @builtin number same => exact resolve_of_builtin _ same
  | @label before after other split same =>
      unfold Symbols.resolve
      rw [tracks.lookup_of_split split rfl same]
      simp only [meaning, Session.labelIndex_toNat]
  | @var before after other number split same =>
      have placed : Program.varCount before < program.varCount := by
        rw [split]
        exact varCount_lt
      unfold Symbols.resolve
      rw [tracks.lookup_of_split split rfl same]
      simp only [meaning, tracks.address?_place placed, UInt16.toNat_ofNat']
  | @definition before after other _ split same =>
      unfold Symbols.resolve
      rw [tracks.lookup_of_split split rfl same]
      rfl

theorem exists_means_of_resolve (tracks : symbols.Tracks program) {name : String} {value : Int}
    (h : (symbols.place program.slotCount).resolve name = .ok value) :
    ∃ number, Means program name number := by
  cases builtin : builtin? (key name) with
  | some number => exact ⟨_, .builtin ((builtin?_key_eq_some_iff name number).1 builtin)⟩
  | none =>
      cases entry : symbols.find? (key name) with
      | none =>
          have placed : (symbols.place program.slotCount).find? (key name) = none := entry
          simp [Symbols.resolve, Symbols.lookup, builtin, placed] at h
      | some symbol =>
          obtain ⟨before, line, after, split, declares⟩ := (tracks.find?_iff _ _).1 entry
          obtain ⟨other, named, keys⟩ := Line.name?_of_binding? declares
          have same := (key_eq_key_iff _ _).1 keys
          cases line with
          | blank => simp [Line.name?] at named
          | instruction opcode operands => simp [Line.name?] at named
          | label _ => cases named; exact ⟨_, .label split same⟩
          | var _ _ => cases named; exact ⟨_, .var split same⟩
          | definition _ _ => cases named; exact ⟨_, .definition split same⟩

theorem resolve_eq_ok_iff (tracks : symbols.Tracks program) (name : String) (value : Int) :
    (symbols.place program.slotCount).resolve name = .ok value ↔ Means program name value := by
  constructor
  · intro h
    obtain ⟨number, means⟩ := tracks.exists_means_of_resolve h
    have resolved := tracks.resolve_of_means means
    rw [h] at resolved
    cases resolved
    exact means
  · exact tracks.resolve_of_means

end Tracks

end Symbols

/-! ## Programs whose addresses are short -/

theorem Program.varAddress_lt {program before after : Program} {name : String} {value : Int}
    (small : program.size ≤ 65536) (split : program = before ++ .var name value :: after) :
    2 * program.slotCount + before.varCount < 65536 := by
  have placed : before.varCount < program.varCount := by
    rw [split]
    exact Symbols.Tracks.varCount_lt
  unfold Program.size at small
  omega

/-- In a program of at most 65536 bytes a name comes to what it stands for. -/
theorem means_iff_stands {program : Program} (small : program.size ≤ 65536) (name : String)
    (value : Int) : Means program name value ↔ Stands program name value := by
  constructor
  · intro means
    cases means with
    | builtin same => exact .builtin same
    | label split same => exact .label split same
    | var split same =>
        rw [Nat.mod_eq_of_lt (Program.varAddress_lt small split)]
        exact .var split same
    | definition split same => exact .definition split same
  · intro stands
    cases stands with
    | builtin same => exact .builtin same
    | label split same => exact .label split same
    | var split same =>
        rw [← Nat.mod_eq_of_lt (Program.varAddress_lt small split)]
        exact .var split same
    | definition split same => exact .definition split same

theorem yields_iff_denotes {program : Program} (small : program.size ≤ 65536) (text : String)
    (value : Int) : Yields program text value ↔ Denotes program text value := by
  constructor
  · intro yields
    cases yields with
    | literal read => exact .literal read
    | name read means => exact .name read ((means_iff_stands small _ _).1 means)
  · intro denotes
    cases denotes with
    | literal read => exact .literal read
    | name read stands => exact .name read ((means_iff_stands small _ _).2 stands)

end Redstone

import Redstone.Assembly.Literal
import Redstone.Log

/-!
# Symbols

The names of a program.  Letter case does not matter.  A label stands for the
slot of an instruction, a variable for the address of a byte behind the
program, a definition for a number.  The registers `r0` to `r7` and the ports
`p0` to `p7` have names from the start.  Variables have addresses only after
they have been placed, which needs the length of the program.
-/

namespace Redstone

inductive Symbol where
  | label (index : UInt16)
  /-- A byte, with the number of variables declared before it. -/
  | var (value : UInt8) (ordinal : Nat)
  | definition (value : Int)
  deriving DecidableEq, Repr

inductive SymbolError where
  | emptyName
  | numericName (name : String)
  | reserved (name : String)
  | duplicate (name : String)
  | undefined (name : String)
  | unplaced (name : String)
  | variableRange (name : String) (value : Int)
  | definitionRange (name : String) (value : Int)
  deriving DecidableEq, Repr

namespace SymbolError

/-- The sentence that tells what is wrong with a name, as it was written. -/
def message : SymbolError → String
  | emptyName => "alias name is empty"
  | numericName name =>
      String.join ["alias name \"", name, "\" shouldn't be digits-only"]
  | reserved name => String.join ["\"", name, "\" is a reserved name"]
  | duplicate name => String.join ["alias \"", name, "\" already defined"]
  | undefined name => String.join ["undefined alias \"", name, "\""]
  | unplaced name => String.join ["variable \"", name, "\" has no address yet"]
  | variableRange name value =>
      String.join
        ["invalid value ", toString value, " for variable \"", name,
          "\", must be 0-255"]
  | definitionRange name value =>
      String.join
        ["invalid value ", toString value, " for definition \"", name,
          "\", must not be negative"]

end SymbolError

inductive SymbolEvent where
  | label (key : String) (index : UInt16)
  | var (key : String) (value : UInt8)
  | definition (key : String) (value : Int)
  | placed (key : String) (address : UInt16)
  deriving DecidableEq, Repr

namespace SymbolEvent

def record : SymbolEvent → Log.Record
  | label key index =>
      ⟨.debug, "subroutine", [("name", key), ("index", toString index)]⟩
  | var key value =>
      ⟨.debug, "variable", [("name", key), ("value", toString value)]⟩
  | definition key value =>
      ⟨.debug, "definition", [("name", key), ("value", toString value)]⟩
  | placed key address =>
      ⟨.debug, "variable placed",
        [("name", key), ("address", toString address)]⟩

end SymbolEvent

/-- Where variables lie: behind how many slots, and how many of them. -/
structure Placement where
  slotCount : Nat
  placed : Nat
  deriving DecidableEq, Repr

structure Symbols where
  /-- Declared names in lower case, newest first. -/
  entries : List (String × Symbol)
  /-- Names and first values of the variables, in order. -/
  vars : Array (String × UInt8)
  placement : Option Placement
  deriving Repr

inductive Meaning where
  | builtin (number : UInt16)
  | label (index : UInt16)
  | var (value : UInt8) (address : Option UInt16)
  | definition (value : Int)
  deriving DecidableEq, Repr

namespace Symbols

def empty : Symbols where
  entries := []
  vars := #[]
  placement := none

/-- The spelling under which a name is kept. -/
def key (name : String) : String :=
  String.ofList (name.toList.map Char.toLower)

def builtin? (key : String) : Option UInt16 :=
  match key.toList with
  | [kind, digit] =>
      if (kind = 'r' ∨ kind = 'p') ∧ '0' ≤ digit ∧ digit ≤ '7' then
        some (UInt16.ofNat (digit.toNat - '0'.toNat))
      else none
  | _ => none

def find? (symbols : Symbols) (key : String) : Option Symbol :=
  symbols.entries.lookup key

/-- The key of a name that may be declared. -/
def check (symbols : Symbols) (name : String) : Except SymbolError String :=
  if name.isEmpty then .error .emptyName
  else if Literal.isNumeric name then .error (.numericName name)
  else if (Literal.character? name).isSome then .error (.reserved name)
  else if (builtin? (key name)).isSome then .error (.reserved name)
  else if (symbols.find? (key name)).isSome then .error (.duplicate name)
  else .ok (key name)

def add (symbols : Symbols) (key : String) (symbol : Symbol) : Symbols :=
  { symbols with entries := (key, symbol) :: symbols.entries }

def declareLabel (symbols : Symbols) (name : String) (index : UInt16) :
    Except SymbolError (Symbols × SymbolEvent) :=
  match symbols.check name with
  | .error e => .error e
  | .ok key => .ok (symbols.add key (.label index), .label key index)

/-- Declares a variable with its first value, which must be a byte. -/
def declareVariable (symbols : Symbols) (name : String) (value : Int) :
    Except SymbolError (Symbols × SymbolEvent) :=
  match symbols.check name with
  | .error e => .error e
  | .ok key =>
      if 0 ≤ value ∧ value < 256 then
        let byte := UInt8.ofNat value.toNat
        let ordinal := symbols.vars.size
        let added := symbols.add key (.var byte ordinal)
        .ok ({ added with vars := added.vars.push (key, byte) },
          .var key byte)
      else .error (.variableRange name value)

def declareDefinition (symbols : Symbols) (name : String) (value : Int) :
    Except SymbolError (Symbols × SymbolEvent) :=
  match symbols.check name with
  | .error e => .error e
  | .ok key =>
      if 0 ≤ value then
        .ok (symbols.add key (.definition value), .definition key value)
      else .error (.definitionRange name value)

def place (symbols : Symbols) (slotCount : Nat) : Symbols :=
  { symbols with placement := some ⟨slotCount, symbols.vars.size⟩ }

/-- The address of a variable, by the number of variables before it. -/
def address? (symbols : Symbols) (ordinal : Nat) : Option UInt16 :=
  match symbols.placement with
  | some ⟨slotCount, placed⟩ =>
      if ordinal < placed then some (UInt16.ofNat (2 * slotCount + ordinal))
      else none
  | none => none

def data (symbols : Symbols) : List UInt8 :=
  symbols.vars.toList.map (·.2)

/-- What placing the variables behind a number of slots reports. -/
def placementEvents (symbols : Symbols) (slotCount : Nat) : List SymbolEvent :=
  symbols.vars.toList.mapIdx fun ordinal entry =>
    .placed entry.1 (UInt16.ofNat (2 * slotCount + ordinal))

def lookup (symbols : Symbols) (name : String) : Option Meaning :=
  match builtin? (key name) with
  | some number => some (.builtin number)
  | none =>
      match symbols.find? (key name) with
      | some (.label index) => some (.label index)
      | some (.var value ordinal) =>
          some (.var value (symbols.address? ordinal))
      | some (.definition value) => some (.definition value)
      | none => none

def resolve (symbols : Symbols) (name : String) : Except SymbolError Int :=
  match symbols.lookup name with
  | some (.builtin number) => .ok number.toNat
  | some (.label index) => .ok index.toNat
  | some (.definition value) => .ok value
  | some (.var _ (some address)) => .ok address.toNat
  | some (.var _ none) => .error (.unplaced name)
  | none => .error (.undefined name)

end Symbols

end Redstone

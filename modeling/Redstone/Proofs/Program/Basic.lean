import Redstone.Assembly.Program
import Redstone.Proofs.Instruction.Codec

/-!
# What a source says

A source is read as a program, one line after the other. The definitions below
say which lines there are, what a name stands for, which lines are valid and
which bytes a program becomes. They know no passes, counters or symbol tables:
a name is looked up by the line that declares it, and every count is a count of
lines of the program.
-/

namespace Redstone

inductive Line where
  | blank
  | label (name : String)
  | var (name : String) (value : Int)
  | definition (name : String) (value : Int)
  /-- The operands are kept as they are written. -/
  | instruction (opcode : Opcode) (operands : List String)
  deriving DecidableEq, Repr

abbrev Program := List Line

/-- Names that differ at most in the case of ASCII letters. -/
def SameName (a b : String) : Prop :=
  a.toList.map Char.toLower = b.toList.map Char.toLower

/-- The names `r0` to `r7` and `p0` to `p7` stand for the numbers 0 to 7. -/
def Builtin (name : String) (number : Nat) : Prop :=
  number ≤ 7 ∧ ∃ kind ∈ ['r', 'p'],
    SameName name (String.ofList [kind, Nat.digitChar number])

structure LegalName (name : String) : Prop where
  nonempty : name.toList ≠ []
  not_digits : ∃ c ∈ name.toList, c.isDigit = false
  not_character : ∀ c : Char, 0x20 ≤ c.toNat → c.toNat ≤ 0x7e →
    name.toList ≠ ['\'', c, '\'']
  not_builtin : ∀ number, ¬ Builtin name number

namespace Opcode

/-- How many operands an instruction may be written with. -/
def Takes (opcode : Opcode) (count : Nat) : Prop :=
  count = opcode.format.operandCount ∨ opcode = .rsh ∧ count = 2 ∨
    opcode = .pas ∧ count = 1

/-- The operands of an instruction with the zero that a short form leaves out. -/
def expand : Opcode → List String → List String
  | .rsh, [a, c] => [a, "0", c]
  | .pas, [b] => ["0", b]
  | _, operands => operands

end Opcode

/-- What the tokens of a line say; tokens that say nothing are an error. -/
inductive Spells : List String → Line → Prop where
  | blank : Spells [] .blank
  | label {token name : String} (colons : Nat)
      (spelt : token.toList = name.toList ++ List.replicate (colons + 1) ':')
      (bare : name.toList.getLast? ≠ some ':') : Spells [token] (.label name)
  | var {first name literal : String} {value : Int}
      (spelt : first.toList = '.' :: name.toList)
      (number : Operand.ofText literal = .ok (.literal value)) :
      Spells [first, literal] (.var name value)
  | definition {first name literal : String} {value : Int}
      (spelt : first.toList = '#' :: name.toList)
      (number : Operand.ofText literal = .ok (.literal value)) :
      Spells [first, literal] (.definition name value)
  | instruction {first : String} {operands : List String} {opcode : Opcode}
      (spelt : first.toList.map Char.toUpper = opcode.mnemonic.toList)
      (unmarked : (operands.getLastD first).toList.getLast? ≠ some ':')
      (count : opcode.Takes operands.length) :
      Spells (first :: operands) (.instruction opcode operands)

/-- Every line of a source says the corresponding line of a program. -/
def Reads (source : String) (program : Program) : Prop :=
  List.Forall₂ (fun text line => Spells ((Token.ofLine text).map Token.text) line)
    (Text.lines source) program

namespace Line

def name? : Line → Option String
  | label name | var name _ | definition name _ => some name
  | blank | instruction .. => none

def instruction? : Line → Option (Opcode × List String)
  | instruction opcode operands => some (opcode, operands)
  | blank | label _ | var .. | definition .. => none

def byte? : Line → Option UInt8
  | var _ value => some (UInt8.ofNat value.toNat)
  | blank | label _ | definition .. | instruction .. => none

end Line

namespace Program

def instructions (program : Program) : List (Opcode × List String) :=
  program.filterMap Line.instruction?

def data (program : Program) : List UInt8 :=
  program.filterMap Line.byte?

def slotCount (program : Program) : Nat :=
  program.instructions.length

theorem instructions_append (before after : Program) :
    instructions (before ++ after) = before.instructions ++ instructions after :=
  List.filterMap_append

theorem slotCount_append (before after : Program) :
    slotCount (before ++ after) = before.slotCount + slotCount after := by
  unfold slotCount
  rw [instructions_append, List.length_append]

def varCount (program : Program) : Nat :=
  program.data.length

/-- The bytes that a program takes: two for an instruction, one for a variable. -/
def size (program : Program) : Nat :=
  2 * program.slotCount + program.varCount

end Program

/--
The number that a name stands for. A label stands for the number of
instructions in front of it, but for no slot beyond the last one; a variable for
its address behind the instructions.
-/
inductive Stands (program : Program) (name : String) : Int → Prop where
  | builtin {number : Nat} (same : Builtin name number) : Stands program name number
  | label {before after : Program} {other : String}
      (split : program = before ++ .label other :: after)
      (same : SameName name other) :
      Stands program name (min before.slotCount 1023 : Nat)
  | var {before after : Program} {other : String} {value : Int}
      (split : program = before ++ .var other value :: after)
      (same : SameName name other) :
      Stands program name (2 * program.slotCount + before.varCount : Nat)
  | definition {before after : Program} {other : String} {value : Int}
      (split : program = before ++ .definition other value :: after)
      (same : SameName name other) : Stands program name value

/-- The number that an operand stands for: a literal for itself, else a name. -/
inductive Denotes (program : Program) (text : String) : Int → Prop where
  | literal {value : Int} (read : Operand.ofText text = .ok (.literal value)) :
      Denotes program text value
  | name {name : String} {value : Int} (read : Operand.ofText text = .ok (.alias name))
      (stands : Stands program name value) : Denotes program text value

/--
The number that a name comes to when the program is put together: what it stands for, except that
an address has sixteen bits.
-/
inductive Means (program : Program) (name : String) : Int → Prop where
  | builtin {number : Nat} (same : Builtin name number) : Means program name number
  | label {before after : Program} {other : String}
      (split : program = before ++ .label other :: after)
      (same : SameName name other) :
      Means program name (min before.slotCount 1023 : Nat)
  | var {before after : Program} {other : String} {value : Int}
      (split : program = before ++ .var other value :: after)
      (same : SameName name other) :
      Means program name ((2 * program.slotCount + before.varCount) % 65536 : Nat)
  | definition {before after : Program} {other : String} {value : Int}
      (split : program = before ++ .definition other value :: after)
      (same : SameName name other) : Means program name value

inductive Yields (program : Program) (text : String) : Int → Prop where
  | literal {value : Int} (read : Operand.ofText text = .ok (.literal value)) :
      Yields program text value
  | name {name : String} {value : Int} (read : Operand.ofText text = .ok (.alias name))
      (means : Means program name value) : Yields program text value

/-- A legal name that no line of `before` declares. -/
def Fresh (before : Program) (name : String) : Prop :=
  LegalName name ∧ ∀ line ∈ before, ∀ other, line.name? = some other → ¬ SameName name other

/-- What a line demands of its name and its number behind the lines `before`. -/
def Line.Declarable (before : Program) : Line → Prop
  | .blank | .instruction .. => True
  | .label name => Fresh before name
  | .var name value => Fresh before name ∧ 0 ≤ value ∧ value ≤ 255
  | .definition name value => Fresh before name ∧ 0 ≤ value

def OperandsFit (program : Program) (opcode : Opcode) (operands : List String) : Prop :=
  List.Forall₂
    (fun field text => ∃ value : Nat, Denotes program text value ∧ value ≤ field.max)
    opcode.fields (opcode.expand operands)

/-- Validity of a line of a program that stands behind the lines `before`. -/
def Line.ValidIn (program before : Program) : Line → Prop
  | .instruction opcode operands => OperandsFit program opcode operands
  | line => line.Declarable before

namespace Program

/-- Every line is valid behind the lines in front of it. -/
def Valid (program : Program) : Prop :=
  ∀ before line after, program = before ++ line :: after → line.ValidIn program before

end Program

/-- The operands of an instruction as numbers, each of which fits its field. -/
structure Resolves (program : Program) (opcode : Opcode) (operands : List String)
    (values : List UInt16) : Prop where
  denote : List.Forall₂ (fun text (value : UInt16) => Denotes program text value.toNat)
    (opcode.expand operands) values
  fit : FitFields opcode.fields values

namespace Program

/-- The word that an instruction is packed into with the values of its operands. -/
def HasWord (program : Program) (instruction : Opcode × List String) (word : UInt16) : Prop :=
  ∃ values, Resolves program instruction.1 instruction.2 values ∧
    word = Word.pack instruction.1 (values.map UInt16.toNat)

/-- The bytes of a program: its words, low byte first, and a byte for every variable. -/
def Encodes (program : Program) (bytes : List UInt8) : Prop :=
  ∃ words, List.Forall₂ program.HasWord program.instructions words ∧
    bytes = words.flatMap Word.toBytes ++ program.data

end Program

theorem exists_of_map_toOption {ε α β : Type} {x : Except ε α} {f : α → β} {b : β}
    (h : x.toOption.map f = some b) : ∃ a, x = .ok a ∧ f a = b := by
  cases x with
  | error e => cases h
  | ok a => exact ⟨a, rfl, Option.some.inj h⟩

end Redstone

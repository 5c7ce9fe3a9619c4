import Redstone.Assembly.Symbols
import Redstone.Assembly.Token
import Redstone.Instruction.Format

/-!
# Diagnostics

What is wrong with a source line, as a cause rather than as a sentence, and
where in the line it is wrong.
-/

namespace Redstone

inductive Problem where
  /-- A declaration with too few or too many tokens. -/
  | declarationSize
  | badLiteral (literal name : String)
  | symbol (error : SymbolError)
  | unknownMnemonic (text : String)
  | operandCount (opcode : Opcode) (found : Nat)
  | negativeOperand (value : Int)
  | operandOverflow (value : Int) (field : Field)
  /-- No mistake of the user's: the program stops where it reads the line. -/
  | overflow (cause : Overflow)
  deriving DecidableEq, Repr

namespace Problem

def message : Problem → String
  | declarationSize => "Invalid number of tokens in alias definition!"
  | badLiteral literal name =>
      String.join
        ["Invalid numeric literal \"", literal, "\" when defining \"", name,
          "\"!"]
  | symbol error => error.message
  | unknownMnemonic text => String.join ["No opcode found for \"", text, "\"!"]
  | operandCount opcode found =>
      let expected := opcode.fields.length
      String.join
        ["Wrong number of operands for ", opcode.mnemonic, "! Should be ",
          toString expected, ", found ", toString found, "."]
  | negativeOperand value =>
      String.join ["Operand ", toString value, " must not be negative!"]
  | operandOverflow value field =>
      String.join
        ["Operand ", toString value, " overflows its ", toString field.width,
          "-bit field (max ", toString field.max, ")!"]
  | overflow cause => cause.message

def overflow? : Problem → Option Overflow
  | overflow cause => some cause
  | _ => none

end Problem

/-- A problem and the bytes of its line that it is about. -/
structure Mistake where
  problem : Problem
  span : Span
  deriving DecidableEq, Repr

/-- A mistake with the line in which it was made. -/
structure Diagnostic where
  /-- The number of the line, counted from 1. -/
  line : Nat
  text : String
  mistake : Mistake
  deriving DecidableEq, Repr

namespace Diagnostic

def message (diagnostic : Diagnostic) : String :=
  diagnostic.mistake.problem.message

def overflow? (diagnostic : Diagnostic) : Option Overflow :=
  diagnostic.mistake.problem.overflow?

def display (diagnostic : Diagnostic) : String :=
  String.join ["line ", toString diagnostic.line, ": ", diagnostic.message]

/-- Diagnostics in the order of their lines, those of one line as they come. -/
def sorted (diagnostics : List Diagnostic) : List Diagnostic :=
  diagnostics.mergeSort fun a b => a.line ≤ b.line

end Diagnostic

end Redstone

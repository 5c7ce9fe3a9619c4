import Redstone.Assembly.Diagnostic

/-!
# Statements

What a line says, read from its tokens alone.  Whether its names may be
declared, and what its operands stand for, is decided where the names are
known.
-/

namespace Redstone

/-- The two declarations that give a name a number. -/
inductive DeclarationKind where
  | var | definition
  deriving DecidableEq, Repr

inductive Statement where
  | blank
  | label (name : String) (token : Token)
  | declaration (kind : DeclarationKind) (name : String) (value : Int)
      (nameToken valueToken : Token)
  | instruction (opcode : Opcode)
  deriving DecidableEq, Repr

namespace Statement

/-- The bytes from the start of a first token to the end of the last one. -/
def wholeSpan (first : Token) (rest : List Token) : Span :=
  let last := rest.getLastD first
  ⟨first.column, last.column + last.text.utf8ByteSize - first.column⟩

/-- A name without the colons at its end. -/
def labelName (text : String) : String :=
  String.ofList (text.toList.reverse.dropWhile (· == ':')).reverse

/-- The declaration that a mark at the start of a line announces. -/
def declarationMark? (first : Token) : Option (DeclarationKind × String) :=
  match first.text.toList with
  | '.' :: name => some (.var, String.ofList name)
  | '#' :: name => some (.definition, String.ofList name)
  | _ => none

def ofDeclaration (kind : DeclarationKind) (name : String) (first : Token)
    (rest : List Token) : Except Mistake Statement :=
  match rest with
  | [literal] =>
      match Operand.ofText literal.text with
      | .ok (.literal value) => .ok (.declaration kind name value first literal)
      | .ok (.alias text) => .error ⟨.badLiteral text name, literal.span⟩
      | .error cause => .error ⟨.overflow cause, literal.span⟩
  | _ => .error ⟨.declarationSize, wholeSpan first rest⟩

/--
Whether an instruction may be written with a number of operands.  `RSH` may
leave out its second operand and `PAS` its first.
-/
def allows (opcode : Opcode) (count : Nat) : Bool :=
  match opcode with
  | .rsh => count == 2 || count == 3
  | .pas => count == 1 || count == 2
  | _ => count == opcode.fields.length

def ofInstruction (first : Token) (rest : List Token) :
    Except Mistake Statement :=
  match Opcode.ofMnemonic? first.text with
  | none => .error ⟨.unknownMnemonic first.text, first.span⟩
  | some opcode =>
      if allows opcode rest.length then .ok (.instruction opcode)
      else .error ⟨.operandCount opcode rest.length, wholeSpan first rest⟩

def ofTokens : List Token → Except Mistake Statement
  | [] => .ok .blank
  | first :: rest =>
      if (rest.getLastD first).text.toList.getLast? = some ':' then
        if rest.isEmpty then .ok (.label (labelName first.text) first)
        else .error ⟨.declarationSize, wholeSpan first rest⟩
      else match declarationMark? first with
        | some (kind, name) => ofDeclaration kind name first rest
        | none => ofInstruction first rest

end Statement

end Redstone

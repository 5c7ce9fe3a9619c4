import Redstone.Assembly.Report
import Redstone.Assembly.Statement
import Redstone.Text.Lines

/-!
# Reading a source

A session reads source text line by line.  It declares names, numbers the
instructions and collects what is wrong; a line that is wrong changes nothing
else.  Operands are left alone, since they may use names that come later.
A line whose literal overflows is recorded like a wrong one, but the program has
stopped there: what the session holds after it is seen by nobody.
-/

namespace Redstone

inductive LineContent where
  | blank
  | rejected
  | label
  | declaration (kind : DeclarationKind)
  /-- An instruction with its number, of which sixteen bits are kept. -/
  | instruction (opcode : Opcode) (index : UInt16)
  deriving DecidableEq, Repr

structure SourceLine where
  /-- The number of the line, counted from 1. -/
  number : Nat
  text : String
  tokens : List Token
  content : LineContent
  deriving DecidableEq, Repr

/-- What is known after some lines have been read. -/
structure Session where
  symbols : Symbols
  lines : Array SourceLine
  instructionCount : Nat
  diagnostics : Array Diagnostic
  reports : Array AssemblyReport

namespace Session

def empty : Session where
  symbols := .empty
  lines := #[]
  instructionCount := 0
  diagnostics := #[]
  reports := #[]

/-- The slot that a label stands for, in front of which `count` others lie. -/
def labelIndex (count : Nat) : UInt16 :=
  UInt16.ofNat (min count 1023)

def declare (symbols : Symbols) (kind : DeclarationKind) (name : String)
    (value : Int) : Except SymbolError (Symbols × SymbolEvent) :=
  match kind with
  | .var => symbols.declareVariable name value
  | .definition => symbols.declareDefinition name value

/-- The token that an error in a declaration is about. -/
def blamed (error : SymbolError) (nameToken valueToken : Token) : Token :=
  match error with
  | .variableRange .. | .definitionRange .. => valueToken
  | _ => nameToken

/-- The effect of a statement that comes after `count` instructions. -/
def enact (symbols : Symbols) (count : Nat) :
    Statement → Except Mistake (LineContent × Symbols × List SymbolEvent)
  | .blank => .ok (.blank, symbols, [])
  | .label name token =>
      match symbols.declareLabel name (labelIndex count) with
      | .ok (after, event) => .ok (.label, after, [event])
      | .error e => .error ⟨.symbol e, token.span⟩
  | .declaration kind name value nameToken valueToken =>
      match declare symbols kind name value with
      | .ok (after, event) => .ok (.declaration kind, after, [event])
      | .error e =>
          .error ⟨.symbol e, (blamed e nameToken valueToken).span⟩
  | .instruction opcode =>
      .ok (.instruction opcode (UInt16.ofNat count), symbols, [])

def instructionsIn : LineContent → Nat
  | .instruction .. => 1
  | _ => 0

def readLine (session : Session) (text : String) : Session :=
  let ⟨symbols, lines, count, diagnostics, reports⟩ := session
  let number := lines.size + 1
  let tokens := Token.ofLine text
  let effect := match Statement.ofTokens tokens with
    | .ok statement => enact symbols count statement
    | .error mistake => .error mistake
  match effect with
  | .ok (content, after, events) =>
      { symbols := after
        lines := lines.push ⟨number, text, tokens, content⟩
        instructionCount := count + instructionsIn content
        diagnostics := diagnostics
        reports := reports ++ events.map AssemblyReport.symbol }
  | .error mistake =>
      { symbols := symbols
        lines := lines.push ⟨number, text, tokens, .rejected⟩
        instructionCount := count
        diagnostics := diagnostics.push ⟨number, text, mistake⟩
        reports := reports.push (.mistake number mistake.problem.message) }

def feed (session : Session) (source : String) : Session :=
  (Text.lines source).foldl readLine session

end Session

end Redstone

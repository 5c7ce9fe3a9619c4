import Redstone.Assembly.Session
import Redstone.Image.Basic
import Redstone.Instruction.Word

/-!
# Making an image

When the whole source has been read, the variables are placed behind the
program, the operands of every instruction are resolved and checked, and the
words are put together.  If anything was wrong with any line there is no image
but the list of all that was wrong.  If reading a literal overflowed there is
not even that.
-/

namespace Redstone

inductive AssemblyError where
  | mistakes (diagnostics : List Diagnostic)
  | overflow (cause : Overflow)
  | encode (error : EncodeError)
  | tooLarge (size : Nat)
  deriving DecidableEq, Repr

namespace AssemblyError

def message : AssemblyError → String
  | mistakes diagnostics =>
      String.join
        [toString diagnostics.length,
          " error(s) occurred, no output will be written"]
  | overflow cause => cause.message
  | encode error => String.join ["encoder contract violation: ", error.message]
  | tooLarge size =>
      String.join
        ["program of ", toString size,
          " bytes does not fit in 2048 bytes of memory"]

def diagnostics : AssemblyError → List Diagnostic
  | mistakes diagnostics => diagnostics
  | _ => []

def ofDiagnostics (diagnostics : List Diagnostic) : AssemblyError :=
  match diagnostics.findSome? Diagnostic.overflow? with
  | some cause => overflow cause
  | none => mistakes (Diagnostic.sorted diagnostics)

theorem ofDiagnostics_cases (diagnostics : List Diagnostic) :
    (∃ diagnostic ∈ diagnostics, ∃ cause, diagnostic.overflow? = some cause ∧
      ofDiagnostics diagnostics = overflow cause) ∨
    ((∀ diagnostic ∈ diagnostics, diagnostic.overflow? = none) ∧
      ofDiagnostics diagnostics = mistakes (Diagnostic.sorted diagnostics)) := by
  unfold ofDiagnostics
  cases found : diagnostics.findSome? Diagnostic.overflow? with
  | some cause =>
      obtain ⟨diagnostic, member, overflows⟩ := List.exists_of_findSome?_eq_some found
      exact .inl ⟨diagnostic, member, cause, overflows, rfl⟩
  | none => exact .inr ⟨List.findSome?_eq_none_iff.1 found, rfl⟩

end AssemblyError

/-- An instruction line whose operands are known. -/
structure ResolvedLine where
  opcode : Opcode
  operands : List UInt16
  index : UInt16
  source : String
  deriving DecidableEq, Repr

namespace Operand

abbrev Located := Int × Span

def resolve (symbols : Symbols) (token : Token) : Except Mistake Located :=
  match ofText token.text with
  | .ok (.literal value) => .ok (value, token.span)
  | .ok (.alias name) =>
      match symbols.resolve name with
      | .ok value => .ok (value, token.span)
      | .error e => .error ⟨.symbol e, token.span⟩
  | .error cause => .error ⟨.overflow cause, token.span⟩

/-- Puts in the zero for an operand that was left out. -/
def complete (opcode : Opcode) (mnemonic : Span) (values : List Located) :
    List Located :=
  if values.length < opcode.fields.length then
    values.insertIdx (if opcode = .rsh then 1 else 0) (0, mnemonic)
  else values

def check (field : Field) (operand : Located) : Except Mistake UInt16 :=
  let (value, span) := operand
  if value < 0 then .error ⟨.negativeOperand value, span⟩
  else if field.max < value.toNat then
    .error ⟨.operandOverflow value field, span⟩
  else .ok (UInt16.ofNat value.toNat)

/-- Checks operands against their fields, from left to right. -/
def checkAll : List Field → List Located → Except Mistake (List UInt16)
  | field :: fields, operand :: operands =>
      match check field operand with
      | .error mistake => .error mistake
      | .ok value =>
          match checkAll fields operands with
          | .error mistake => .error mistake
          | .ok values => .ok (value :: values)
  | _, _ => .ok []

/-- The numbers that operand tokens stand for, up to the first that has none. -/
def resolveAll (symbols : Symbols) :
    List Token → Except Mistake (List Located)
  | [] => .ok []
  | token :: tokens =>
      match resolve symbols token with
      | .error mistake => .error mistake
      | .ok value =>
          match resolveAll symbols tokens with
          | .error mistake => .error mistake
          | .ok values => .ok (value :: values)

/-- The operands of an instruction from all the tokens of its line. -/
def ofTokens (symbols : Symbols) (opcode : Opcode) :
    List Token → Except Mistake (List UInt16)
  | [] => .ok []
  | mnemonic :: tokens =>
      match resolveAll symbols tokens with
      | .error mistake => .error mistake
      | .ok values =>
          checkAll opcode.fields (complete opcode mnemonic.span values)

end Operand

def encodeProgram (program : List (Opcode × List UInt16)) (data : List UInt8) :
    Except EncodeError (List UInt8) := do
  let words ← program.mapM fun (opcode, operands) =>
    Word.encode opcode operands
  return words.flatMap Word.toBytes ++ data

/-- An image or the reason why there is none, with what was reported. -/
structure Assembly where
  result : Except AssemblyError Image
  reports : Array AssemblyReport

namespace Session

def resolveLine (symbols : Symbols) (line : SourceLine) :
    Option (Except Diagnostic ResolvedLine) :=
  match line.content with
  | .instruction opcode index =>
      match Operand.ofTokens symbols opcode line.tokens with
      | .ok operands => some (.ok ⟨opcode, operands, index, line.text⟩)
      | .error mistake => some (.error ⟨line.number, line.text, mistake⟩)
  | _ => none

/-- The instruction lines of a session, resolved as far as possible. -/
def resolved (session : Session) : List (Except Diagnostic ResolvedLine) :=
  let placed := session.symbols.place session.instructionCount
  session.lines.toList.filterMap (resolveLine placed)

def program (lines : List (Except Diagnostic ResolvedLine)) :
    List ResolvedLine :=
  lines.filterMap Except.toOption

/-- What was wrong with the lines that could not be resolved. -/
def failures (lines : List (Except Diagnostic ResolvedLine)) :
    List Diagnostic :=
  lines.filterMap fun
    | .error diagnostic => some diagnostic
    | .ok _ => none

/-- What is reported of each instruction when all words are known. -/
def assembledReports (lines : List ResolvedLine) (bytes : List UInt8) :
    List AssemblyReport :=
  let stored := bytes.toArray
  lines.map fun line =>
    let address := 2 * line.index.toNat
    let word := Word.ofBytes (stored.getD address 0) (stored.getD (address + 1) 0)
    .assembled line.index word line.source

def finish (session : Session) : Assembly :=
  let count := session.instructionCount
  let data := session.symbols.data
  let placed :=
    session.reports ++
      (session.symbols.placementEvents count).map AssemblyReport.symbol
  let lines := session.resolved
  let wrong := failures lines
  let told := placed ++ wrong.map fun diagnostic =>
    AssemblyReport.mistake diagnostic.line diagnostic.message
  let diagnostics := session.diagnostics.toList ++ wrong
  if diagnostics.isEmpty then
    let lines := program lines
    match encodeProgram (lines.map fun line => (line.opcode, line.operands))
        data with
    | .error e => ⟨.error (.encode e), told⟩
    | .ok bytes =>
        let layout : Layout := ⟨lines.length, data.length⟩
        let reports := told ++ assembledReports lines bytes ++
          [AssemblyReport.complete layout.instructionCount layout.variableCount
            bytes.length]
        match Image.ofBytes? bytes (some layout) with
        | some image => ⟨.ok image, reports⟩
        | none => ⟨.error (.tooLarge bytes.length), reports⟩
  else ⟨.error (.ofDiagnostics diagnostics), told⟩

end Session

namespace Assembly

def ofSource (source : String) : Assembly :=
  (Session.empty.feed source).finish

end Assembly

def assemble (source : String) : Except AssemblyError Image :=
  (Assembly.ofSource source).result

end Redstone

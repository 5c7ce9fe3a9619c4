import Redstone.Proofs.Program.Operand

/-!
# The image of a program

A session that tracks a program is finished with an image exactly when it has no
diagnostics, the program encodes to bytes and they fit into memory; the image
then holds these bytes. With the results on reading a source this settles when
a source assembles and to what.
-/

namespace Redstone

/-! ## Putting words together -/

theorem mapM_encode_eq_ok_iff (code : List (Opcode × List UInt16)) (words : List UInt16) :
    code.mapM (fun (opcode, operands) => Word.encode opcode operands) = .ok words ↔
      List.Forall₂ (fun (instruction : Opcode × List UInt16) word =>
        Word.encode instruction.1 instruction.2 = .ok word) code words := by
  induction code generalizing words with
  | nil => simp [pure, Except.pure, eq_comm]
  | cons first rest ih =>
      rw [List.mapM_cons]
      cases encoded : Word.encode first.1 first.2 with
      | error e => cases words <;> simp [encoded, bind, Except.bind]
      | ok word =>
          cases words with
          | nil =>
              cases rest.mapM fun (opcode, operands) => Word.encode opcode operands <;>
                simp [encoded, bind, Except.bind, pure, Except.pure]
          | cons next words =>
              rw [List.forall₂_cons, ← ih]
              cases rest.mapM fun (opcode, operands) => Word.encode opcode operands <;>
                simp [encoded, bind, Except.bind, pure, Except.pure]

theorem encodeProgram_eq_ok_iff (code : List (Opcode × List UInt16)) (data bytes : List UInt8) :
    encodeProgram code data = .ok bytes ↔
      ∃ words, List.Forall₂ (fun (instruction : Opcode × List UInt16) word =>
          Word.encode instruction.1 instruction.2 = .ok word) code words ∧
        bytes = words.flatMap Word.toBytes ++ data := by
  simp only [← mapM_encode_eq_ok_iff]
  unfold encodeProgram
  cases code.mapM fun (opcode, operands) => Word.encode opcode operands with
  | error e => simp [bind, Except.bind]
  | ok words => simp [bind, Except.bind, pure, Except.pure, eq_comm]

theorem length_flatMap_toBytes (words : List UInt16) :
    (words.flatMap Word.toBytes).length = 2 * words.length := by
  induction words with
  | nil => rfl
  | cons word words ih =>
      rw [List.flatMap_cons, List.length_append, ih, List.length_cons]
      simp [Word.toBytes]
      omega

/-- The bytes of a program are as many as the program takes. -/
theorem Program.Encodes.length_eq {program : Program} {bytes : List UInt8}
    (encodes : program.Encodes bytes) : bytes.length = program.size := by
  obtain ⟨words, each, rfl⟩ := encodes
  rw [List.length_append, length_flatMap_toBytes, ← each.length_eq]
  rfl

def Program.Codes (program : Program) (instruction : Opcode × List String)
    (coded : Opcode × List UInt16) : Prop :=
  instruction.1 = coded.1 ∧ Resolves program instruction.1 instruction.2 coded.2

/-- The bytes of a program come from the values of all operands. -/
theorem Program.encodes_iff (program : Program) (bytes : List UInt8) :
    program.Encodes bytes ↔ ∃ code, List.Forall₂ program.Codes program.instructions code ∧
      encodeProgram code program.data = .ok bytes := by
  have word_iff : program.HasWord = fun instruction word =>
      ∃ coded, program.Codes instruction coded ∧ Word.encode coded.1 coded.2 = .ok word := by
    ext ⟨opcode, operands⟩ word
    constructor
    · intro ⟨values, resolves, packed⟩
      exact ⟨(opcode, values), ⟨rfl, resolves⟩,
        (Word.encode_eq_ok_iff opcode values word).2 ⟨resolves.fit, packed⟩⟩
    · intro ⟨⟨opcode', values⟩, ⟨same, resolves⟩, encoded⟩
      cases same
      exact ⟨values, resolves, ((Word.encode_eq_ok_iff opcode values word).1 encoded).2⟩
  unfold Encodes
  rw [word_iff]
  simp only [forall₂_exists_iff, encodeProgram_eq_ok_iff]
  constructor
  · intro ⟨words, ⟨code, codes, encoded⟩, same⟩
    exact ⟨code, codes, words, encoded, same⟩
  · intro ⟨code, codes, words, encoded, same⟩
    exact ⟨words, ⟨code, codes, encoded⟩, same⟩

/-! ## Taking bytes apart -/

theorem ofBytes_getD_flatMap_toBytes {words : List UInt16} (data : List UInt8) {i : Nat}
    {word : UInt16} (hword : words[i]? = some word) :
    Word.ofBytes ((words.flatMap Word.toBytes ++ data).getD (2 * i) 0)
      ((words.flatMap Word.toBytes ++ data).getD (2 * i + 1) 0) = word := by
  induction words generalizing i with
  | nil => simp at hword
  | cons first rest ih =>
      obtain ⟨low, high, hbytes, hfirst⟩ := Word.toBytes_eq first
      rw [List.flatMap_cons, hbytes]
      cases i with
      | zero =>
          have heq : first = word := Option.some.inj hword
          rw [← heq]
          exact hfirst
      | succ i =>
          have hrest : rest[i]? = some word := hword
          exact ih hrest

/-- The bytes of slot `i` are the word of the instruction with that number. -/
theorem Program.Encodes.exists_word_eq {program : Program} {bytes : List UInt8}
    (encodes : program.Encodes bytes) {i : Nat} {line : Opcode × List String}
    (hline : program.instructions[i]? = some line) :
    ∃ values, Resolves program line.1 line.2 values ∧
      Word.ofBytes (bytes.getD (2 * i) 0) (bytes.getD (2 * i + 1) 0) =
        Word.pack line.1 (values.map UInt16.toNat) := by
  obtain ⟨words, each, rfl⟩ := encodes
  obtain ⟨word, hword, values, resolves, hpack⟩ := exists_getElem?_eq_of_forall₂ each hline
  refine ⟨values, resolves, ?_⟩
  rw [ofBytes_getD_flatMap_toBytes program.data hword]
  exact hpack

/-! ## Resolving the lines -/

namespace Session

variable {symbols : Symbols} {program part : Program}

@[simp] theorem program_ok (line : ResolvedLine) (lines : List (Except Diagnostic ResolvedLine)) :
    Session.program (.ok line :: lines) = line :: Session.program lines := rfl

@[simp] theorem program_error (diagnostic : Diagnostic)
    (lines : List (Except Diagnostic ResolvedLine)) :
    Session.program (.error diagnostic :: lines) = Session.program lines := rfl

@[simp] theorem failures_ok (line : ResolvedLine) (lines : List (Except Diagnostic ResolvedLine)) :
    failures (.ok line :: lines) = failures lines := rfl

@[simp] theorem failures_error (diagnostic : Diagnostic)
    (lines : List (Except Diagnostic ResolvedLine)) :
    failures (.error diagnostic :: lines) = diagnostic :: failures lines := rfl

theorem resolveLine_eq_none {recorded : SourceLine} {line : Line} (shows : recorded.Shows line)
    (other : line.instruction? = none) : resolveLine symbols recorded = none := by
  obtain ⟨number, text, tokens, content⟩ := recorded
  cases content with
  | instruction opcode index =>
      obtain ⟨first, rest, rfl, count, rfl⟩ := shows
      cases other
  | _ => rfl

theorem resolveLine_instruction {recorded : SourceLine} {opcode : Opcode} {operands : List String}
    (shows : recorded.Shows (.instruction opcode operands)) (symbols : Symbols) :
    ∃ first rest index, operands = rest.map Token.text ∧ opcode.Takes rest.length ∧
      resolveLine symbols recorded =
        match Operand.ofTokens symbols opcode (first :: rest) with
        | .ok values => some (.ok ⟨opcode, values, index, recorded.text⟩)
        | .error mistake => some (.error ⟨recorded.number, recorded.text, mistake⟩) := by
  obtain ⟨number, text, tokens, content⟩ := recorded
  cases content with
  | instruction opcode' index =>
      obtain ⟨first, rest, rfl, count, same⟩ := shows
      cases same
      exact ⟨first, rest, index, rfl, count, rfl⟩
  | _ => cases shows

theorem length_program_add_length_failures {lines : List SourceLine}
    (shown : List.Forall₂ SourceLine.Shows lines part) (symbols : Symbols) :
    (Session.program (lines.filterMap (resolveLine symbols))).length +
      (failures (lines.filterMap (resolveLine symbols))).length = part.slotCount := by
  unfold Program.slotCount Program.instructions
  induction shown with
  | nil => rfl
  | @cons recorded line lines part shows _ ih =>
      cases line with
      | instruction opcode operands =>
          obtain ⟨first, rest, index, -, -, outcome⟩ := resolveLine_instruction shows symbols
          have slots : (Line.instruction opcode operands :: part).filterMap Line.instruction? =
            (opcode, operands) :: part.filterMap Line.instruction? := rfl
          rw [slots, List.length_cons, ← ih]
          cases found : Operand.ofTokens symbols opcode (first :: rest) with
          | error mistake =>
              rw [found] at outcome
              rw [List.filterMap_cons_some outcome, program_error, failures_error,
                List.length_cons, Nat.add_assoc]
          | ok values =>
              rw [found] at outcome
              rw [List.filterMap_cons_some outcome, program_ok, failures_ok, List.length_cons]
              omega
      | _ =>
          rw [List.filterMap_cons_none (resolveLine_eq_none shows rfl),
            List.filterMap_cons_none rfl]
          exact ih

/-- All instructions are resolved exactly when their operands resolve, and to their values. -/
theorem resolved_iff (tracks : symbols.Tracks program) (small : program.size ≤ 65536)
    {lines : List SourceLine} (shown : List.Forall₂ SourceLine.Shows lines part)
    (code : List (Opcode × List UInt16)) :
    (failures (lines.filterMap (resolveLine (symbols.place program.slotCount))) = [] ∧
      (Session.program (lines.filterMap (resolveLine (symbols.place program.slotCount)))).map
        (fun line => (line.opcode, line.operands)) = code) ↔
      List.Forall₂ program.Codes part.instructions code := by
  unfold Program.instructions Program.Codes
  induction shown generalizing code with
  | nil => simp [failures, Session.program, eq_comm]
  | @cons recorded line lines part shows _ ih =>
      cases line with
      | instruction opcode operands =>
          obtain ⟨first, rest, index, rfl, count, outcome⟩ :=
            resolveLine_instruction shows (symbols.place program.slotCount)
          have values_iff (values : List UInt16) :
              Operand.ofTokens (symbols.place program.slotCount) opcode (first :: rest) =
                .ok values ↔ Resolves program opcode (rest.map Token.text) values :=
            Operand.ofTokens_eq_ok_iff_resolves tracks small count values
          have slots : (Line.instruction opcode (rest.map Token.text) :: part).filterMap
              Line.instruction? =
            (opcode, rest.map Token.text) :: part.filterMap Line.instruction? := rfl
          rw [slots]
          cases found : Operand.ofTokens (symbols.place program.slotCount) opcode
              (first :: rest) with
          | error mistake =>
              rw [found] at outcome
              -- The line failed, so no values can stand at the head of `code`.
              simp only [List.filterMap_cons_some outcome, failures_error,
                reduceCtorEq, false_and, false_iff]
              intro all
              cases all with
              | cons head _ =>
                  rw [(values_iff _).2 head.2] at found
                  cases found
          | ok values =>
              rw [found] at outcome values_iff
              simp only [List.filterMap_cons_some outcome, failures_ok, program_ok,
                List.map_cons]
              cases code with
              | nil => simp
              | cons coded code =>
                  obtain ⟨opcode', values'⟩ := coded
                  rw [List.forall₂_cons, ← ih, ← values_iff, List.cons.injEq, Prod.mk.injEq,
                    Except.ok.injEq]
                  tauto
      | _ =>
          have skipped : resolveLine (symbols.place program.slotCount) recorded = none :=
            resolveLine_eq_none shows rfl
          simp only [List.filterMap_cons_none skipped]
          rw [List.filterMap_cons_none rfl]
          exact ih code

/-! ## Finishing -/

theorem ofBytes?_eq_some_iff (bytes : List UInt8) (layout : Option Layout) (image : Image) :
    Image.ofBytes? bytes layout = some image ↔ image.bytes = bytes ∧ image.layout = layout := by
  obtain ⟨bytes', layout', small⟩ := image
  unfold Image.ofBytes?
  split
  · next le => simp [eq_comm]
  · next large =>
      simp only [reduceCtorEq, false_iff]
      intro h
      obtain ⟨rfl, -⟩ := h
      exact large small

theorem finish_eq_ok_iff (session : Session) (image : Image) :
    session.finish.result = .ok image ↔
      session.diagnostics = #[] ∧ failures session.resolved = [] ∧
      encodeProgram
        ((Session.program session.resolved).map fun line => (line.opcode, line.operands))
        session.symbols.data = .ok image.bytes ∧
      image.layout =
        some ⟨(Session.program session.resolved).length, session.symbols.data.length⟩ := by
  unfold finish
  by_cases clean : session.diagnostics = #[] ∧ failures session.resolved = []
  · simp only [clean, List.append_nil, List.isEmpty_nil, if_true, true_and]
    cases encodeProgram ((Session.program session.resolved).map fun line =>
        (line.opcode, line.operands)) session.symbols.data with
    | error e => simp
    | ok bytes =>
        simp only [Except.ok.injEq]
        rw [eq_comm (a := bytes), ← ofBytes?_eq_some_iff]
        cases Image.ofBytes? bytes
          (some ⟨(Session.program session.resolved).length, session.symbols.data.length⟩) <;> simp
  · have some : ¬ (session.diagnostics.toList ++ failures session.resolved).isEmpty := by
      simpa using clean
    simp only [some, if_false, reduceCtorEq, false_iff]
    tauto

/-- A session that tracks a program is finished with the bytes of that program. -/
theorem Tracks.finish_eq_ok_iff {session : Session} (tracks : session.Tracks program)
    (image : Image) :
    session.finish.result = .ok image ↔
      session.diagnostics = #[] ∧ program.size ≤ 2048 ∧ program.Encodes image.bytes ∧
        image.layout = some ⟨program.slotCount, program.varCount⟩ := by
  have every := length_program_add_length_failures tracks.lines
    (session.symbols.place program.slotCount)
  have resolved (small : program.size ≤ 65536) :=
    resolved_iff tracks.symbols small tracks.lines
  rw [Session.finish_eq_ok_iff, Program.encodes_iff, tracks.symbols.data_eq, Session.resolved,
    tracks.count]
  constructor
  · intro ⟨clean, settled, encoded, layout⟩
    rw [settled, List.length_nil, Nat.add_zero] at every
    obtain ⟨words, each, bytes⟩ := (encodeProgram_eq_ok_iff ..).1 encoded
    -- No pass checks the size of the program: it is the image that has to fit.
    have fits : program.size ≤ 2048 := by
      have whole := image.length_bytes
      rw [bytes, List.length_append, length_flatMap_toBytes, ← each.length_eq, List.length_map,
        every] at whole
      exact whole
    rw [every] at layout
    exact ⟨clean, fits, ⟨_, (resolved (by omega) _).1 ⟨settled, rfl⟩, encoded⟩, layout⟩
  · intro ⟨clean, fits, ⟨code, codes, encoded⟩, layout⟩
    obtain ⟨settled, rfl⟩ := (resolved (by omega) code).2 codes
    rw [settled, List.length_nil, Nat.add_zero] at every
    rw [every]
    exact ⟨clean, settled, encoded, layout⟩

end Session

/-! ## Valid programs -/

namespace Program

theorem validIn_iff (program before : Program) (line : Line) :
    line.ValidIn program before ↔ line.Declarable before ∧
      ∀ instruction, line.instruction? = some instruction →
        OperandsFit program instruction.1 instruction.2 := by
  cases line <;> simp [Line.ValidIn, Line.Declarable, Line.instruction?]

/-- The names of a valid program can be declared, and its operands fit. -/
theorem valid_iff (program : Program) :
    program.Valid ↔ DeclarableFrom [] program ∧
      ∀ instruction ∈ program.instructions, OperandsFit program instruction.1 instruction.2 := by
  unfold Valid
  simp only [validIn_iff, declarableFrom_iff, List.nil_append]
  constructor
  · intro valid
    refine ⟨fun before line after split => (valid before line after split).1, ?_⟩
    intro instruction member
    obtain ⟨line, inside, holds⟩ := List.mem_filterMap.1 member
    obtain ⟨before, after, split⟩ := List.append_of_mem inside
    exact (valid before line after split).2 instruction holds
  · intro ⟨declarable, fits⟩ before line after split
    refine ⟨declarable before line after split, fun instruction holds => ?_⟩
    exact fits instruction (List.mem_filterMap.2 ⟨line, by simp [split], holds⟩)

/-- Operands that fit all have values, and so there are bytes. -/
theorem exists_encodes_iff (program : Program) :
    (∃ bytes, program.Encodes bytes) ↔
      ∀ instruction ∈ program.instructions, OperandsFit program instruction.1 instruction.2 := by
  simp only [operandsFit_iff]
  constructor
  · intro ⟨bytes, words, each, _⟩ instruction member
    obtain ⟨word, values, resolves, _⟩ := (exists_forall₂_iff _).1 ⟨words, each⟩ _ member
    exact ⟨values, resolves⟩
  · intro fits
    have each : ∀ instruction ∈ program.instructions, ∃ word,
        program.HasWord instruction word := by
      intro instruction member
      obtain ⟨values, resolves⟩ := fits instruction member
      exact ⟨_, values, resolves, rfl⟩
    obtain ⟨words, related⟩ := (exists_forall₂_iff _).2 each
    exact ⟨_, words, related, rfl⟩

end Program

/-! ## Assembling a source -/

/-- An image is assembled from a source exactly when it is that of the source's program. -/
theorem assemble_eq_ok_iff (source : String) (image : Image) :
    assemble source = .ok image ↔ ∃ program, Reads source program ∧ program.Valid ∧
      program.size ≤ 2048 ∧ program.Encodes image.bytes ∧
      image.layout = some ⟨program.slotCount, program.varCount⟩ := by
  unfold assemble Assembly.ofSource
  rcases Session.feed_cases source with ⟨program, reads, declarable, tracks, clean⟩ | ⟨bad, wrong⟩
  · rw [tracks.finish_eq_ok_iff]
    constructor
    · intro ⟨_, fits, encodes, layout⟩
      have valid := (program.valid_iff).2
        ⟨declarable, (program.exists_encodes_iff).1 ⟨_, encodes⟩⟩
      exact ⟨program, reads, valid, fits, encodes, layout⟩
    · intro ⟨other, reads', _, fits, encodes, layout⟩
      cases reads'.unique reads
      exact ⟨clean, fits, encodes, layout⟩
  · rw [Session.finish_eq_ok_iff]
    constructor
    · intro ⟨clean, _⟩
      exact absurd clean wrong
    · intro ⟨program, reads, valid, _⟩
      exact absurd ((program.valid_iff).1 valid).1 (bad program reads)

/-- A valid program that fits into memory has an image. -/
theorem exists_assemble_eq_ok {source : String} {program : Program} (reads : Reads source program)
    (valid : program.Valid) (fits : program.size ≤ 2048) :
    ∃ image, assemble source = .ok image := by
  obtain ⟨bytes, encodes⟩ := (program.exists_encodes_iff).2 ((program.valid_iff).1 valid).2
  let image : Image :=
    { bytes
      layout := some ⟨program.slotCount, program.varCount⟩
      length_bytes := by rw [encodes.length_eq]; exact fits }
  exact ⟨image, (assemble_eq_ok_iff source image).2
    ⟨program, reads, valid, fits, encodes, rfl⟩⟩

/-- In an assembled program no operand denotes two numbers. -/
theorem denotes_unique_of_assemble {source : String} {image : Image} {program : Program}
    (assembled : assemble source = .ok image) (reads : Reads source program) {text : String}
    {value other : Int} (denotes : Denotes program text value)
    (denotes' : Denotes program text other) : value = other := by
  obtain ⟨same, reads', valid, fits, _⟩ := (assemble_eq_ok_iff source image).1 assembled
  cases reads'.unique reads
  rcases Session.feed_cases source with ⟨same, reads', _, tracks, _⟩ | ⟨bad, _⟩
  · cases reads'.unique reads
    exact Operand.denotes_unique tracks.symbols (by omega) denotes denotes'
  · exact absurd ((program.valid_iff).1 valid).1 (bad program reads)

/--
A source assembles exactly when it says a valid program that fits into memory, and then
to the words of its instructions with the bytes of its variables behind them.
-/
theorem assemble_correct (source : String) :
    ((∃ image, assemble source = .ok image) ↔
      ∃ program, Reads source program ∧ program.Valid ∧ program.size ≤ 2048) ∧
    ∀ image, assemble source = .ok image ↔
      ∃ program, Reads source program ∧ program.Valid ∧ program.size ≤ 2048 ∧
        program.Encodes image.bytes ∧
        image.layout = some ⟨program.slotCount, program.varCount⟩ := by
  refine ⟨?_, assemble_eq_ok_iff source⟩
  constructor
  · intro ⟨image, assembled⟩
    obtain ⟨program, reads, valid, fits, _⟩ := (assemble_eq_ok_iff source image).1 assembled
    exact ⟨program, reads, valid, fits⟩
  · intro ⟨program, reads, valid, fits⟩
    exact exists_assemble_eq_ok reads valid fits

def loopProgram : Program :=
  [.label "loop", .instruction .jmp ["loop"]]

theorem reads_loopProgram : Reads "loop:\nJMP loop" loopProgram := by
  have hlines : Text.lines "loop:\nJMP loop" = ["loop:", "JMP loop"] := by decide
  have hlabel : (Token.ofLine "loop:").map Token.text = ["loop:"] := by decide
  have hjump : (Token.ofLine "JMP loop").map Token.text = ["JMP", "loop"] := by decide
  unfold Reads
  rw [hlines]
  refine .cons ?_ (.cons ?_ .nil)
  · rw [hlabel]
    exact .label 0 (by decide) (by decide)
  · rw [hjump]
    exact .instruction (by decide) (by decide) (.inl rfl)

theorem exists_loop_image : ∃ image, assemble "loop:\nJMP loop" = .ok image := by
  have hsome : (assemble "loop:\nJMP loop").toOption.isSome := by decide +kernel
  cases hassemble : assemble "loop:\nJMP loop" with
  | error e =>
      rw [hassemble] at hsome
      cases hsome
  | ok image => exact ⟨image, rfl⟩

end Redstone

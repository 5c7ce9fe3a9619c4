import Redstone.Proofs.Program.Names
import Redstone.Proofs.Program.Overflow
import Redstone.Proofs.Text.Lines

/-!
# Reading a source line by line

A session tracks the program that its source says so far. Reading a line either
adds what the line says to that program, or rejects the line with exactly one
diagnostic and adds a blank line; which of the two is decided by `Declarable`
alone. By induction a whole source is read without a diagnostic exactly when it
says a program in which every line is declarable.
-/

namespace Redstone

namespace Statement

/-- What a line turns out to be when `count` instructions stand in front of it. -/
def content (count : Nat) : Statement → LineContent
  | blank => .blank
  | label _ _ => .label
  | declaration kind _ _ _ _ => .declaration kind
  | instruction opcode => .instruction opcode (UInt16.ofNat count)

theorem instructionsIn_content (statement : Statement) (count : Nat) (operands : List String) :
    Session.instructionsIn (statement.content count) =
      Program.slotCount [statement.line operands] := by
  cases statement with
  | declaration kind name value nameToken valueToken => cases kind <;> rfl
  | _ => rfl

end Statement

namespace Session

variable {symbols : Symbols} {program : Program}

/-- A declarable line is enacted, and the table goes on tracking. -/
theorem enact_of_declarable (tracks : symbols.Tracks program) (statement : Statement)
    (operands : List String) (declarable : (statement.line operands).Declarable program) :
    ∃ after events, enact symbols program.slotCount statement =
        .ok (statement.content program.slotCount, after, events) ∧
      after.Tracks (program ++ [statement.line operands]) := by
  cases statement with
  | blank => exact ⟨symbols, [], rfl, tracks.concat_of_name?_eq_none rfl⟩
  | instruction opcode => exact ⟨symbols, [], rfl, tracks.concat_of_name?_eq_none rfl⟩
  | label name token =>
      obtain ⟨after, event, declared, tracks'⟩ := tracks.declareLabel declarable
      exact ⟨after, [event], by simp only [enact, declared, Statement.content], tracks'⟩
  | declaration kind name value nameToken valueToken =>
      cases kind with
      | var =>
          obtain ⟨fresh, small⟩ := declarable
          obtain ⟨after, event, declared, tracks'⟩ := tracks.declareVariable fresh small
          exact ⟨after, [event], by simp only [enact, declare, declared, Statement.content],
            tracks'⟩
      | definition =>
          obtain ⟨fresh, natural⟩ := declarable
          obtain ⟨after, event, declared, tracks'⟩ := tracks.declareDefinition fresh natural
          exact ⟨after, [event], by simp only [enact, declare, declared, Statement.content],
            tracks'⟩

theorem exists_enact_eq_error (tracks : symbols.Tracks program) (statement : Statement)
    (operands : List String) (bad : ¬ (statement.line operands).Declarable program) :
    ∃ mistake, enact symbols program.slotCount statement = .error mistake := by
  cases statement with
  | blank => exact absurd trivial bad
  | instruction opcode => exact absurd trivial bad
  | label name token =>
      obtain ⟨e, failed⟩ :=
        tracks.exists_declareLabel_eq_error (labelIndex program.slotCount) bad
      exact ⟨⟨.symbol e, token.span⟩, by simp only [enact, failed]⟩
  | declaration kind name value nameToken valueToken =>
      cases kind with
      | var =>
          obtain ⟨e, failed⟩ := tracks.exists_declareVariable_eq_error bad
          exact ⟨⟨.symbol e, (blamed e nameToken valueToken).span⟩, by
            simp only [enact, declare, failed]⟩
      | definition =>
          obtain ⟨e, failed⟩ := tracks.exists_declareDefinition_eq_error bad
          exact ⟨⟨.symbol e, (blamed e nameToken valueToken).span⟩, by
            simp only [enact, declare, failed]⟩

end Session

/-- A recorded line shows its line of the program; a rejected one shows a blank line. -/
def SourceLine.Shows (recorded : SourceLine) (line : Line) : Prop :=
  match recorded.content with
  | .instruction opcode _ =>
      ∃ first rest, recorded.tokens = first :: rest ∧ opcode.Takes rest.length ∧
        line = .instruction opcode (rest.map Token.text)
  | _ => line.instruction? = none

theorem Statement.shows {tokens : List Token} {statement : Statement}
    (read : ofTokens tokens = .ok statement) (number count : Nat) (text : String) :
    SourceLine.Shows ⟨number, text, tokens, statement.content count⟩
      (statement.line (tokens.tail.map Token.text)) := by
  cases statement with
  | blank => rfl
  | label name token => rfl
  | declaration kind name value nameToken valueToken => cases kind <;> rfl
  | instruction opcode =>
      cases tokens with
      | nil => simp [ofTokens] at read
      | cons first rest =>
          have count := (spells_of_ofTokens read).takes
          exact ⟨first, rest, rfl, by simpa using count, rfl⟩

namespace Session

/-- The session has read a source that says a program, rejected lines being blank. -/
structure Tracks (session : Session) (program : Program) : Prop where
  symbols : session.symbols.Tracks program
  count : session.instructionCount = program.slotCount
  lines : List.Forall₂ SourceLine.Shows session.lines.toList program

theorem tracks_empty : empty.Tracks [] where
  symbols := Symbols.tracks_empty
  count := rfl
  lines := .nil

def LineSpells (text : String) (line : Line) : Prop :=
  Spells ((Token.ofLine text).map Token.text) line

/-- A line of text at which the program stops as soon as it is read. -/
def LineOverflows (text : String) : Prop :=
  DeclaresLeast ((Token.ofLine text).map Token.text)

/--
What one line of text can do to a session: it is accepted without a diagnostic, or
it is rejected with one, which tells whether reading it overflows.
-/
theorem Tracks.readLine_cases {session : Session} {program : Program}
    (tracks : session.Tracks program) (text : String) :
    (∃ line, LineSpells text line ∧ line.Declarable program ∧
      (session.readLine text).Tracks (program ++ [line]) ∧
      (session.readLine text).diagnostics = session.diagnostics) ∨
    ((∀ line, LineSpells text line → ¬ line.Declarable program) ∧
      (session.readLine text).Tracks (program ++ [.blank]) ∧
      ∃ mistake, (session.readLine text).diagnostics =
          session.diagnostics.push ⟨session.lines.size + 1, text, mistake⟩ ∧
        ∀ cause, mistake.problem = .overflow cause ↔ LineOverflows text ∧ cause = .negation) := by
  obtain ⟨symbols, lines, count, diagnostics, reports⟩ := session
  obtain ⟨table, rfl, shown⟩ := tracks
  -- A rejected line leaves the table and the count alone, whatever the mistake.
  have rejected (mistake : Mistake) (reports : Array AssemblyReport) :
      Tracks ⟨symbols, lines.push ⟨lines.size + 1, text, Token.ofLine text, .rejected⟩,
        program.slotCount, diagnostics.push ⟨lines.size + 1, text, mistake⟩, reports⟩
        (program ++ [.blank]) := by
    refine ⟨table.concat_of_name?_eq_none rfl, by rw [Program.slotCount_append]; rfl, ?_⟩
    rw [Array.toList_push]
    exact List.rel_append shown (.cons rfl .nil)
  cases read : Statement.ofTokens (Token.ofLine text) with
  | error mistake =>
      refine .inr ⟨fun line spells _ => ?_, ?_, mistake, ?_,
        Statement.overflow_iff_of_ofTokens_eq_error read⟩
      · obtain ⟨statement, read', -⟩ := Statement.ofTokens_of_spells spells
        rw [read] at read'
        cases read'
      · simp only [readLine, read]
        exact rejected mistake _
      · simp only [readLine, read]
  | ok statement =>
      have spells := Statement.spells_of_ofTokens read
      by_cases declarable :
          (statement.line ((Token.ofLine text).tail.map Token.text)).Declarable program
      · obtain ⟨after, events, enacted, table'⟩ :=
          enact_of_declarable table statement _ declarable
        refine .inl ⟨_, spells, declarable, ?_, ?_⟩
        · simp only [readLine, read, enacted]
          refine ⟨table', ?_, ?_⟩
          · rw [Program.slotCount_append, ← Statement.instructionsIn_content _ program.slotCount]
          · rw [Array.toList_push]
            exact List.rel_append shown (.cons (Statement.shows read _ _ _) .nil)
        · simp only [readLine, read, enacted]
      · obtain ⟨mistake, failed⟩ := exists_enact_eq_error table statement _ declarable
        refine .inr ⟨fun line spells' declarable' => ?_, ?_, mistake, ?_,
          overflow_iff_of_enact_eq_error read failed⟩
        · rw [spells'.unique spells] at declarable'
          exact declarable declarable'
        · simp only [readLine, read, failed]
          exact rejected mistake _
        · simp only [readLine, read, failed]

end Session

/-- The lines `added` are declarable one after the other behind a program. -/
def Program.DeclarableFrom (program : Program) : Program → Prop
  | [] => True
  | line :: rest => line.Declarable program ∧ DeclarableFrom (program ++ [line]) rest

theorem Program.declarableFrom_iff (program added : Program) :
    program.DeclarableFrom added ↔ ∀ before line after,
      added = before ++ line :: after → line.Declarable (program ++ before) := by
  induction added generalizing program with
  | nil => simp [DeclarableFrom]
  | cons first rest ih =>
      rw [DeclarableFrom, ih]
      constructor
      · intro ⟨head, tail⟩ before line after split
        cases before with
        | nil =>
            cases split
            simpa using head
        | cons next before =>
            cases split
            simpa using tail before line after rfl
      · intro all
        refine ⟨by simpa using all [] first rest rfl, fun before line after split => ?_⟩
        simpa using all (first :: before) line after (by rw [split]; rfl)

theorem Program.declarableFrom_append (program first second : Program) :
    program.DeclarableFrom (first ++ second) ↔
      program.DeclarableFrom first ∧ DeclarableFrom (program ++ first) second := by
  induction first generalizing program with
  | nil => simp [DeclarableFrom]
  | cons line rest ih =>
      rw [List.cons_append, DeclarableFrom, DeclarableFrom, ih, and_assoc, List.append_assoc]
      rfl

theorem Spells.forall₂_unique {texts : List String} {program other : Program}
    (h : List.Forall₂ Session.LineSpells texts program)
    (h' : List.Forall₂ Session.LineSpells texts other) : program = other := by
  induction h generalizing other with
  | nil =>
      cases h'
      rfl
  | cons head _ ih =>
      cases h' with
      | cons head' tail' => rw [head.unique head', ih tail']

/-- A source that is put together from lines reads as what the lines spell. -/
theorem Reads.of_lines {texts : List String} {program : Program}
    (hplain : ∀ text ∈ texts, '\n' ∉ text.toList)
    (hended : ∀ text ∈ texts, text.toList.getLast? ≠ some '\r')
    (spells : List.Forall₂ Session.LineSpells texts program) :
    Reads (String.join (texts.map (· ++ "\n"))) program := by
  unfold Reads
  rw [Text.lines_join hplain hended]
  exact spells

theorem Reads.unique {source : String} {program other : Program} (h : Reads source program)
    (h' : Reads source other) : program = other :=
  Spells.forall₂_unique h h'

namespace Session

/--
Lines are read without a diagnostic exactly when they spell lines that are
declarable one after the other; the session then tracks those lines too.
-/
theorem Tracks.foldl_readLine_cases {session : Session} {program : Program}
    (tracks : session.Tracks program) (texts : List String) :
    (∃ added, List.Forall₂ LineSpells texts added ∧ program.DeclarableFrom added ∧
      (texts.foldl readLine session).Tracks (program ++ added) ∧
      (texts.foldl readLine session).diagnostics = session.diagnostics) ∨
    ((∀ added, List.Forall₂ LineSpells texts added → ¬ program.DeclarableFrom added) ∧
      session.diagnostics.size < (texts.foldl readLine session).diagnostics.size) := by
  induction texts generalizing session program with
  | nil => exact .inl ⟨[], .nil, trivial, by simpa using tracks, rfl⟩
  | cons text texts ih =>
      rw [List.foldl_cons]
      rcases tracks.readLine_cases text with
        ⟨line, spells, declarable, tracks', same⟩ | ⟨bad, tracks', mistake, more, -⟩
      · rcases ih tracks' with ⟨added, read, declares, tracks'', same'⟩ | ⟨bad, more⟩
        · refine .inl ⟨line :: added, .cons spells read, ⟨declarable, declares⟩, ?_, ?_⟩
          · simpa using tracks''
          · rw [same', same]
        · refine .inr ⟨?_, by rwa [same] at more⟩
          intro _ h1 declares
          rcases h1 with _ | ⟨spells', read⟩
          rw [spells'.unique spells] at declares
          exact bad _ read declares.2
      · refine .inr ⟨?_, ?_⟩
        · intro _ h1 declares
          rcases h1 with _ | ⟨spells, _⟩
          exact bad _ spells declares.1
        · have grown : (session.readLine text).diagnostics.size =
              session.diagnostics.size + 1 := by
            rw [more, Array.size_push]
          rcases ih tracks' with ⟨_, _, _, _, same⟩ | ⟨_, more'⟩
          · rw [same]
            omega
          · omega

/-- A source is read without a diagnostic exactly when it says a declarable program. -/
theorem feed_cases (source : String) :
    (∃ program, Reads source program ∧ Program.DeclarableFrom [] program ∧
      (empty.feed source).Tracks program ∧ (empty.feed source).diagnostics = #[]) ∨
    ((∀ program, Reads source program → ¬ Program.DeclarableFrom [] program) ∧
      (empty.feed source).diagnostics ≠ #[]) := by
  rcases tracks_empty.foldl_readLine_cases (Text.lines source) with
    ⟨program, read, declarable, tracks, none⟩ | ⟨bad, some⟩
  · exact .inl ⟨program, read, declarable, tracks, none⟩
  · refine .inr ⟨bad, fun none => ?_⟩
    unfold feed at none
    simp [none] at some

end Session

end Redstone

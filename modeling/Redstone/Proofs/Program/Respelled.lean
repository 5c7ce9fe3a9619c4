import Redstone.Proofs.Program.Faults
import Redstone.Proofs.Program.Spelling

/-!
# Sources that are spelt alike

Two sources say the same if their lines that have words are spelt alike, one after the other. Their
symbol tables are equal after each pair of such lines, and lines in between without words leave them
alone. In the end both have the same image, or both fail for the same reason, with diagnostics about
lines that correspond.
-/

namespace Redstone

open Session (reading)

/-! ## Lines with words -/

def wordedLines (texts : List String) : List (String × Nat) :=
  (texts.zipIdx 1).filter fun line => !(Token.ofLine line.1).isEmpty

section WordedLines

variable {texts texts' : List String} {text : String} {line line' : String × Nat}

theorem wordedLines_concat_of_eq_nil (hnone : Token.ofLine text = []) :
    wordedLines (texts ++ [text]) = wordedLines texts := by
  simp [wordedLines, List.zipIdx_append, hnone]

theorem wordedLines_concat_of_ne_nil (hsome : Token.ofLine text ≠ []) :
    wordedLines (texts ++ [text]) = wordedLines texts ++ [(text, texts.length + 1)] := by
  simp [wordedLines, List.zipIdx_append, hsome, Nat.add_comm]

theorem wordedLines_append (texts more : List String) :
    ∃ added, wordedLines (texts ++ more) = wordedLines texts ++ added := by
  unfold wordedLines
  rw [List.zipIdx_append, List.filter_append]
  exact ⟨_, rfl⟩

theorem pairwise_wordedLines (texts : List String) :
    (wordedLines texts).Pairwise fun a b => a.2 < b.2 := by
  induction texts using List.reverseRecOn with
  | nil => exact .nil
  | append_singleton texts text ih =>
      by_cases hnone : Token.ofLine text = []
      · rwa [wordedLines_concat_of_eq_nil hnone]
      · rw [wordedLines_concat_of_ne_nil hnone]
        refine List.pairwise_append.2 ⟨ih, List.pairwise_singleton _ _, ?_⟩
        intro a member b hb
        have hnumber := List.snd_lt_of_mem_zipIdx (List.mem_of_mem_filter member)
        rw [List.mem_singleton.1 hb]
        show a.2 < texts.length + 1
        omega

def SamePlace (texts texts' : List String) (line line' : String × Nat) : Prop :=
  ∃ i : Nat, (wordedLines texts)[i]? = some line ∧ (wordedLines texts')[i]? = some line'

theorem SamePlace.symm (place : SamePlace texts texts' line line') :
    SamePlace texts' texts line' line := by
  obtain ⟨i, hline, hline'⟩ := place
  exact ⟨i, hline', hline⟩

theorem SamePlace.append (place : SamePlace texts texts' line line') (more more' : List String) :
    SamePlace (texts ++ more) (texts' ++ more') line line' := by
  have kept {texts : List String} {line : String × Nat} (more : List String) {i : Nat}
      (hline : (wordedLines texts)[i]? = some line) :
      (wordedLines (texts ++ more))[i]? = some line := by
    obtain ⟨added, hadded⟩ := wordedLines_append texts more
    rw [hadded, List.getElem?_append_left (List.getElem?_eq_some_iff.1 hline).1, hline]
  obtain ⟨i, hline, hline'⟩ := place
  exact ⟨i, kept more hline, kept more' hline'⟩

theorem number_lt_of_lt {i j : Nat} (hi : (wordedLines texts)[i]? = some line)
    (hj : (wordedLines texts)[j]? = some line') (hlt : i < j) : line.2 < line'.2 := by
  obtain ⟨hi', rfl⟩ := List.getElem?_eq_some_iff.1 hi
  obtain ⟨hj', rfl⟩ := List.getElem?_eq_some_iff.1 hj
  exact List.pairwise_iff_getElem.1 (pairwise_wordedLines texts) i j hi' hj' hlt

theorem SamePlace.number_le (place : SamePlace texts texts' line line') {next next' : String × Nat}
    (place' : SamePlace texts texts' next next') (hle : line.2 ≤ next.2) : line'.2 ≤ next'.2 := by
  obtain ⟨i, hi, hi'⟩ := place
  obtain ⟨j, hj, hj'⟩ := place'
  rcases Nat.lt_trichotomy i j with hlt | rfl | hgt
  · exact Nat.le_of_lt (number_lt_of_lt hi' hj' hlt)
  · rw [hi'] at hj'
    cases hj'
    exact Nat.le_refl _
  · have := number_lt_of_lt hj hi hgt
    omega

end WordedLines

/-- Lines of texts that are spelt alike, but for lines without words. -/
abbrev SpeltAlike (texts texts' : List String) : Prop :=
  List.Forall₂ (fun line line' => SameWords (Token.ofLine line.1) (Token.ofLine line'.1))
    (wordedLines texts) (wordedLines texts')

inductive InStep : List String → List String → Prop where
  | nil : InStep [] []
  | left {texts texts' : List String} {text : String} (before : InStep texts texts')
      (hnone : Token.ofLine text = []) : InStep (texts ++ [text]) texts'
  | right {texts texts' : List String} {text' : String} (before : InStep texts texts')
      (hnone : Token.ofLine text' = []) : InStep texts (texts' ++ [text'])
  | both {texts texts' : List String} {text text' : String} (before : InStep texts texts')
      (hsome : Token.ofLine text ≠ []) (hsome' : Token.ofLine text' ≠ [])
      (alike : SameWords (Token.ofLine text) (Token.ofLine text')) :
      InStep (texts ++ [text]) (texts' ++ [text'])

theorem forall₂_concat_iff {α β : Type} {R : α → β → Prop} {xs : List α} {ys : List β} {x : α}
    {y : β} : List.Forall₂ R (xs ++ [x]) (ys ++ [y]) ↔ List.Forall₂ R xs ys ∧ R x y := by
  rw [← List.forall₂_reverse_iff, List.reverse_concat, List.reverse_concat, List.forall₂_cons,
    List.forall₂_reverse_iff, and_comm]

theorem InStep.length_eq {texts texts' : List String} (steps : InStep texts texts') :
    (wordedLines texts).length = (wordedLines texts').length := by
  induction steps with
  | nil => rfl
  | left _ hnone ih => rw [wordedLines_concat_of_eq_nil hnone, ih]
  | right _ hnone ih => rw [wordedLines_concat_of_eq_nil hnone, ih]
  | both _ hsome hsome' _ ih =>
      rw [wordedLines_concat_of_ne_nil hsome, wordedLines_concat_of_ne_nil hsome',
        List.length_append, List.length_append, ih]
      rfl

theorem SpeltAlike.inStep {texts texts' : List String} (alike : SpeltAlike texts texts') :
    InStep texts texts' := by
  unfold SpeltAlike at alike
  induction texts using List.reverseRecOn generalizing texts' with
  | nil =>
      induction texts' using List.reverseRecOn with
      | nil => exact .nil
      | append_singleton texts' text' ih =>
          by_cases hnone : Token.ofLine text' = []
          · rw [wordedLines_concat_of_eq_nil hnone] at alike
            exact .right (ih alike) hnone
          · rw [wordedLines_concat_of_ne_nil hnone] at alike
            have := alike.length_eq
            simp [wordedLines] at this
  | append_singleton texts text ih =>
      by_cases hnone : Token.ofLine text = []
      · rw [wordedLines_concat_of_eq_nil hnone] at alike
        exact .left (ih alike) hnone
      · rw [wordedLines_concat_of_ne_nil hnone] at alike
        induction texts' using List.reverseRecOn with
        | nil =>
            have := alike.length_eq
            simp [wordedLines] at this
        | append_singleton texts' text' ih' =>
            by_cases hnone' : Token.ofLine text' = []
            · rw [wordedLines_concat_of_eq_nil hnone'] at alike
              exact .right (ih' alike) hnone'
            · rw [wordedLines_concat_of_ne_nil hnone', forall₂_concat_iff] at alike
              exact .both (ih alike.1) hnone hnone' alike.2

/-! ## Reading in step -/

namespace Session

variable {tokens other : List Token} {texts : List String} {text : String}

theorem overflow_iff_of_effect_eq_error {symbols : Symbols} {count : Nat} {mistake : Mistake}
    (failed : effect symbols count tokens = .error mistake) (cause : Overflow) :
    mistake.problem = .overflow cause ↔
      DeclaresLeast (tokens.map Token.text) ∧ cause = .negation := by
  unfold effect at failed
  cases read : Statement.ofTokens tokens with
  | error mistake' =>
      rw [read] at failed
      cases failed
      exact Statement.overflow_iff_of_ofTokens_eq_error read cause
  | ok statement =>
      rw [read] at failed
      exact overflow_iff_of_enact_eq_error read failed cause

/--
Either both lines of tokens are accepted, to the same effect, or both are rejected, and then both
overflow or neither does.
-/
theorem effect_cases (alike : SameWords tokens other) (symbols : Symbols) (count : Nat) :
    (∃ content after events, effect symbols count tokens = .ok (content, after, events) ∧
        effect symbols count other = .ok (content, after, events)) ∨
      ∃ mistake mistake', effect symbols count tokens = .error mistake ∧
        effect symbols count other = .error mistake' ∧
        mistake.problem.overflow? = mistake'.problem.overflow? := by
  cases enacted : effect symbols count tokens with
  | ok done =>
      obtain ⟨content, after, events⟩ := done
      exact .inl ⟨content, after, events, rfl, effect_of_sameWords alike enacted⟩
  | error mistake =>
      cases enacted' : effect symbols count other with
      | ok done =>
          rw [effect_of_sameWords alike.symm enacted'] at enacted
          cases enacted
      | error mistake' =>
          refine .inr ⟨mistake, mistake', rfl, rfl, Problem.overflow?_congr fun cause => ?_⟩
          rw [overflow_iff_of_effect_eq_error enacted, overflow_iff_of_effect_eq_error enacted']
          exact and_congr_left' ⟨Statement.declaresLeast_of_sameWords alike,
            Statement.declaresLeast_of_sameWords alike.symm⟩

theorem reading_concat (texts : List String) (text : String) :
    reading (texts ++ [text]) = (reading texts).readLine text :=
  List.foldl_concat ..

theorem size_lines_reading (texts : List String) : (reading texts).lines.size = texts.length := by
  obtain ⟨program, follows⟩ := exists_follows texts
  exact follows.size_lines

theorem reading_concat_of_ok {content : LineContent} {after : Symbols}
    {events : List SymbolEvent}
    (enacted : effect (reading texts).symbols (reading texts).instructionCount
      (Token.ofLine text) = .ok (content, after, events)) :
    reading (texts ++ [text]) =
      { symbols := after
        lines := (reading texts).lines.push
          ⟨texts.length + 1, text, Token.ofLine text, content⟩
        instructionCount := (reading texts).instructionCount + instructionsIn content
        diagnostics := (reading texts).diagnostics
        reports := (reading texts).reports ++ events.map AssemblyReport.symbol } := by
  rw [reading_concat, ← size_lines_reading texts]
  unfold effect at enacted
  cases read : Statement.ofTokens (Token.ofLine text) with
  | error mistake => simp [read] at enacted
  | ok statement =>
      rw [read] at enacted
      simp only [readLine, read, enacted]

theorem reading_concat_of_error {mistake : Mistake}
    (failed : effect (reading texts).symbols (reading texts).instructionCount
      (Token.ofLine text) = .error mistake) :
    reading (texts ++ [text]) =
      { symbols := (reading texts).symbols
        lines := (reading texts).lines.push
          ⟨texts.length + 1, text, Token.ofLine text, .rejected⟩
        instructionCount := (reading texts).instructionCount
        diagnostics := (reading texts).diagnostics.push ⟨texts.length + 1, text, mistake⟩
        reports := (reading texts).reports.push
          (.mistake (texts.length + 1) mistake.problem.message) } := by
  rw [reading_concat, ← size_lines_reading texts]
  unfold effect at failed
  cases read : Statement.ofTokens (Token.ofLine text) with
  | error mistake' =>
      rw [read] at failed
      cases failed
      simp only [readLine, read]
  | ok statement =>
      rw [read] at failed
      simp only [readLine, read, failed]

end Session

/-- Diagnostics about lines in the same place, both of which overflow or neither does. -/
structure SameFault (texts texts' : List String) (diagnostic diagnostic' : Diagnostic) : Prop where
  place : SamePlace texts texts' (diagnostic.text, diagnostic.line)
    (diagnostic'.text, diagnostic'.line)
  overflow : diagnostic.overflow? = diagnostic'.overflow?

/-- Instructions with the same values, or diagnostics about lines in the same place. -/
inductive SameOperands (texts texts' : List String) :
    Except Diagnostic ResolvedLine → Except Diagnostic ResolvedLine → Prop where
  | ok {opcode : Opcode} {operands : List UInt16} {index index' : UInt16} {text text' : String} :
      SameOperands texts texts' (.ok ⟨opcode, operands, index, text⟩)
        (.ok ⟨opcode, operands, index', text'⟩)
  | error {diagnostic diagnostic' : Diagnostic}
      (same : SameFault texts texts' diagnostic diagnostic') :
      SameOperands texts texts' (.error diagnostic) (.error diagnostic')

structure ReadAlike (texts texts' : List String) : Prop where
  symbols : (reading texts).symbols = (reading texts').symbols
  count : (reading texts).instructionCount = (reading texts').instructionCount
  diagnostics : List.Forall₂ (SameFault texts texts') (reading texts).diagnostics.toList
    (reading texts').diagnostics.toList
  results : ∀ symbols, List.Forall₂ (SameOperands texts texts')
    ((reading texts).lines.toList.filterMap (Session.resolveLine symbols))
    ((reading texts').lines.toList.filterMap (Session.resolveLine symbols))

section

variable {texts texts' : List String} {text text' : String}

theorem SameFault.symm {diagnostic diagnostic' : Diagnostic}
    (same : SameFault texts texts' diagnostic diagnostic') :
    SameFault texts' texts diagnostic' diagnostic :=
  ⟨same.place.symm, same.overflow.symm⟩

theorem SameOperands.symm {result result' : Except Diagnostic ResolvedLine}
    (same : SameOperands texts texts' result result') :
    SameOperands texts' texts result' result := by
  cases same with
  | ok => exact .ok
  | error same => exact .error same.symm

theorem SameFault.append {diagnostic diagnostic' : Diagnostic}
    (same : SameFault texts texts' diagnostic diagnostic') (more more' : List String) :
    SameFault (texts ++ more) (texts' ++ more') diagnostic diagnostic' :=
  ⟨same.place.append more more', same.overflow⟩

theorem SameOperands.append {result result' : Except Diagnostic ResolvedLine}
    (same : SameOperands texts texts' result result') (more more' : List String) :
    SameOperands (texts ++ more) (texts' ++ more') result result' := by
  cases same with
  | ok => exact .ok
  | error same => exact .error (same.append more more')

theorem SamePlace.concat (hlength : (wordedLines texts).length = (wordedLines texts').length)
    (hsome : Token.ofLine text ≠ []) (hsome' : Token.ofLine text' ≠ []) :
    SamePlace (texts ++ [text]) (texts' ++ [text']) (text, texts.length + 1)
      (text', texts'.length + 1) := by
  refine ⟨(wordedLines texts).length, ?_, ?_⟩
  · rw [wordedLines_concat_of_ne_nil hsome, List.getElem?_concat_length]
  · rw [wordedLines_concat_of_ne_nil hsome', hlength, List.getElem?_concat_length]

theorem resolveLine_of_sameWords {tokens tokens' : List Token} (alike : SameWords tokens tokens')
    {number number' : Nat} (place : SamePlace texts texts' (text, number) (text', number'))
    (symbols : Symbols) (content : LineContent) :
    List.Forall₂ (SameOperands texts texts')
      ([SourceLine.mk number text tokens content].filterMap (Session.resolveLine symbols))
      ([SourceLine.mk number' text' tokens' content].filterMap (Session.resolveLine symbols)) := by
  cases content with
  | instruction opcode index =>
      cases read : Operand.ofTokens symbols opcode tokens with
      | ok operands =>
          have read' := Operand.ofTokens_of_sameWords alike read
          simp only [List.filterMap_cons, List.filterMap_nil, Session.resolveLine, read, read']
          exact .cons .ok .nil
      | error mistake =>
          cases read' : Operand.ofTokens symbols opcode tokens' with
          | ok operands =>
              rw [Operand.ofTokens_of_sameWords alike.symm read'] at read
              cases read
          | error mistake' =>
              have same := Operand.overflow?_of_sameWords alike read read'
              simp only [List.filterMap_cons, List.filterMap_nil, Session.resolveLine, read, read']
              exact .cons (.error ⟨place, same⟩) .nil
  | _ => exact .nil

namespace ReadAlike

theorem nil : ReadAlike [] [] where
  symbols := rfl
  count := rfl
  diagnostics := .nil
  results _ := .nil

theorem symm (alike : ReadAlike texts texts') : ReadAlike texts' texts where
  symbols := alike.symbols.symm
  count := alike.count.symm
  diagnostics := List.Forall₂.flip (alike.diagnostics.imp fun _ _ => SameFault.symm)
  results symbols := List.Forall₂.flip ((alike.results symbols).imp fun _ _ => SameOperands.symm)

theorem left (alike : ReadAlike texts texts') (hnone : Token.ofLine text = []) :
    ReadAlike (texts ++ [text]) texts' := by
  have silent : Session.effect (reading texts).symbols (reading texts).instructionCount
      (Token.ofLine text) = .ok (.blank, (reading texts).symbols, []) := by
    rw [hnone]
    rfl
  have hread := Session.reading_concat_of_ok silent
  constructor
  · rw [hread]
    exact alike.symbols
  · rw [hread]
    exact alike.count
  · rw [hread]
    exact alike.diagnostics.imp fun _ _ same => by simpa using same.append [text] []
  · intro symbols
    rw [hread, Array.toList_push, List.filterMap_append]
    have last : [SourceLine.mk (texts.length + 1) text (Token.ofLine text)
        .blank].filterMap (Session.resolveLine symbols) = [] := rfl
    rw [last, List.append_nil]
    exact (alike.results symbols).imp fun _ _ same => by simpa using same.append [text] []

theorem right (alike : ReadAlike texts texts') (hnone : Token.ofLine text' = []) :
    ReadAlike texts (texts' ++ [text']) :=
  (alike.symm.left hnone).symm

theorem both (alike : ReadAlike texts texts')
    (place : SamePlace (texts ++ [text]) (texts' ++ [text']) (text, texts.length + 1)
      (text', texts'.length + 1))
    (words : SameWords (Token.ofLine text) (Token.ofLine text')) :
    ReadAlike (texts ++ [text]) (texts' ++ [text']) := by
  have diagnostics := alike.diagnostics.imp fun _ _ same => same.append [text] [text']
  have results (symbols : Symbols) (content : LineContent) := List.rel_append
    ((alike.results symbols).imp fun _ _ same => same.append [text] [text'])
    (resolveLine_of_sameWords words place symbols content)
  simp only [← List.filterMap_append] at results
  rcases Session.effect_cases words (reading texts).symbols (reading texts).instructionCount with
    ⟨content, after, events, enacted, enacted'⟩ | ⟨mistake, mistake', failed, failed', same⟩
  · rw [alike.symbols, alike.count] at enacted'
    have hread := Session.reading_concat_of_ok enacted
    have hread' := Session.reading_concat_of_ok enacted'
    constructor
    · rw [hread, hread']
    · rw [hread, hread', alike.count]
    · rw [hread, hread']
      exact diagnostics
    · intro symbols
      rw [hread, hread', Array.toList_push, Array.toList_push]
      exact results symbols content
  · rw [alike.symbols, alike.count] at failed'
    have hread := Session.reading_concat_of_error failed
    have hread' := Session.reading_concat_of_error failed'
    constructor
    · rw [hread, hread']
      exact alike.symbols
    · rw [hread, hread']
      exact alike.count
    · rw [hread, hread', Array.toList_push, Array.toList_push]
      exact List.rel_append diagnostics (.cons ⟨place, same⟩ .nil)
    · intro symbols
      rw [hread, hread', Array.toList_push, Array.toList_push]
      exact results symbols .rejected

end ReadAlike

theorem InStep.readAlike (steps : InStep texts texts') : ReadAlike texts texts' := by
  induction steps with
  | nil => exact .nil
  | left _ hnone ih => exact ih.left hnone
  | right _ hnone ih => exact ih.right hnone
  | both before hsome hsome' alike ih =>
      exact ih.both (.concat before.length_eq hsome hsome') alike

/-! ## Finishing -/

theorem sorted_of_sameFault {diagnostics diagnostics' : List Diagnostic}
    (same : List.Forall₂ (SameFault texts texts') diagnostics diagnostics') :
    List.Forall₂ (SameFault texts texts') (Diagnostic.sorted diagnostics)
      (Diagnostic.sorted diagnostics') := by
  obtain ⟨hlength, related⟩ := List.forall₂_iff_zip.1 same
  let before (a b : Diagnostic × Diagnostic) : Bool := a.1.line ≤ b.1.line
  have sorted_map (side : Diagnostic × Diagnostic → Diagnostic)
      (order : ∀ a ∈ diagnostics.zip diagnostics', ∀ b ∈ diagnostics.zip diagnostics',
        before a b = decide ((side a).line ≤ (side b).line)) :
      ((diagnostics.zip diagnostics').mergeSort before).map side =
        Diagnostic.sorted ((diagnostics.zip diagnostics').map side) :=
    List.map_mergeSort order
  have first := sorted_map Prod.fst fun _ _ _ _ => rfl
  have second := sorted_map Prod.snd fun a ha b hb =>
    decide_eq_decide.2 ⟨(related ha).place.number_le (related hb).place,
      (related ha).symm.place.number_le (related hb).symm.place⟩
  rw [List.map_fst_zip (Nat.le_of_eq hlength)] at first
  rw [List.map_snd_zip (Nat.le_of_eq hlength.symm)] at second
  rw [← first, ← second, List.forall₂_map_left_iff, List.forall₂_map_right_iff, List.forall₂_same]
  intro pair member
  exact related (List.mem_mergeSort.1 member)

theorem failures_of_sameOperands {results results' : List (Except Diagnostic ResolvedLine)}
    (same : List.Forall₂ (SameOperands texts texts') results results') :
    List.Forall₂ (SameFault texts texts') (Session.failures results)
      (Session.failures results') := by
  induction same with
  | nil => exact .nil
  | cons head _ ih =>
      cases head with
      | ok => exact ih
      | error same => exact .cons same ih

theorem program_of_sameOperands {results results' : List (Except Diagnostic ResolvedLine)}
    (same : List.Forall₂ (SameOperands texts texts') results results') :
    (Session.program results).map (fun line => (line.opcode, line.operands)) =
      (Session.program results').map fun line => (line.opcode, line.operands) := by
  induction same with
  | nil => rfl
  | cons head _ ih =>
      cases head with
      | ok => simpa using ih
      | error same => exact ih

theorem Session.finish_congr {session other : Session} (clean : session.mistakes = [])
    (clean' : other.mistakes = []) (data : session.symbols.data = other.symbols.data)
    (code : (Session.program session.resolved).map (fun line => (line.opcode, line.operands)) =
      (Session.program other.resolved).map fun line => (line.opcode, line.operands)) :
    session.finish.result = other.finish.result := by
  have slots : (Session.program session.resolved).length =
      (Session.program other.resolved).length := by
    simpa using congrArg List.length code
  unfold finish
  simp only [mistakes_eq_nil_iff.1 clean, mistakes_eq_nil_iff.1 clean', List.isEmpty_nil, if_true,
    code, data, slots]
  cases encodeProgram ((Session.program other.resolved).map fun line =>
      (line.opcode, line.operands)) other.symbols.data with
  | error e => rfl
  | ok bytes =>
      cases hfits : Image.ofBytes? bytes
          (some ⟨(Session.program other.resolved).length, other.symbols.data.length⟩) with
      | none => simp only [hfits]
      | some image => simp only [hfits]

namespace ReadAlike

theorem resolved (alike : ReadAlike texts texts') :
    List.Forall₂ (SameOperands texts texts') (reading texts).resolved
      (reading texts').resolved := by
  unfold Session.resolved
  rw [alike.symbols, alike.count]
  exact alike.results _

theorem diagnostics_append_failures (alike : ReadAlike texts texts') :
    List.Forall₂ (SameFault texts texts')
      ((reading texts).diagnostics.toList ++ Session.failures (reading texts).resolved)
      ((reading texts').diagnostics.toList ++ Session.failures (reading texts').resolved) :=
  List.rel_append alike.diagnostics (failures_of_sameOperands alike.resolved)

theorem mistakes (alike : ReadAlike texts texts') :
    List.Forall₂ (SameFault texts texts') (reading texts).mistakes (reading texts').mistakes :=
  sorted_of_sameFault alike.diagnostics_append_failures

/-- If a literal overflows in one of the sources, one does in the other. -/
theorem exists_overflowsAt (alike : ReadAlike texts texts') {program program' : Program}
    (follows : (reading texts).Follows texts program)
    (follows' : (reading texts').Follows texts' program')
    (overflows : ∃ k text, program.OverflowsAt texts k text) :
    ∃ k text, program'.OverflowsAt texts' k text := by
  obtain ⟨diagnostic, member, found⟩ := follows.overflowsAt_iff.2 ⟨rfl, overflows⟩
  obtain ⟨i, hi⟩ := List.mem_iff_getElem?.1 member
  obtain ⟨diagnostic', hi', same⟩ :=
    exists_getElem?_eq_of_forall₂ alike.diagnostics_append_failures hi
  rw [same.overflow] at found
  exact (follows'.overflowsAt_iff.1 ⟨diagnostic', List.mem_of_getElem? hi', found⟩).2

end ReadAlike

end

/--
The same image, or failures for the same reason: of the same size, or with diagnostics about lines
in the same places, or because a literal overflows in both.
-/
inductive SameOutcome (texts texts' : List String) :
    Except AssemblyError Image → Except AssemblyError Image → Prop where
  | image (image : Image) : SameOutcome texts texts' (.ok image) (.ok image)
  | mistakes {diagnostics diagnostics' : List Diagnostic}
      (same : List.Forall₂ (SameFault texts texts') diagnostics diagnostics') :
      SameOutcome texts texts' (.error (.mistakes diagnostics)) (.error (.mistakes diagnostics'))
  | tooLarge (size : Nat) :
      SameOutcome texts texts' (.error (.tooLarge size)) (.error (.tooLarge size))
  | overflow (least : HoldLeast texts) (least' : HoldLeast texts') :
      SameOutcome texts texts' (.error (.overflow .negation)) (.error (.overflow .negation))

/-- Sources whose lines with words are spelt alike have the same outcome. -/
theorem assemble_respelled {source other : String}
    (alike : SpeltAlike (Text.lines source) (Text.lines other)) :
    SameOutcome (Text.lines source) (Text.lines other) (assemble source) (assemble other) := by
  have read := alike.inStep.readAlike
  have hsource : assemble source = (reading (Text.lines source)).finish.result := rfl
  have hother : assemble other = (reading (Text.lines other)).finish.result := rfl
  obtain ⟨program, follows⟩ := Session.exists_follows (Text.lines source)
  obtain ⟨program', follows'⟩ := Session.exists_follows (Text.lines other)
  rw [hsource, hother]
  by_cases overflows : ∃ k text, program.OverflowsAt (Text.lines source) k text
  · have overflows' := read.exists_overflowsAt follows follows' overflows
    rw [follows.finish_of_overflowsAt overflows, follows'.finish_of_overflowsAt overflows']
    exact .overflow (Session.holdLeast_of_overflowsAt follows.scans overflows)
      (Session.holdLeast_of_overflowsAt follows'.scans overflows')
  have overflows' := mt (read.symm.exists_overflowsAt follows' follows) overflows
  simp only [not_exists] at overflows overflows'
  have mistakes := read.mistakes
  by_cases clean : (reading (Text.lines source)).mistakes = []
  · rw [clean, List.forall₂_nil_left_iff] at mistakes
    rw [Session.finish_congr clean mistakes (by rw [read.symbols])
      (program_of_sameOperands read.resolved)]
    rcases follows'.finish_of_mistakes_eq_nil mistakes with ⟨_, image, finished, _⟩ | ⟨_, finished⟩
    · rw [finished]
      exact .image image
    · rw [finished]
      exact .tooLarge program'.size
  · have clean' : (reading (Text.lines other)).mistakes ≠ [] := by
      intro clean'
      rw [clean', List.forall₂_nil_right_iff] at mistakes
      exact clean mistakes
    rw [follows.finish_of_mistakes_ne_nil overflows clean,
      follows'.finish_of_mistakes_ne_nil overflows' clean']
    exact .mistakes mistakes

def plainLoop : String :=
  "LDI r1 0x1f\nloop:\n#x 'a'\nLDI r2 x\nJMP loop"

def wildLoop : String :=
  "; c\r\n\tldi R1,0X1F\r\n\r\nLOOP: ; c\r\n#X 'a'\r\nLdi r2,X\r\njmp, Loop\r\n"

/-- A comment, a blank line, commas, other line ends and other letters change nothing. -/
theorem assemble_respelled_loop :
    SpeltAlike (Text.lines plainLoop) (Text.lines wildLoop) ∧
      ∃ image, image.bytes = [0xf9, 0x60, 0x0a, 0x63, 0x02, 0x68] ∧
        assemble plainLoop = .ok image ∧ assemble wildLoop = .ok image := by
  have alike : SpeltAlike (Text.lines plainLoop) (Text.lines wildLoop) := by decide +kernel
  have hbytes : (assemble plainLoop).toOption.map Image.bytes =
      some [0xf9, 0x60, 0x0a, 0x63, 0x02, 0x68] := by decide +kernel
  obtain ⟨image, assembled, himage⟩ := exists_of_map_toOption hbytes
  refine ⟨alike, image, himage, assembled, ?_⟩
  have outcome := assemble_respelled alike
  rw [assembled] at outcome
  generalize assemble wildLoop = result at outcome ⊢
  cases outcome
  rfl

/-- Two spellings of a line that neither has an image nor is a mistake. -/
theorem assemble_respelled_overflows :
    SpeltAlike (Text.lines "#d -0x-8000000000000000") (Text.lines "#D, -0X-8000000000000000 ; n") ∧
      assemble "#d -0x-8000000000000000" = .error (.overflow .negation) ∧
      assemble "#D, -0X-8000000000000000 ; n" = .error (.overflow .negation) := by
  decide +kernel

end Redstone

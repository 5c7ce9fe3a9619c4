import Mathlib.Data.List.Nodup
import Redstone.Proofs.Program.Faults

/-!
# Numbers of the instructions

The lines that are instructions are numbered from 0 on in sixteen bits, and the numbers come round
after 65536 of them. What is told of each when all words are known is looked up by its number: up
to there it is the word of the line itself, and beyond the word of the line that had the number
first.
-/

namespace Redstone

def SourceLine.index? (line : SourceLine) : Option UInt16 :=
  match line.content with
  | .instruction _ index => some index
  | _ => none

theorem SourceLine.index?_eq_some_iff {line : SourceLine} {index : UInt16} :
    line.index? = some index ↔ ∃ opcode, line.content = .instruction opcode index := by
  unfold index?
  cases line.content <;> simp

/-- What is told of an instruction with some number and word, next to the text of a line. -/
def AssemblyReport.listed (number : Nat) (word : UInt16) (text : String) : Log.Record :=
  Log.Record.tagged "stage" "assembly"
    ⟨.debug, "assembled",
      [("index", toString number), ("address", Numeral.hex 4 (2 * number)),
        ("word", Numeral.binary16 word), ("source", Text.trim text)]⟩

/-- The word of a line: its opcode with the numbers that its operands come to. -/
def Program.GivesWord (program : Program) (line : SourceLine) (word : UInt16) : Prop :=
  ∃ opcode index first rest values, line.content = .instruction opcode index ∧
    line.tokens = first :: rest ∧
    List.Forall₂ (fun text (value : UInt16) => Yields program text value.toNat)
      (opcode.expand (rest.map Token.text)) values ∧
    FitFields opcode.fields values ∧ word = Word.pack opcode (values.map UInt16.toNat)

namespace Session

def instructionLines (session : Session) : List SourceLine :=
  session.lines.toList.filter (·.index?.isSome)

def listing (session : Session) : List Log.Record :=
  (session.finish.reports.toList.map AssemblyReport.record).filter (·.message = "assembled")

/-! ## Reading -/

variable {session : Session}

/-- An accepted instruction gets the next number, and any other line gets none. -/
theorem index?_of_enact {symbols after : Symbols} {count : Nat} {statement : Statement}
    {content : LineContent} {events : List SymbolEvent}
    (enacted : enact symbols count statement = .ok (content, after, events))
    (number : Nat) (text : String) (tokens : List Token) :
    [(⟨number, text, tokens, content⟩ : SourceLine)].filterMap SourceLine.index? =
      (List.range' count (instructionsIn content)).map UInt16.ofNat := by
  cases statement with
  | blank =>
      cases enacted
      rfl
  | instruction opcode =>
      cases enacted
      rfl
  | label name token =>
      simp only [enact] at enacted
      split at enacted
      · cases enacted
        rfl
      · cases enacted
  | declaration kind name value nameToken valueToken =>
      simp only [enact] at enacted
      split at enacted
      · cases enacted
        rfl
      · cases enacted

/-- The numbers are in order and none is left out, and nothing has been told of any word yet. -/
structure Numbered (session : Session) : Prop where
  indices : session.lines.toList.filterMap SourceLine.index? =
    (List.range session.instructionCount).map UInt16.ofNat
  unlisted : ∀ report ∈ session.reports, report.record.message ≠ "assembled"

theorem numbered_empty : empty.Numbered where
  indices := rfl
  unlisted := nofun

theorem message_symbol_ne (event : SymbolEvent) :
    (AssemblyReport.symbol event).record.message ≠ "assembled" := by
  cases event <;> exact of_decide_eq_true rfl

theorem message_mistake_ne (line : Nat) (message : String) :
    (AssemblyReport.mistake line message).record.message ≠ "assembled" :=
  of_decide_eq_true rfl

theorem Numbered.readLine (numbered : session.Numbered) (text : String) :
    (session.readLine text).Numbered := by
  obtain ⟨symbols, lines, count, diagnostics, reports⟩ := session
  obtain ⟨indices, unlisted⟩ := numbered
  unfold Session.readLine
  dsimp only
  split
  · next content after events effect =>
      split at effect
      · next statement read =>
          refine ⟨?_, fun report member => ?_⟩
          · rw [Array.toList_push, List.filterMap_append, indices, index?_of_enact effect,
              ← List.map_append, List.range_eq_range', List.range_eq_range',
              ← List.range'_append_1, Nat.zero_add]
          · rw [← Array.mem_toList_iff, Array.toList_appendList, List.mem_append, List.mem_map,
              Array.mem_toList_iff] at member
            rcases member with before | ⟨event, -, rfl⟩
            · exact unlisted report before
            · exact message_symbol_ne event
      · cases effect
  · refine ⟨?_, fun report member => ?_⟩
    · rw [Array.toList_push, List.filterMap_append, indices]
      exact List.append_nil _
    · rcases Array.mem_push.1 member with before | rfl
      · exact unlisted report before
      · exact message_mistake_ne _ _

theorem numbered_reading (texts : List String) : (reading texts).Numbered := by
  induction texts using List.reverseRecOn with
  | nil => exact numbered_empty
  | append_singleton texts text ih =>
      rw [reading, List.foldl_concat]
      exact ih.readLine text

theorem Numbered.instructionCount_eq (numbered : session.Numbered) :
    session.instructionCount = session.instructionLines.length := by
  have hlength := congrArg List.length numbered.indices
  rw [List.length_map, List.length_range, List.length_filterMap_eq_countP] at hlength
  rw [← hlength, instructionLines, List.countP_eq_length_filter]

/-- A number tells how many instruction lines stand in front of its line. -/
theorem Numbered.index_eq (numbered : session.Numbered) {before after : List SourceLine}
    {line : SourceLine} {index : UInt16} (split : session.lines.toList = before ++ line :: after)
    (hindex : line.index? = some index) :
    index = UInt16.ofNat (before.filterMap SourceLine.index?).length := by
  have indices := numbered.indices
  rw [split, List.filterMap_append, List.filterMap_cons_some hindex] at indices
  have found : ((List.range session.instructionCount).map UInt16.ofNat)[
      (before.filterMap SourceLine.index?).length]? = some index := by
    rw [← indices, List.getElem?_append_right (Nat.le_refl _), Nat.sub_self,
      List.getElem?_cons_zero]
  rw [List.getElem?_map] at found
  obtain ⟨number, hnumber, rfl⟩ := Option.map_eq_some_iff.1 found
  obtain ⟨_, rfl⟩ := List.getElem?_eq_some_iff.1 hnumber
  rw [List.getElem_range]

/-! ## Finishing -/

variable {symbols : Symbols} {program : Program}

/-- An instruction line whose operands have been resolved. -/
structure ResolvesTo (symbols : Symbols) (line : SourceLine) (resolved : ResolvedLine) : Prop where
  content : line.content = .instruction resolved.opcode resolved.index
  counted : ∃ first rest, line.tokens = first :: rest ∧ resolved.opcode.Takes rest.length
  operands : Operand.ofTokens symbols resolved.opcode line.tokens = .ok resolved.operands
  source : resolved.source = line.text

theorem ResolvesTo.index?_eq {line : SourceLine} {resolved : ResolvedLine}
    (resolvesTo : ResolvesTo symbols line resolved) : line.index? = some resolved.index :=
  SourceLine.index?_eq_some_iff.2 ⟨_, resolvesTo.content⟩

/-- A line is no instruction, or it fails, or it is resolved. -/
theorem resolveLine_cases {line : SourceLine} {said : Line} (shows : line.Shows said)
    (symbols : Symbols) :
    (line.index? = none ∧ resolveLine symbols line = none) ∨
      (∃ diagnostic, resolveLine symbols line = some (.error diagnostic)) ∨
      ∃ resolved, resolveLine symbols line = some (.ok resolved) ∧
        ResolvesTo symbols line resolved := by
  obtain ⟨number, text, tokens, content⟩ := line
  cases content with
  | instruction opcode index =>
      obtain ⟨first, rest, htokens, count, -⟩ := shows
      cases found : Operand.ofTokens symbols opcode tokens with
      | error mistake =>
          exact .inr (.inl ⟨⟨number, text, mistake⟩, by simp only [resolveLine, found]⟩)
      | ok operands =>
          exact .inr (.inr ⟨⟨opcode, operands, index, text⟩, by simp only [resolveLine, found],
            rfl, ⟨first, rest, htokens, count⟩, found, rfl⟩)
  | _ => exact .inl ⟨rfl, rfl⟩

/-- If no line fails, all instruction lines are resolved, in their order. -/
theorem forall₂_resolvesTo {lines : List SourceLine} {part : Program}
    (shown : List.Forall₂ SourceLine.Shows lines part)
    (settled : failures (lines.filterMap (resolveLine symbols)) = []) :
    List.Forall₂ (ResolvesTo symbols) (lines.filter (·.index?.isSome))
      (Session.program (lines.filterMap (resolveLine symbols))) := by
  induction shown with
  | nil => exact .nil
  | @cons line said lines part shows _ ih =>
      rcases resolveLine_cases shows symbols with
        ⟨unnumbered, none⟩ | ⟨diagnostic, failed⟩ | ⟨resolved, outcome, resolvesTo⟩
      · rw [List.filterMap_cons_none none] at settled ⊢
        rw [List.filter_cons_of_neg (by simp [unnumbered])]
        exact ih settled
      · rw [List.filterMap_cons_some failed, failures_error] at settled
        cases settled
      · rw [List.filterMap_cons_some outcome] at settled ⊢
        rw [List.filter_cons_of_pos (by simp [resolvesTo.index?_eq])]
        exact .cons resolvesTo (ih settled)

/-- A resolved line is encoded to the word that its operands come to. -/
theorem ResolvesTo.givesWord {line : SourceLine} {resolved : ResolvedLine} {word : UInt16}
    (resolvesTo : ResolvesTo (symbols.place program.slotCount) line resolved)
    (tracks : symbols.Tracks program)
    (encoded : Word.encode resolved.opcode resolved.operands = .ok word) :
    program.GivesWord line word := by
  obtain ⟨content, ⟨first, rest, htokens, count⟩, operands, -⟩ := resolvesTo
  rw [htokens, Operand.ofTokens_eq_ok_iff tracks count] at operands
  obtain ⟨fit, packed⟩ := (Word.encode_eq_ok_iff _ _ _).1 encoded
  exact ⟨_, _, first, rest, _, content, htokens, operands.1, fit, packed⟩

theorem filterMap_index?_instructionLines (session : Session) :
    session.instructionLines.filterMap SourceLine.index? =
      session.lines.toList.filterMap SourceLine.index? := by
  rw [instructionLines, List.filterMap_filter]
  refine List.filterMap_congr fun line _ => ?_
  cases line.index? <;> rfl

theorem map_index_of_resolvesTo {lines : List SourceLine} {code : List ResolvedLine}
    (resolved : List.Forall₂ (ResolvesTo symbols) lines code) :
    code.map ResolvedLine.index = lines.filterMap SourceLine.index? := by
  induction resolved with
  | nil => rfl
  | cons head _ ih =>
      rw [List.filterMap_cons_some head.index?_eq, List.map_cons, ih]

/-- Resolved lines keep the numbers that they were read with. -/
theorem Numbered.index_of_resolvesTo (numbered : session.Numbered) {code : List ResolvedLine}
    (resolved : List.Forall₂ (ResolvesTo symbols) session.instructionLines code) {k : Nat}
    {line : ResolvedLine} (hline : code[k]? = some line) : line.index = UInt16.ofNat k := by
  have found : (code.map ResolvedLine.index)[k]? = some line.index := by
    rw [List.getElem?_map, hline, Option.map_some]
  rw [map_index_of_resolvesTo resolved, filterMap_index?_instructionLines, numbered.indices,
    List.getElem?_map] at found
  obtain ⟨number, hnumber, hindex⟩ := Option.map_eq_some_iff.1 found
  obtain ⟨_, rfl⟩ := List.getElem?_eq_some_iff.1 hnumber
  rw [← hindex, List.getElem_range]

/-- What is told of a line has the word at its number, whichever line that word comes from. -/
theorem record_assembled {words : List UInt16} (data : List UInt8) {k : Nat}
    (inside : k % 65536 < words.length) (text : String) :
    let bytes := (words.flatMap Word.toBytes ++ data).toArray
    let index := UInt16.ofNat k
    (AssemblyReport.assembled index (Word.ofBytes (bytes.getD (2 * index.toNat) 0)
      (bytes.getD (2 * index.toNat + 1) 0)) text).record =
      AssemblyReport.listed (k % 65536) (words.getD (k % 65536) 0) text := by
  intro bytes index
  have hindex : index.toNat = k % 65536 := UInt16.toNat_ofNat'
  have hshown : toString index = toString (k % 65536) := congrArg toString hindex
  have hbytes (i : Nat) : bytes.getD i 0 = (words.flatMap Word.toBytes ++ data).getD i 0 := by
    rw [Array.getD_eq_getD_getElem?, List.getElem?_toArray, List.getD_eq_getElem?_getD]
  have hword := ofBytes_getD_flatMap_toBytes data (List.getElem?_eq_getElem inside)
  rw [hbytes, hbytes, hindex, hword, List.getD_eq_getElem?_getD, List.getElem?_eq_getElem inside,
    Option.getD_some]
  simp only [AssemblyReport.record, AssemblyReport.bareRecord, AssemblyReport.listed, hshown,
    hindex]

/-- Nothing but the words is listed, and each of them is. -/
theorem listing_eq {bytes : List UInt8} (numbered : session.Numbered)
    (clean : session.mistakes = [])
    (encoded : encodeProgram ((Session.program session.resolved).map fun line =>
      (line.opcode, line.operands)) session.symbols.data = .ok bytes) :
    session.listing =
      (assembledReports (Session.program session.resolved) bytes).map AssemblyReport.record := by
  have clean := mistakes_eq_nil_iff.1 clean
  have settled : failures session.resolved = [] := (List.append_eq_nil_iff.1 clean).2
  have hreports : ∃ complete : AssemblyReport, complete.record.message ≠ "assembled" ∧
      session.finish.reports.toList = session.reports.toList ++
        (session.symbols.placementEvents session.instructionCount).map AssemblyReport.symbol ++
          assembledReports (Session.program session.resolved) bytes ++ [complete] := by
    unfold finish
    simp only [clean, List.isEmpty_nil, if_true, encoded]
    split <;>
      refine ⟨_, ?_, by simp only [Array.toList_appendList, settled, List.map_nil,
        List.append_nil]; rfl⟩ <;> exact of_decide_eq_true rfl
  obtain ⟨complete, hcomplete, hreports⟩ := hreports
  have listed : ∀ report ∈ assembledReports (Session.program session.resolved) bytes,
      report.record.message = "assembled" := by
    intro report member
    obtain ⟨line, -, rfl⟩ := List.mem_map.1 member
    rfl
  have unlisted : ∀ report ∈ session.reports.toList ++
      (session.symbols.placementEvents session.instructionCount).map AssemblyReport.symbol,
      report.record.message ≠ "assembled" := by
    intro report member
    rcases List.mem_append.1 member with told | placed
    · exact numbered.unlisted report (Array.mem_toList_iff.1 told)
    · obtain ⟨event, -, rfl⟩ := List.mem_map.1 placed
      exact message_symbol_ne event
  unfold listing
  rw [hreports, List.filter_map, List.filter_append, List.filter_append,
    List.filter_eq_nil_iff.2 fun report member => by simpa using unlisted report member,
    List.filter_eq_self.2 fun report member => by simpa using listed report member,
    List.filter_eq_nil_iff.2 fun report member => by
      simpa [List.mem_singleton.1 member] using hcomplete,
    List.nil_append, List.append_nil]

/-- All words are listed when nothing is wrong, each at the number of its line. -/
theorem Follows.exists_listing_eq {texts : List String} (follows : session.Follows texts program)
    (numbered : session.Numbered) (clean : session.mistakes = []) :
    ∃ words, List.Forall₂ program.GivesWord session.instructionLines words ∧
      session.listing = session.instructionLines.mapIdx fun k line =>
        AssemblyReport.listed (k % 65536) (words.getD (k % 65536) 0) line.text := by
  have settled : failures session.resolved = [] :=
    (List.append_eq_nil_iff.1 (mistakes_eq_nil_iff.1 clean)).2
  have resolved : List.Forall₂ (ResolvesTo (session.symbols.place program.slotCount))
      session.instructionLines (Session.program session.resolved) := by
    rw [← follows.tracks.count]
    exact forall₂_resolvesTo follows.tracks.lines settled
  have fit : ∀ line ∈ (Session.program session.resolved).map fun line =>
      (line.opcode, line.operands), FitFields line.1.fields line.2 := by
    intro _ member
    obtain ⟨line, inside, rfl⟩ := List.mem_map.1 member
    exact follows.fit_of_mem_program inside
  obtain ⟨bytes, encoded, -⟩ := exists_encodeProgram_eq_ok fit session.symbols.data
  obtain ⟨words, hwords, hbytes⟩ := (encodeProgram_eq_ok_iff _ _ _).1 encoded
  rw [List.forall₂_map_left_iff] at hwords
  have slots : session.instructionLines.length = words.length := by
    rw [resolved.length_eq, hwords.length_eq]
  refine ⟨words, ?_, ?_⟩
  · refine List.forall₂_iff_get.2 ⟨slots, fun k hline hword => ?_⟩
    have hmiddle : k < (Session.program session.resolved).length := by
      rwa [hwords.length_eq]
    exact (List.forall₂_iff_get.1 resolved |>.2 k hline hmiddle).givesWord follows.tracks.symbols
      (List.forall₂_iff_get.1 hwords |>.2 k hmiddle hword)
  · rw [listing_eq numbered clean encoded, hbytes]
    refine List.ext_getElem ?_ fun k hleft hright => ?_
    · simp only [assembledReports, List.length_map, List.length_mapIdx, resolved.length_eq]
    · rw [List.length_mapIdx] at hright
      have hmiddle : k < (Session.program session.resolved).length := by
        rwa [← resolved.length_eq]
      have hsource := (List.forall₂_iff_get.1 resolved |>.2 k hright hmiddle).source
      have hnumber := numbered.index_of_resolvesTo resolved (List.getElem?_eq_getElem hmiddle)
      have inside : k % 65536 < words.length := by omega
      simp only [List.getElem_map, List.getElem_mapIdx, assembledReports, hnumber]
      rw [List.get_eq_getElem, List.get_eq_getElem] at hsource
      rw [hsource]
      exact record_assembled session.symbols.data inside _

end Session

/--
The instruction lines of all that a session is fed are numbered in the order in which they stand,
from 0 on and modulo 65536. If no line has a mistake, each of them is told of once, in that order:
its text, next to its number, the address that this makes and the word of the instruction line that
stands at the place of that number. Up to 65536 instruction lines this is the line itself, and all
numbers differ.
-/
theorem Session.fed_numbering (sources : List String) :
    (∀ before line after index, (fed sources).lines.toList = before ++ line :: after →
        line.index? = some index →
        index.toNat = (before.filterMap SourceLine.index?).length % 65536) ∧
      ((fed sources).instructionLines.length ≤ 65536 →
        ((fed sources).lines.toList.filterMap SourceLine.index?).Nodup) ∧
      ∃ program, Scans (sources.flatMap Text.lines) program ∧
        ((∀ diagnostics, (fed sources).finish.result ≠ .error (.mistakes diagnostics)) →
          (∀ cause, (fed sources).finish.result ≠ .error (.overflow cause)) →
          ∃ words, List.Forall₂ program.GivesWord (fed sources).instructionLines words ∧
            ((fed sources).listing = (fed sources).instructionLines.mapIdx fun k line =>
              AssemblyReport.listed (k % 65536) (words.getD (k % 65536) 0) line.text) ∧
            ((fed sources).instructionLines.length ≤ 65536 →
              (fed sources).listing = ((fed sources).instructionLines.zip words).mapIdx
                fun k (line, word) => AssemblyReport.listed k word line.text)) := by
  rw [fed_eq_reading]
  have numbered := numbered_reading (sources.flatMap Text.lines)
  obtain ⟨program, follows⟩ := exists_follows (sources.flatMap Text.lines)
  refine ⟨fun before line after index hsplit hindex => ?_, fun few => ?_, program, follows.scans,
    fun accepted plain => ?_⟩
  · rw [numbered.index_eq hsplit hindex, UInt16.toNat_ofNat']
  · have hcount : (reading (sources.flatMap Text.lines)).instructionCount ≤ 65536 := by
      rwa [numbered.instructionCount_eq]
    rw [numbered.indices]
    refine List.Nodup.map_on (fun i hi j hj same => ?_) List.nodup_range
    have hmod := congrArg UInt16.toNat same
    rw [UInt16.toNat_ofNat', UInt16.toNat_ofNat'] at hmod
    have := List.mem_range.1 hi
    have := List.mem_range.1 hj
    omega
  · have clean : (reading (sources.flatMap Text.lines)).mistakes = [] := by
      by_contra wrong
      rcases AssemblyError.ofDiagnostics_cases _ with ⟨-, -, cause, -, outcome⟩ | ⟨-, outcome⟩
      · exact plain cause ((finish_of_mistakes_ne_nil wrong).trans (congrArg Except.error outcome))
      · exact accepted _ ((finish_of_mistakes_ne_nil wrong).trans (congrArg Except.error outcome))
    obtain ⟨words, given, hlisting⟩ := follows.exists_listing_eq numbered clean
    refine ⟨words, given, hlisting, fun few => ?_⟩
    have hlength := given.length_eq
    rw [hlisting]
    refine List.ext_getElem ?_ fun k hleft hright => ?_
    · rw [List.length_mapIdx, List.length_mapIdx, List.length_zip, ← hlength, Nat.min_self]
    · rw [List.length_mapIdx] at hleft
      have hmod : k % 65536 = k := Nat.mod_eq_of_lt (by omega)
      simp only [List.getElem_mapIdx, List.getElem_zip, hmod]
      rw [List.getD_eq_getElem?_getD, List.getElem?_eq_getElem (hlength ▸ hleft),
        Option.getD_some]

/-! ## One line more than there are numbers -/

def haltBehind (count : Nat) : List String :=
  List.replicate count "NOP" ++ ["HLT"]

def haltBehindSource (count : Nat) : String :=
  String.join ((haltBehind count).map (· ++ "\n"))

theorem mem_haltBehind {count : Nat} {text : String} (member : text ∈ haltBehind count) :
    text = "NOP" ∨ text = "HLT" := by
  rcases List.mem_append.1 member with nop | halt
  · exact .inl (List.eq_of_mem_replicate nop)
  · exact .inr (List.mem_singleton.1 halt)

theorem lines_haltBehindSource (count : Nat) :
    Text.lines (haltBehindSource count) = haltBehind count := by
  refine Text.lines_join (fun text member => ?_) fun text member => ?_
  all_goals rcases mem_haltBehind member with rfl | rfl <;> decide

def bareOpcode (text : String) : Opcode :=
  if text = "NOP" then .nop else .hlt

theorem fields_bareOpcode (text : String) : (bareOpcode text).fields = [] := by
  unfold bareOpcode
  split <;> rfl

theorem expand_bareOpcode (text : String) : (bareOpcode text).expand [] = [] := by
  unfold bareOpcode
  split <;> rfl

theorem lineSpells_of_mem_haltBehind {count : Nat} {text : String}
    (member : text ∈ haltBehind count) :
    Session.LineSpells text (.instruction (bareOpcode text) []) := by
  have htokens : (Token.ofLine text).map Token.text = [text] := by
    rcases mem_haltBehind member with rfl | rfl <;> decide
  unfold Session.LineSpells
  rw [htokens]
  rcases mem_haltBehind member with rfl | rfl <;>
    exact .instruction (by decide) (by decide) (.inl rfl)

namespace Session

variable {session : Session} {program : Program} {count k : Nat} {recorded : SourceLine}

namespace Follows

variable (follows : session.Follows (haltBehind count) program)
include follows

theorem line_haltBehind {text : String} (htext : (haltBehind count)[k]? = some text) :
    program[k]? = some (.instruction (bareOpcode text) []) := by
  have spells := lineSpells_of_mem_haltBehind (List.mem_of_getElem? htext)
  obtain ⟨line, hline, ⟨spells', -⟩ | ⟨bad, -⟩⟩ := follows.scans.exists_line htext
  · rw [hline, spells'.unique spells]
  · exact absurd trivial (bad _ spells)

theorem mistakes_haltBehind : session.mistakes = [] := by
  refine List.eq_nil_iff_forall_not_mem.2 fun diagnostic member => ?_
  obtain ⟨k, -, rejected | misfit⟩ := follows.accounts_mistakes.exists_fault member
  · have spells := lineSpells_of_mem_haltBehind (List.mem_of_getElem? rejected.1)
    exact rejected.2 _ spells trivial
  · obtain ⟨htext, opcode, operands, hline, operand, inside, -⟩ := misfit
    rw [follows.line_haltBehind htext] at hline
    cases hline
    rw [fields_bareOpcode] at inside
    cases inside

theorem content_haltBehind (hrecorded : session.lines.toList[k]? = some recorded) :
    ∃ first index, recorded.tokens = [first] ∧
      recorded.content = .instruction (bareOpcode recorded.text) index := by
  obtain ⟨-, htext⟩ := follows.numbered k recorded hrecorded
  obtain ⟨line, hline, shows⟩ := exists_getElem?_eq_of_forall₂ follows.tracks.lines hrecorded
  rw [follows.line_haltBehind htext] at hline
  cases hline
  unfold SourceLine.Shows at shows
  split at shows
  · next opcode index hcontent =>
      obtain ⟨first, rest, htokens, -, hline⟩ := shows
      injection hline with hopcode hrest
      rw [List.map_eq_nil_iff.1 hrest.symm] at htokens
      exact ⟨first, index, htokens, by rw [hcontent, hopcode]⟩
  · cases shows

theorem instructionLines_haltBehind : session.instructionLines = session.lines.toList := by
  refine List.filter_eq_self.2 fun recorded member => ?_
  obtain ⟨k, hrecorded⟩ := List.mem_iff_getElem?.1 member
  obtain ⟨first, index, -, hcontent⟩ := follows.content_haltBehind hrecorded
  rw [SourceLine.index?_eq_some_iff.2 ⟨_, hcontent⟩]
  rfl

theorem word_haltBehind (hrecorded : session.lines.toList[k]? = some recorded) {word : UInt16}
    (gives : program.GivesWord recorded word) : word = Word.pack (bareOpcode recorded.text) [] := by
  obtain ⟨first, index, htokens, hcontent⟩ := follows.content_haltBehind hrecorded
  obtain ⟨opcode, index', first', rest, values, hcontent', htokens', yields, -, rfl⟩ := gives
  rw [hcontent] at hcontent'
  rw [htokens] at htokens'
  cases hcontent'
  cases htokens'
  rw [List.map_nil, expand_bareOpcode] at yields
  cases yields
  rfl

theorem error_haltBehind {error : AssemblyError} (failed : session.finish.result = .error error) :
    error = .tooLarge program.size := by
  rcases follows.finish_of_mistakes_eq_nil follows.mistakes_haltBehind with
    ⟨-, image, settled, -⟩ | ⟨-, settled⟩
  · rw [settled] at failed
    cases failed
  · rw [settled] at failed
    exact (Except.error.inj failed).symm

variable (round : count % 65536 = 0)
include round

/-- The last line has the number of the first when all numbers have been given. -/
theorem exists_last_haltBehind (numbered : session.Numbered) :
    ∃ before line, session.lines.toList = before ++ [line] ∧ before.length = count ∧
      (before.filterMap SourceLine.index?).length = before.length ∧ line.text = "HLT" ∧
      line.content = .instruction .hlt 0 := by
  have hsize : session.lines.toList.length = count + 1 := by
    rw [Array.length_toList, follows.size_lines, haltBehind, List.length_append,
      List.length_replicate, List.length_singleton]
  rcases List.eq_nil_or_concat' session.lines.toList with hnil | ⟨before, line, hsplit⟩
  · rw [hnil] at hsize
    cases hsize
  have hbefore : before.length = count := by
    rw [hsplit, List.length_append, List.length_singleton] at hsize
    omega
  have hline : session.lines.toList[count]? = some line := by
    rw [hsplit, ← hbefore, List.getElem?_concat_length]
  have htext : line.text = "HLT" := by
    have hfound := (follows.numbered count line hline).2
    rw [haltBehind, List.getElem?_append_right (by rw [List.length_replicate]),
      List.length_replicate, Nat.sub_self] at hfound
    exact (Option.some.inj hfound).symm
  have hcount : (before.filterMap SourceLine.index?).length = before.length := by
    rw [List.length_filterMap_eq_countP, List.countP_eq_length]
    intro recorded member
    have inside : recorded ∈ session.instructionLines := by
      rw [follows.instructionLines_haltBehind, hsplit]
      exact List.mem_append_left _ member
    exact (List.mem_filter.1 inside).2
  obtain ⟨first, index, -, hcontent⟩ := follows.content_haltBehind hline
  have hindex : index = 0 := by
    rw [numbered.index_eq hsplit (SourceLine.index?_eq_some_iff.2 ⟨_, hcontent⟩), hcount,
      hbefore, ← UInt16.toNat_inj, UInt16.toNat_ofNat']
    exact round
  rw [htext, hindex] at hcontent
  exact ⟨before, line, hsplit, hbefore, hcount, htext, hcontent⟩

/-- What is told of the last line is then the word of the first. -/
theorem getElem?_listing_haltBehind (numbered : session.Numbered) (positive : 0 < count) :
    session.listing[count]? = some (AssemblyReport.listed 0 (Word.pack .nop []) "HLT") := by
  obtain ⟨before, line, hsplit, hbefore, -, htext, -⟩ :=
    follows.exists_last_haltBehind round numbered
  obtain ⟨words, given, hlisting⟩ :=
    follows.exists_listing_eq numbered follows.mistakes_haltBehind
  rw [follows.instructionLines_haltBehind] at given hlisting
  have hline : session.lines.toList[count]? = some line := by
    rw [hsplit, ← hbefore, List.getElem?_concat_length]
  have inside : 0 < session.lines.toList.length := by
    rw [hsplit, List.length_append, List.length_singleton]
    exact Nat.succ_pos _
  have hfirst := List.getElem?_eq_getElem inside
  obtain ⟨word, hword, gives⟩ := exists_getElem?_eq_of_forall₂ given hfirst
  have hpack := follows.word_haltBehind hfirst gives
  have hfound := (follows.numbered 0 _ hfirst).2
  rw [haltBehind, List.getElem?_append_left (by rwa [List.length_replicate]),
    List.getElem?_replicate_of_lt positive] at hfound
  rw [← Option.some.inj hfound] at hpack
  rw [hlisting, List.getElem?_mapIdx, hline, round, Option.map_some, htext,
    List.getD_eq_getElem?_getD, hword, hpack]
  rfl

end Follows

/--
The line behind 65536 instructions is numbered 0 again, and what is told next to its text is the
word of the first line.
-/
theorem numbers_come_round :
    ∃ before line, (fed [haltBehindSource 65536]).lines.toList = before ++ [line] ∧
      (before.filterMap SourceLine.index?).length = 65536 ∧
      line.content = .instruction .hlt 0 ∧
      (∀ diagnostics, (fed [haltBehindSource 65536]).finish.result ≠
        .error (.mistakes diagnostics)) ∧
      (∀ cause, (fed [haltBehindSource 65536]).finish.result ≠ .error (.overflow cause)) ∧
      (fed [haltBehindSource 65536]).instructionLines = before ++ [line] ∧ line.text = "HLT" ∧
      Word.encode .hlt [] = .ok 2048 ∧
      (fed [haltBehindSource 65536]).listing[65536]? =
        some (AssemblyReport.listed 0 0 "HLT") := by
  have hfed : fed [haltBehindSource 65536] = reading (haltBehind 65536) := by
    rw [fed_eq_reading, List.flatMap_singleton, lines_haltBehindSource]
  rw [hfed]
  have numbered := numbered_reading (haltBehind 65536)
  obtain ⟨program, follows⟩ := exists_follows (haltBehind 65536)
  obtain ⟨before, line, hsplit, hbefore, hcount, htext, hcontent⟩ :=
    follows.exists_last_haltBehind rfl numbered
  have hlisting := follows.getElem?_listing_haltBehind rfl numbered (Nat.succ_pos _)
  have accepted (diagnostics : List Diagnostic) :
      (reading (haltBehind 65536)).finish.result ≠ .error (.mistakes diagnostics) := fun failed =>
    AssemblyError.noConfusion (follows.error_haltBehind failed)
  have plain (cause : Overflow) :
      (reading (haltBehind 65536)).finish.result ≠ .error (.overflow cause) := fun failed =>
    AssemblyError.noConfusion (follows.error_haltBehind failed)
  exact ⟨before, line, hsplit, hcount.trans hbefore, hcontent, accepted, plain,
    follows.instructionLines_haltBehind.trans hsplit, htext, rfl, hlisting⟩

end Session

end Redstone

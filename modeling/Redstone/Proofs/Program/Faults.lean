import Mathlib.Data.List.Induction
import Redstone.Proofs.Program.Image

/-!
# What is wrong with a source

Diagnostics come from two passes, and together they name every faulty line once. A line is
rejected when it is read, or its operands turn out not to fit when all names are known, but never
both: a rejected line says nothing, and so nothing is resolved in it. What passes both can be put
into words, so that only the size of the program is left to fail. If a literal overflows when it is
read, though, there is neither an image nor a list of mistakes.
-/

namespace Redstone

open Session (LineSpells LineOverflows)

/-! ## Faulty lines -/

/-- A line of text that says nothing, or declares what it may not behind the lines `before`. -/
def Rejected (before : Program) (text : String) : Prop :=
  ∀ line, LineSpells text line → ¬ line.Declarable before

/-- What lines of text say if rejected lines say nothing. -/
inductive Scans : List String → Program → Prop where
  | nil : Scans [] []
  | accepted {texts : List String} {program : Program} {text : String} {line : Line}
      (before : Scans texts program) (spells : LineSpells text line)
      (declarable : line.Declarable program) : Scans (texts ++ [text]) (program ++ [line])
  | rejected {texts : List String} {program : Program} {text : String}
      (before : Scans texts program) (bad : Rejected program text) :
      Scans (texts ++ [text]) (program ++ [.blank])

/-- An operand that comes to no number, or to one that its field cannot hold. -/
def Misfit (program : Program) (field : Field) (text : String) : Prop :=
  (∀ value, ¬ Yields program text value) ∨
    ∃ value, Yields program text value ∧ (value < 0 ∨ (field.max : Int) < value)

namespace Program

/-- Line `k` of the texts that a program says is rejected where it stands. -/
def RejectedAt (program : Program) (texts : List String) (k : Nat) (text : String) : Prop :=
  texts[k]? = some text ∧ Rejected (program.take k) text

def MisfitAt (program : Program) (texts : List String) (k : Nat) (text : String) : Prop :=
  texts[k]? = some text ∧ ∃ opcode operands, program[k]? = some (.instruction opcode operands) ∧
    ∃ operand ∈ opcode.fields.zip (opcode.expand operands), Misfit program operand.1 operand.2

/-- A minus in front of the least number, behind operands that all come to a number. -/
def ReadsLeast (program : Program) (operands : List String) : Prop :=
  ∃ before operand after, operands = before ++ operand :: after ∧
    (∀ other ∈ before, ∃ value, Yields program other value) ∧
    Literal.NegatesLeast operand.toList

/-- Line `k` overflows, where it is read or where its operands are. -/
def OverflowsAt (program : Program) (texts : List String) (k : Nat) (text : String) : Prop :=
  texts[k]? = some text ∧ (LineOverflows text ∨ ∃ opcode operands,
    program[k]? = some (.instruction opcode operands) ∧ program.ReadsLeast operands)

end Program

/-- Diagnostics with one for each faulty line, in the order of the lines. -/
structure Accounts (diagnostics : List Diagnostic) (fault : Nat → String → Prop) : Prop where
  increasing : diagnostics.Pairwise fun a b => a.line < b.line
  exists_iff : ∀ number text,
    (∃ diagnostic ∈ diagnostics, diagnostic.line = number ∧ diagnostic.text = text) ↔
      ∃ k, number = k + 1 ∧ fault k text

/-! ## Accounts -/

theorem Diagnostic.pairwise_sorted (diagnostics : List Diagnostic) :
    (sorted diagnostics).Pairwise fun a b => a.line ≤ b.line := by
  have transitive (a b c : Diagnostic) (hab : decide (a.line ≤ b.line) = true)
      (hbc : decide (b.line ≤ c.line) = true) : decide (a.line ≤ c.line) = true :=
    decide_eq_true (Nat.le_trans (of_decide_eq_true hab) (of_decide_eq_true hbc))
  have total (a b : Diagnostic) :
      (decide (a.line ≤ b.line) || decide (b.line ≤ a.line)) = true := by
    rcases Nat.le_total a.line b.line with h | h <;> simp [h]
  exact (List.pairwise_mergeSort transitive total diagnostics).imp of_decide_eq_true

theorem Diagnostic.perm_sorted (diagnostics : List Diagnostic) :
    (sorted diagnostics).Perm diagnostics :=
  List.mergeSort_perm _ _

namespace Accounts

variable {diagnostics other : List Diagnostic} {fault fault' : Nat → String → Prop}

theorem nil (none : ∀ k text, ¬ fault k text) : Accounts [] fault where
  increasing := .nil
  exists_iff number text := by
    constructor
    · rintro ⟨_, member, _⟩
      cases member
    · rintro ⟨k, _, bad⟩
      exact absurd bad (none k text)

theorem congr (accounts : Accounts diagnostics fault)
    (same : ∀ k text, fault' k text ↔ fault k text) : Accounts diagnostics fault' where
  increasing := accounts.increasing
  exists_iff number text := by
    simp only [same]
    exact accounts.exists_iff number text

/-- Line and text of a diagnostic are those of a faulty line. -/
theorem exists_fault (accounts : Accounts diagnostics fault) {diagnostic : Diagnostic}
    (member : diagnostic ∈ diagnostics) :
    ∃ k, diagnostic.line = k + 1 ∧ fault k diagnostic.text :=
  (accounts.exists_iff _ _).1 ⟨diagnostic, member, rfl, rfl⟩

/-- A diagnostic about a line behind all others goes to the end. -/
theorem concat (accounts : Accounts diagnostics fault) {n : Nat}
    (below : ∀ k text, fault k text → k < n) (text : String) (mistake : Mistake) :
    Accounts (diagnostics ++ [⟨n + 1, text, mistake⟩])
      fun k text' => fault k text' ∨ k = n ∧ text' = text where
  increasing := by
    refine List.pairwise_append.2 ⟨accounts.increasing, List.pairwise_singleton _ _, ?_⟩
    intro first member last hlast
    obtain ⟨k, hline, bad⟩ := accounts.exists_fault member
    have hlt := below k _ bad
    rw [List.mem_singleton.1 hlast, hline]
    exact Nat.succ_lt_succ hlt
  exists_iff number text' := by
    simp only [List.mem_append, List.mem_singleton, or_and_right, exists_or, exists_eq_left,
      and_or_left, ← accounts.exists_iff]
    refine or_congr_right ?_
    constructor
    · rintro ⟨rfl, rfl⟩
      exact ⟨n, rfl, rfl, rfl⟩
    · rintro ⟨k, rfl, rfl, rfl⟩
      exact ⟨rfl, rfl⟩

/-- Two accounts of different lines are sorted into one. -/
theorem merge (first : Accounts diagnostics fault) (second : Accounts other fault')
    (apart : ∀ k text text', fault k text → ¬ fault' k text') :
    Accounts (Diagnostic.sorted (diagnostics ++ other))
      fun k text => fault k text ∨ fault' k text where
  increasing := by
    have distinct : (diagnostics ++ other).Pairwise fun a b => a.line ≠ b.line := by
      refine List.pairwise_append.2 ⟨first.increasing.imp Nat.ne_of_lt,
        second.increasing.imp Nat.ne_of_lt, fun a ha b hb same => ?_⟩
      obtain ⟨k, hk, bad⟩ := first.exists_fault ha
      obtain ⟨k', hk', bad'⟩ := second.exists_fault hb
      obtain rfl : k = k' := by omega
      exact apart k _ _ bad bad'
    have distinct' := ((Diagnostic.perm_sorted _).pairwise_iff fun hne => Ne.symm hne).2 distinct
    exact ((Diagnostic.pairwise_sorted _).and distinct').imp fun ⟨hle, hne⟩ =>
      Nat.lt_of_le_of_ne hle hne
  exists_iff number text := by
    have member (diagnostic : Diagnostic) : diagnostic ∈ Diagnostic.sorted (diagnostics ++ other) ↔
        diagnostic ∈ diagnostics ∨ diagnostic ∈ other :=
      (Diagnostic.perm_sorted _).mem_iff.trans List.mem_append
    simp only [member, or_and_right, exists_or, and_or_left, first.exists_iff, second.exists_iff]

end Accounts

/-! ## Lines and what they say -/

namespace Scans

variable {texts : List String} {program other : Program}

theorem length_eq (scans : Scans texts program) : program.length = texts.length := by
  induction scans with
  | nil => rfl
  | accepted _ _ _ ih => simp [ih]
  | rejected _ _ ih => simp [ih]

/-- The last line is accepted or rejected behind the others. -/
theorem exists_of_concat {text : String} (scans : Scans (texts ++ [text]) program) :
    ∃ before line, program = before ++ [line] ∧ Scans texts before ∧
      (LineSpells text line ∧ line.Declarable before ∨ Rejected before text ∧ line = .blank) := by
  generalize hall : texts ++ [text] = all at scans
  cases scans with
  | nil => simp at hall
  | accepted before spells declarable =>
      obtain ⟨rfl, htext⟩ := List.append_inj' hall rfl
      cases htext
      exact ⟨_, _, rfl, before, .inl ⟨spells, declarable⟩⟩
  | rejected before bad =>
      obtain ⟨rfl, htext⟩ := List.append_inj' hall rfl
      cases htext
      exact ⟨_, _, rfl, before, .inr ⟨bad, rfl⟩⟩

theorem unique (scans : Scans texts program) (scans' : Scans texts other) : program = other := by
  induction scans generalizing other with
  | nil => exact (List.length_eq_zero_iff.1 scans'.length_eq).symm
  | accepted _ spells declarable ih =>
      obtain ⟨before, line, rfl, rest, ⟨spells', _⟩ | ⟨bad, _⟩⟩ := scans'.exists_of_concat
      · rw [ih rest, spells.unique spells']
      · rw [ih rest] at declarable
        exact absurd declarable (bad _ spells)
  | rejected _ bad ih =>
      obtain ⟨before, line, rfl, rest, ⟨spells', declarable⟩ | ⟨_, rfl⟩⟩ := scans'.exists_of_concat
      · rw [← ih rest] at declarable
        exact absurd declarable (bad _ spells')
      · rw [ih rest]

theorem take (scans : Scans texts program) (k : Nat) :
    Scans (texts.take k) (program.take k) := by
  have whole {texts : List String} {program : Program} (scans : Scans texts program)
      (hlong : texts.length ≤ k) : Scans (texts.take k) (program.take k) := by
    have hle := scans.length_eq
    rwa [List.take_of_length_le (by omega), List.take_of_length_le (by omega)]
  induction scans with
  | nil =>
      rw [List.take_nil, List.take_nil]
      exact .nil
  | @accepted texts program text line before spells declarable ih =>
      by_cases hle : k ≤ texts.length
      · rw [List.take_append_of_le_length hle,
          List.take_append_of_le_length (before.length_eq ▸ hle)]
        exact ih
      · exact whole (.accepted before spells declarable) (by simp; omega)
  | @rejected texts program text before bad ih =>
      by_cases hle : k ≤ texts.length
      · rw [List.take_append_of_le_length hle,
          List.take_append_of_le_length (before.length_eq ▸ hle)]
        exact ih
      · exact whole (.rejected before bad) (by simp; omega)

/-- What a program says in line `k` is what the text there says, unless that is rejected. -/
theorem exists_line (scans : Scans texts program) {k : Nat} {text : String}
    (hk : texts[k]? = some text) :
    ∃ line, program[k]? = some line ∧
      (LineSpells text line ∧ line.Declarable (program.take k) ∨
        Rejected (program.take k) text ∧ line = .blank) := by
  have part := scans.take (k + 1)
  rw [List.take_add_one, hk] at part
  obtain ⟨before, line, hsplit, rest, hline⟩ := part.exists_of_concat
  rw [rest.unique (scans.take k)] at hsplit hline
  rw [List.take_add_one] at hsplit
  exact ⟨line, Option.toList_eq_singleton_iff.1 (List.append_cancel_left hsplit), hline⟩

theorem not_misfitAt (scans : Scans texts program) {k : Nat} {text text' : String}
    (rejected : program.RejectedAt texts k text) : ¬ program.MisfitAt texts k text' := by
  rintro ⟨_, opcode, operands, hinstruction, _⟩
  obtain ⟨line, hline, ⟨spells, declarable⟩ | ⟨_, rfl⟩⟩ := scans.exists_line rejected.1
  · exact rejected.2 line spells declarable
  · rw [hline] at hinstruction
    cases hinstruction

end Scans

theorem Program.rejectedAt_concat_iff {texts : List String} {program : Program}
    (hlength : program.length = texts.length) (last : String) (line : Line) (k : Nat)
    (text : String) :
    RejectedAt (program ++ [line]) (texts ++ [last]) k text ↔
      program.RejectedAt texts k text ∨ k = texts.length ∧ text = last ∧ Rejected program last := by
  unfold RejectedAt
  rcases Nat.lt_trichotomy k texts.length with hlt | rfl | hgt
  · rw [List.getElem?_append_left hlt, List.take_append_of_le_length (by omega)]
    exact ⟨.inl, fun h => h.resolve_right fun ⟨hk, _⟩ => Nat.ne_of_lt hlt hk⟩
  · rw [List.getElem?_concat_length, ← hlength, List.take_left, hlength,
      List.getElem?_eq_none (Nat.le_refl _)]
    constructor
    · rintro ⟨⟨⟩, bad⟩
      exact .inr ⟨rfl, rfl, bad⟩
    · rintro (⟨⟨⟩, _⟩ | ⟨_, rfl, bad⟩)
      exact ⟨rfl, bad⟩
  · have hshort : (texts ++ [last]).length ≤ k := by
      rw [List.length_append]
      exact hgt
    rw [List.getElem?_eq_none hshort, List.getElem?_eq_none (Nat.le_of_lt hgt)]
    constructor
    · rintro ⟨⟨⟩, _⟩
    · rintro (⟨⟨⟩, _⟩ | ⟨hk, _⟩)
      exact absurd hk (Nat.ne_of_gt hgt)

/-! ## The first pass -/

namespace Session

variable {session : Session} {program : Program} {texts : List String}

theorem exists_lines_readLine (session : Session) (text : String) :
    ∃ content, (session.readLine text).lines =
      session.lines.push ⟨session.lines.size + 1, text, Token.ofLine text, content⟩ := by
  unfold readLine
  dsimp only
  split <;> exact ⟨_, rfl⟩

/-- A line of text that declares no name and is not counted as an instruction. -/
def Skips (session : Session) (text : String) : Prop :=
  (session.readLine text).symbols = session.symbols ∧
    (session.readLine text).instructionCount = session.instructionCount

theorem Tracks.skips_of_rejected (tracks : session.Tracks program) {text : String}
    (bad : Rejected program text) : session.Skips text := by
  unfold Skips
  obtain ⟨symbols, lines, count, diagnostics, reports⟩ := session
  obtain ⟨table, rfl, _⟩ := tracks
  cases read : Statement.ofTokens (Token.ofLine text) with
  | error mistake =>
      simp only [readLine, read, and_self]
  | ok statement =>
      obtain ⟨mistake, failed⟩ := exists_enact_eq_error table statement _
        (bad _ (Statement.spells_of_ofTokens read))
      simp only [readLine, read, failed, and_self]

/-- A session that has read texts, of which it has rejected the faulty ones. -/
structure Follows (session : Session) (texts : List String) (program : Program) : Prop where
  tracks : session.Tracks program
  scans : Scans texts program
  numbered : ∀ k recorded, session.lines.toList[k]? = some recorded →
    recorded.number = k + 1 ∧ texts[k]? = some recorded.text
  accounts : Accounts session.diagnostics.toList (program.RejectedAt texts)
  overflow_iff : ∀ diagnostic ∈ session.diagnostics, ∀ cause,
    diagnostic.overflow? = some cause ↔ LineOverflows diagnostic.text ∧ cause = .negation

theorem follows_empty : empty.Follows [] [] where
  tracks := tracks_empty
  scans := .nil
  numbered := nofun
  accounts := .nil fun _ _ h => nomatch h.1
  overflow_iff := nofun

theorem Follows.size_lines (follows : session.Follows texts program) :
    session.lines.size = texts.length := by
  rw [← follows.scans.length_eq, ← follows.tracks.lines.length_eq, Array.length_toList]

theorem Follows.readLine (follows : session.Follows texts program) (text : String) :
    ∃ line, (session.readLine text).Follows (texts ++ [text]) (program ++ [line]) := by
  have hlength := follows.scans.length_eq
  have numbered : ∀ k recorded, (session.readLine text).lines.toList[k]? = some recorded →
      recorded.number = k + 1 ∧ (texts ++ [text])[k]? = some recorded.text := by
    intro k recorded hrecorded
    obtain ⟨content, hlines⟩ := session.exists_lines_readLine text
    rw [hlines, Array.toList_push] at hrecorded
    have hsize : session.lines.toList.length = texts.length := follows.size_lines
    rcases Nat.lt_trichotomy k texts.length with hlt | rfl | hgt
    · rw [List.getElem?_append_left (hsize ▸ hlt)] at hrecorded
      rw [List.getElem?_append_left hlt]
      exact follows.numbered k recorded hrecorded
    · rw [← hsize, List.getElem?_concat_length] at hrecorded
      cases hrecorded
      exact ⟨congrArg (· + 1) follows.size_lines, List.getElem?_concat_length⟩
    · rw [List.getElem?_append_right (by omega), List.getElem?_singleton,
        if_neg (by omega)] at hrecorded
      cases hrecorded
  rcases follows.tracks.readLine_cases text with
    ⟨line, spells, declarable, tracks, same⟩ | ⟨bad, tracks, mistake, more, overflow_iff⟩
  · refine ⟨line, tracks, .accepted follows.scans spells declarable, numbered, ?_, ?_⟩
    · rw [same]
      refine follows.accounts.congr fun k other => ?_
      rw [Program.rejectedAt_concat_iff hlength]
      exact ⟨fun h => h.resolve_right fun ⟨_, _, bad⟩ => bad line spells declarable, .inl⟩
    · rw [same]
      exact follows.overflow_iff
  · refine ⟨.blank, tracks, .rejected follows.scans bad, numbered, ?_, ?_⟩
    · rw [more, Array.toList_push, follows.size_lines]
      have below (k : Nat) (other : String) (h : program.RejectedAt texts k other) :
          k < texts.length := (List.getElem?_eq_some_iff.1 h.1).1
      refine (follows.accounts.concat below text mistake).congr fun k other => ?_
      rw [Program.rejectedAt_concat_iff hlength]
      exact or_congr_right ⟨fun ⟨hk, hother, _⟩ => ⟨hk, hother⟩, fun ⟨hk, hother⟩ =>
        ⟨hk, hother, bad⟩⟩
    · rw [more]
      intro diagnostic member cause
      rcases Array.mem_push.1 member with earlier | rfl
      · exact follows.overflow_iff diagnostic earlier cause
      · exact Problem.overflow?_eq_some_iff.trans (overflow_iff cause)

def reading (texts : List String) : Session :=
  texts.foldl Session.readLine empty

def fed (sources : List String) : Session :=
  sources.foldl feed empty

theorem fed_eq_reading (sources : List String) :
    fed sources = reading (sources.flatMap Text.lines) :=
  List.foldl_flatMap.symm

/-- Whatever a session has read, it follows what the lines say. -/
theorem exists_follows (texts : List String) :
    ∃ program, (reading texts).Follows texts program := by
  induction texts using List.reverseRecOn with
  | nil => exact ⟨[], follows_empty⟩
  | append_singleton texts text ih =>
      obtain ⟨program, follows⟩ := ih
      obtain ⟨line, follows'⟩ := follows.readLine text
      rw [reading, List.foldl_concat]
      exact ⟨program ++ [line], follows'⟩

/-! ## The second pass -/

def mistakes (session : Session) : List Diagnostic :=
  Diagnostic.sorted (session.diagnostics.toList ++ failures session.resolved)

/-- An operand that does not fit has no number that its field can hold. -/
theorem not_misfit_iff {symbols : Symbols} (tracks : symbols.Tracks program) (field : Field)
    (text : String) :
    ¬ Misfit program field text ↔
      ∃ value : Nat, Yields program text value ∧ value ≤ field.max := by
  constructor
  · intro fits
    obtain ⟨value, yields⟩ : ∃ value, Yields program text value := by
      by_contra none
      exact fits (.inl fun value yields => none ⟨value, yields⟩)
    have hrange : ¬ (value < 0 ∨ (field.max : Int) < value) := fun wrong =>
      fits (.inr ⟨value, yields, wrong⟩)
    obtain ⟨number, rfl⟩ := Int.eq_ofNat_of_zero_le (show 0 ≤ value by omega)
    exact ⟨number, yields, by omega⟩
  · rintro ⟨number, yields, hle⟩ (none | ⟨value, yields', hrange⟩)
    · exact none number yields
    · obtain rfl := Operand.yields_unique tracks yields yields'
      omega

/-- The operands of a line are resolved unless one of them does not fit. -/
theorem exists_ofTokens_eq_ok_iff {symbols : Symbols} (tracks : symbols.Tracks program)
    {opcode : Opcode} {rest : List Token} (count : opcode.Takes rest.length) (first : Token) :
    (∃ values, Operand.ofTokens (symbols.place program.slotCount) opcode (first :: rest) =
        .ok values) ↔
      ∀ operand ∈ opcode.fields.zip (opcode.expand (rest.map Token.text)),
        ¬ Misfit program operand.1 operand.2 := by
  have full : opcode.fields.length = (opcode.expand (rest.map Token.text)).length :=
    (Opcode.length_expand (by simpa using count)).symm
  have all_iff : (∀ operand ∈ opcode.fields.zip (opcode.expand (rest.map Token.text)),
      ¬ Misfit program operand.1 operand.2) ↔
      List.Forall₂ (fun field text => ∃ value : Nat, Yields program text value ∧ value ≤ field.max)
        opcode.fields (opcode.expand (rest.map Token.text)) := by
    simp only [not_misfit_iff tracks, List.forall₂_iff_zip, full, true_and, Prod.forall]
  simp only [Operand.ofTokens_eq_ok_iff tracks count, all_iff]
  exact ⟨fun ⟨_, all, fit⟩ => fit_of_values all fit,
    exists_values_of_fit fun _ => Opcode.max_lt_of_mem_fields⟩

theorem mistakes_eq_nil_iff :
    session.mistakes = [] ↔ session.diagnostics.toList ++ failures session.resolved = [] := by
  rw [← List.length_eq_zero_iff, ← List.length_eq_zero_iff, mistakes,
    (Diagnostic.perm_sorted _).length_eq]

theorem mem_failures_iff (lines : List (Except Diagnostic ResolvedLine)) (diagnostic : Diagnostic) :
    diagnostic ∈ failures lines ↔ .error diagnostic ∈ lines := by
  unfold failures
  rw [List.mem_filterMap]
  constructor
  · rintro ⟨line, member, found⟩
    cases line with
    | error other =>
        cases found
        exact member
    | ok line => cases found
  · intro member
    exact ⟨_, member, rfl⟩

theorem mem_program_iff (lines : List (Except Diagnostic ResolvedLine)) (line : ResolvedLine) :
    line ∈ Session.program lines ↔ .ok line ∈ lines := by
  unfold Session.program
  rw [List.mem_filterMap]
  constructor
  · rintro ⟨other, member, found⟩
    cases other with
    | error diagnostic => cases found
    | ok other =>
        cases found
        exact member
  · intro member
    exact ⟨_, member, rfl⟩

/-- A diagnostic of the second pass is about the line that it comes from. -/
theorem eq_of_resolveLine_error {symbols : Symbols} {recorded : SourceLine}
    {diagnostic : Diagnostic} (h : resolveLine symbols recorded = some (.error diagnostic)) :
    diagnostic.line = recorded.number ∧ diagnostic.text = recorded.text := by
  unfold resolveLine at h
  split at h
  · split at h
    · cases h
    · cases h
      exact ⟨rfl, rfl⟩
  · cases h

namespace Follows

variable {k : Nat} {recorded : SourceLine}

theorem exists_resolveLine_eq_error_iff (follows : session.Follows texts program)
    (hrecorded : session.lines.toList[k]? = some recorded) :
    (∃ diagnostic, resolveLine (session.symbols.place program.slotCount) recorded =
        some (.error diagnostic)) ↔ program.MisfitAt texts k recorded.text := by
  have htext := (follows.numbered k recorded hrecorded).2
  obtain ⟨line, hline, shows⟩ := exists_getElem?_eq_of_forall₂ follows.tracks.lines hrecorded
  unfold Program.MisfitAt
  simp only [htext, hline, true_and, Option.some.injEq]
  cases line with
  | instruction opcode operands =>
      obtain ⟨first, rest, index, rfl, count, outcome⟩ :=
        resolveLine_instruction shows (session.symbols.place program.slotCount)
      have settled := exists_ofTokens_eq_ok_iff follows.tracks.symbols count first
      rw [outcome]
      cases found : Operand.ofTokens (session.symbols.place program.slotCount) opcode
          (first :: rest) with
      | ok values =>
          have fits := settled.1 ⟨values, found⟩
          constructor
          · rintro ⟨_, ⟨⟩⟩
          · rintro ⟨_, _, ⟨⟩, operand, member, misfit⟩
            exact absurd misfit (fits operand member)
      | error mistake =>
          refine ⟨fun _ => ⟨_, _, rfl, ?_⟩, fun _ => ⟨_, rfl⟩⟩
          by_contra none
          obtain ⟨values, found'⟩ := settled.2 fun operand member misfit =>
            none ⟨operand, member, misfit⟩
          rw [found] at found'
          cases found'
  | _ =>
      rw [resolveLine_eq_none shows rfl]
      simp

theorem pairwise_number (follows : session.Follows texts program) :
    session.lines.toList.Pairwise fun a b => a.number < b.number := by
  rw [List.pairwise_iff_getElem]
  intro i j hi hj hlt
  rw [(follows.numbered i _ (List.getElem?_eq_getElem hi)).1,
    (follows.numbered j _ (List.getElem?_eq_getElem hj)).1]
  exact Nat.succ_lt_succ hlt

/-- The second pass has one diagnostic for each line with an operand that does not fit. -/
theorem accounts_failures (follows : session.Follows texts program) :
    Accounts (failures session.resolved) (program.MisfitAt texts) where
  increasing := by
    unfold failures resolved
    rw [List.pairwise_filterMap, List.pairwise_filterMap]
    refine follows.pairwise_number.imp fun hlt line hline line' hline' first hfirst last hlast => ?_
    cases line with
    | ok line => cases hfirst
    | error diagnostic =>
        cases line' with
        | ok line => cases hlast
        | error diagnostic' =>
            cases hfirst
            cases hlast
            rw [(eq_of_resolveLine_error hline).1, (eq_of_resolveLine_error hline').1]
            exact hlt
  exists_iff number text := by
    simp only [mem_failures_iff, resolved, follows.tracks.count, List.mem_filterMap]
    constructor
    · rintro ⟨diagnostic, ⟨recorded, member, failed⟩, rfl, rfl⟩
      obtain ⟨k, hrecorded⟩ := List.mem_iff_getElem?.1 member
      obtain ⟨hline, htext⟩ := eq_of_resolveLine_error failed
      refine ⟨k, hline.trans (follows.numbered k recorded hrecorded).1, ?_⟩
      rw [htext]
      exact (follows.exists_resolveLine_eq_error_iff hrecorded).1 ⟨diagnostic, failed⟩
    · rintro ⟨k, rfl, misfit⟩
      have hlt : k < session.lines.toList.length := by
        have hsize : session.lines.toList.length = texts.length := follows.size_lines
        rw [hsize]
        exact (List.getElem?_eq_some_iff.1 misfit.1).1
      have hrecorded := List.getElem?_eq_getElem hlt
      obtain ⟨hnumber, htext⟩ := follows.numbered k _ hrecorded
      obtain rfl := Option.some.inj (htext.symm.trans misfit.1)
      obtain ⟨diagnostic, failed⟩ := (follows.exists_resolveLine_eq_error_iff hrecorded).2 misfit
      obtain ⟨hline, htext'⟩ := eq_of_resolveLine_error failed
      exact ⟨diagnostic, ⟨_, List.getElem_mem hlt, failed⟩, hline.trans hnumber, htext'⟩

/-- What the second pass lets through can be put into words. -/
theorem fit_of_mem_program (follows : session.Follows texts program) {line : ResolvedLine}
    (member : line ∈ Session.program session.resolved) :
    FitFields line.opcode.fields line.operands := by
  rw [mem_program_iff, resolved, follows.tracks.count, List.mem_filterMap] at member
  obtain ⟨recorded, inside, outcome⟩ := member
  obtain ⟨k, hrecorded⟩ := List.mem_iff_getElem?.1 inside
  obtain ⟨said, _, shows⟩ := exists_getElem?_eq_of_forall₂ follows.tracks.lines hrecorded
  cases said with
  | instruction opcode operands =>
      obtain ⟨first, rest, index, rfl, count, outcome'⟩ :=
        resolveLine_instruction shows (session.symbols.place program.slotCount)
      rw [outcome] at outcome'
      cases found : Operand.ofTokens (session.symbols.place program.slotCount) opcode
          (first :: rest) with
      | ok values =>
          rw [found] at outcome'
          cases outcome'
          exact ((Operand.ofTokens_eq_ok_iff follows.tracks.symbols count values).1 found).2
      | error mistake =>
          rw [found] at outcome'
          cases outcome'
  | _ =>
      rw [resolveLine_eq_none shows rfl] at outcome
      cases outcome

end Follows

theorem exists_encodeProgram_eq_ok {code : List (Opcode × List UInt16)}
    (fit : ∀ line ∈ code, FitFields line.1.fields line.2) (data : List UInt8) :
    ∃ bytes, encodeProgram code data = .ok bytes ∧
      bytes.length = 2 * code.length + data.length := by
  have each : ∀ line ∈ code, ∃ word, Word.encode line.1 line.2 = .ok word := fun line member =>
    ⟨_, (Word.encode_eq_ok_iff line.1 line.2 _).2 ⟨fit line member, rfl⟩⟩
  obtain ⟨words, encoded⟩ := (exists_forall₂_iff code).2 each
  refine ⟨_, (encodeProgram_eq_ok_iff code data _).2 ⟨words, encoded, rfl⟩, ?_⟩
  rw [List.length_append, length_flatMap_toBytes, encoded.length_eq]

namespace Follows

/-- Both passes together have one diagnostic for each faulty line. -/
theorem accounts_mistakes (follows : session.Follows texts program) :
    Accounts session.mistakes fun k text =>
      program.RejectedAt texts k text ∨ program.MisfitAt texts k text :=
  follows.accounts.merge follows.accounts_failures fun _ _ _ => follows.scans.not_misfitAt

/-- If nothing is wrong only the size of the program decides. -/
theorem finish_of_mistakes_eq_nil (follows : session.Follows texts program)
    (clean : session.mistakes = []) :
    (program.size ≤ 2048 ∧ ∃ image, session.finish.result = .ok image ∧
      image.layout = some ⟨program.slotCount, program.varCount⟩) ∨
    2048 < program.size ∧ session.finish.result = .error (.tooLarge program.size) := by
  have clean := mistakes_eq_nil_iff.1 clean
  have settled : failures session.resolved = [] := (List.append_eq_nil_iff.1 clean).2
  have slots : (Session.program session.resolved).length = program.slotCount := by
    have every := length_program_add_length_failures follows.tracks.lines
      (session.symbols.place session.instructionCount)
    unfold resolved at settled
    rwa [settled] at every
  have fit : ∀ line ∈ (Session.program session.resolved).map fun line =>
      (line.opcode, line.operands), FitFields line.1.fields line.2 := by
    intro _ member
    obtain ⟨line, inside, rfl⟩ := List.mem_map.1 member
    exact follows.fit_of_mem_program inside
  obtain ⟨bytes, encoded, hlength⟩ := exists_encodeProgram_eq_ok fit session.symbols.data
  have hsize : bytes.length = program.size := by
    rw [hlength, List.length_map, slots, follows.tracks.symbols.data_eq]
    rfl
  have data : session.symbols.data.length = program.varCount := by
    rw [follows.tracks.symbols.data_eq]
    rfl
  have accepted : session.diagnostics = #[] := by
    simpa using (List.append_eq_nil_iff.1 clean).1
  by_cases hfits : bytes.length ≤ 2048
  · refine .inl ⟨hsize ▸ hfits, ⟨bytes, some ⟨program.slotCount, program.varCount⟩, hfits⟩, ?_, rfl⟩
    rw [finish_eq_ok_iff, slots, data]
    exact ⟨accepted, settled, encoded, rfl⟩
  · refine .inr ⟨by omega, ?_⟩
    have none (layout : Option Layout) : Image.ofBytes? bytes layout = none := dif_neg hfits
    unfold finish
    simp only [clean, List.isEmpty_nil, if_true, encoded, none, hsize]

end Follows

/-- A session that has found something wrong has no image. -/
theorem finish_of_mistakes_ne_nil (wrong : session.mistakes ≠ []) :
    session.finish.result = .error
      (.ofDiagnostics (session.diagnostics.toList ++ failures session.resolved)) := by
  have some : ¬ (session.diagnostics.toList ++ failures session.resolved).isEmpty := by
    rw [List.isEmpty_iff]
    exact fun clean => wrong (mistakes_eq_nil_iff.2 clean)
  unfold finish
  simp only [some]
  rfl

/-! ## Overflows -/

theorem exists_resolve_eq_ok_iff {symbols : Symbols} (tracks : symbols.Tracks program)
    (token : Token) :
    (∃ located, Operand.resolve (symbols.place program.slotCount) token = .ok located) ↔
      ∃ value, Yields program token.text value := by
  simp only [Operand.resolve_eq_ok_iff tracks]
  constructor
  · rintro ⟨located, yields, -⟩
    exact ⟨located.1, yields⟩
  · rintro ⟨value, yields⟩
    exact ⟨(value, token.span), yields, rfl⟩

theorem readsLeast_iff {symbols : Symbols} (tracks : symbols.Tracks program)
    (tokens : List Token) :
    Operand.ReadsLeast (symbols.place program.slotCount) tokens ↔
      program.ReadsLeast (tokens.map Token.text) := by
  unfold Operand.ReadsLeast
  simp only [exists_resolve_eq_ok_iff tracks]
  constructor
  · rintro ⟨before, token, after, rfl, yields, least⟩
    refine ⟨before.map Token.text, token.text, after.map Token.text, by simp, ?_, least⟩
    intro other member
    obtain ⟨origin, inside, rfl⟩ := List.mem_map.1 member
    exact yields origin inside
  · rintro ⟨before, operand, after, split, yields, least⟩
    obtain ⟨before', rest, rfl, rfl, hrest⟩ := List.map_eq_append_iff.1 split
    obtain ⟨token, after', rfl, rfl, rfl⟩ := List.map_eq_cons_iff.1 hrest
    exact ⟨before', token, after', rfl, fun other member => yields _ (List.mem_map_of_mem member),
      least⟩

theorem holdLeast_of_overflowsAt (scans : Scans texts program)
    (overflows : ∃ k text, program.OverflowsAt texts k text) : HoldLeast texts := by
  obtain ⟨k, text, hk, overflows⟩ := overflows
  refine ⟨text, List.mem_of_getElem? hk, ?_⟩
  have among {word : String} (member : word ∈ (Token.ofLine text).map Token.text)
      (least : Literal.NegatesLeast word.toList) :
      ∃ token ∈ Token.ofLine text, Literal.NegatesLeast token.text.toList := by
    obtain ⟨token, inside, rfl⟩ := List.mem_map.1 member
    exact ⟨token, inside, least⟩
  rcases overflows with ⟨first, literal, words, -, least⟩ | ⟨opcode, operands, said, reads⟩
  · exact among (by rw [words]; simp) least
  · obtain ⟨before, operand, after, rfl, -, least⟩ := reads
    obtain ⟨line, hline, ⟨spells, -⟩ | ⟨-, rfl⟩⟩ := scans.exists_line hk
    · cases said.symm.trans hline
      unfold LineSpells at spells
      generalize hwords : (Token.ofLine text).map Token.text = words at spells among
      cases spells with
      | instruction _ _ _ => exact among (by simp) least
    · cases said.symm.trans hline

namespace Follows

variable {cause : Overflow}

theorem lineOverflows_iff (follows : session.Follows texts program) :
    (∃ diagnostic ∈ session.diagnostics, diagnostic.overflow? = some cause) ↔
      cause = .negation ∧ ∃ k : Nat, ∃ text, texts[k]? = some text ∧ LineOverflows text := by
  constructor
  · rintro ⟨diagnostic, member, overflows⟩
    obtain ⟨least, rfl⟩ := (follows.overflow_iff diagnostic member cause).1 overflows
    obtain ⟨k, -, rejected⟩ := follows.accounts.exists_fault (Array.mem_toList_iff.2 member)
    exact ⟨rfl, k, _, rejected.1, least⟩
  · rintro ⟨rfl, k, text, hk, least⟩
    have bad : Rejected (program.take k) text := fun line spells =>
      absurd spells (Statement.not_spells_of_declaresLeast least line)
    obtain ⟨diagnostic, member, -, rfl⟩ := (follows.accounts.exists_iff _ _).2 ⟨k, rfl, hk, bad⟩
    have member := Array.mem_toList_iff.1 member
    exact ⟨diagnostic, member, (follows.overflow_iff diagnostic member _).2 ⟨least, rfl⟩⟩

/-- Resolving a line overflows if reading one of its operands does. -/
theorem resolveLine_overflow_iff (follows : session.Follows texts program) {k : Nat}
    {recorded : SourceLine} (hrecorded : session.lines.toList[k]? = some recorded) :
    (∃ diagnostic, resolveLine (session.symbols.place program.slotCount) recorded =
        some (.error diagnostic) ∧ diagnostic.overflow? = some cause) ↔
      cause = .negation ∧ ∃ opcode operands, program[k]? = some (.instruction opcode operands) ∧
        program.ReadsLeast operands := by
  obtain ⟨line, hline, shows⟩ := exists_getElem?_eq_of_forall₂ follows.tracks.lines hrecorded
  simp only [hline, Option.some.injEq]
  cases line with
  | instruction opcode operands =>
      obtain ⟨first, rest, index, rfl, count, outcome⟩ :=
        resolveLine_instruction shows (session.symbols.place program.slotCount)
      have settled : (∃ span, Operand.ofTokens (session.symbols.place program.slotCount) opcode
            (first :: rest) = .error ⟨.overflow cause, span⟩) ↔
          Operand.ReadsLeast (session.symbols.place program.slotCount) rest ∧
            cause = .negation :=
        Operand.ofTokens_eq_overflow_iff
      have said : (∃ opcode' operands', Line.instruction opcode (rest.map Token.text) =
          .instruction opcode' operands' ∧ program.ReadsLeast operands') ↔
          program.ReadsLeast (rest.map Token.text) := by
        constructor
        · rintro ⟨_, _, ⟨⟩, least⟩
          exact least
        · exact fun least => ⟨_, _, rfl, least⟩
      rw [said, and_comm, ← readsLeast_iff follows.tracks.symbols, ← settled, outcome]
      cases found : Operand.ofTokens (session.symbols.place program.slotCount) opcode
          (first :: rest) with
      | ok values => simp
      | error mistake =>
          obtain ⟨problem, span⟩ := mistake
          simp [Diagnostic.overflow?]
  | _ =>
      rw [resolveLine_eq_none shows rfl]
      simp

theorem overflowsAt_iff (follows : session.Follows texts program) :
    (∃ diagnostic ∈ session.diagnostics.toList ++ failures session.resolved,
        diagnostic.overflow? = some cause) ↔
      cause = .negation ∧ ∃ k text, program.OverflowsAt texts k text := by
  have second : (∃ diagnostic ∈ failures session.resolved, diagnostic.overflow? = some cause) ↔
      cause = .negation ∧ ∃ k : Nat, ∃ text, texts[k]? = some text ∧ ∃ opcode operands,
        program[k]? = some (.instruction opcode operands) ∧ program.ReadsLeast operands := by
    simp only [mem_failures_iff, resolved, follows.tracks.count, List.mem_filterMap]
    constructor
    · rintro ⟨diagnostic, ⟨recorded, member, failed⟩, overflows⟩
      obtain ⟨k, hrecorded⟩ := List.mem_iff_getElem?.1 member
      obtain ⟨rfl, said⟩ :=
        (follows.resolveLine_overflow_iff hrecorded).1 ⟨diagnostic, failed, overflows⟩
      exact ⟨rfl, k, _, (follows.numbered k recorded hrecorded).2, said⟩
    · rintro ⟨rfl, k, text, hk, said⟩
      have hlt : k < session.lines.toList.length := by
        have hsize : session.lines.toList.length = texts.length := follows.size_lines
        rw [hsize]
        exact (List.getElem?_eq_some_iff.1 hk).1
      have hrecorded := List.getElem?_eq_getElem hlt
      obtain ⟨diagnostic, failed, overflows⟩ :=
        (follows.resolveLine_overflow_iff hrecorded).2 ⟨rfl, said⟩
      exact ⟨diagnostic, ⟨_, List.getElem_mem hlt, failed⟩, overflows⟩
  unfold Program.OverflowsAt
  simp only [List.mem_append, Array.mem_toList_iff, or_and_right, exists_or, second,
    follows.lineOverflows_iff, and_or_left]

/-- A session in which a literal overflows has no other outcome. -/
theorem finish_of_overflowsAt (follows : session.Follows texts program)
    (overflows : ∃ k text, program.OverflowsAt texts k text) :
    session.finish.result = .error (.overflow .negation) := by
  obtain ⟨diagnostic, member, hcause⟩ := follows.overflowsAt_iff.2 ⟨rfl, overflows⟩
  have wrong : session.mistakes ≠ [] := by
    rw [Ne, mistakes_eq_nil_iff]
    exact List.ne_nil_of_mem member
  rw [finish_of_mistakes_ne_nil wrong]
  rcases AssemblyError.ofDiagnostics_cases
      (session.diagnostics.toList ++ failures session.resolved) with
    ⟨other, inside, cause, found, outcome⟩ | ⟨none, -⟩
  · rw [outcome, (follows.overflowsAt_iff.1 ⟨other, inside, found⟩).1]
  · rw [none diagnostic member] at hcause
    cases hcause

theorem finish_of_mistakes_ne_nil (follows : session.Follows texts program)
    (plain : ∀ k text, ¬ program.OverflowsAt texts k text) (wrong : session.mistakes ≠ []) :
    session.finish.result = .error (.mistakes session.mistakes) := by
  rw [Session.finish_of_mistakes_ne_nil wrong]
  rcases AssemblyError.ofDiagnostics_cases
      (session.diagnostics.toList ++ failures session.resolved) with
    ⟨other, inside, cause, found, -⟩ | ⟨-, outcome⟩
  · obtain ⟨-, k, text, overflows⟩ := follows.overflowsAt_iff.1 ⟨other, inside, found⟩
    exact absurd overflows (plain k text)
  · rw [outcome]
    rfl

/-- The diagnostics that a session finishes with are its own, and none of them is an overflow. -/
theorem mem_of_finish_eq_mistakes (follows : session.Follows texts program)
    {diagnostics : List Diagnostic}
    (failed : session.finish.result = .error (.mistakes diagnostics)) {diagnostic : Diagnostic}
    (member : diagnostic ∈ diagnostics) :
    diagnostic.overflow? = none ∧
      (diagnostic ∈ session.diagnostics ∨ diagnostic ∈ failures session.resolved) := by
  by_cases clean : session.mistakes = []
  · rcases follows.finish_of_mistakes_eq_nil clean with ⟨-, image, settled, -⟩ | ⟨-, settled⟩
    · rw [settled] at failed
      cases failed
    · rw [settled] at failed
      cases failed
  · rw [Session.finish_of_mistakes_ne_nil clean] at failed
    rcases AssemblyError.ofDiagnostics_cases
        (session.diagnostics.toList ++ failures session.resolved) with
      ⟨-, -, cause, -, outcome⟩ | ⟨plain, outcome⟩
    · rw [outcome] at failed
      cases failed
    · rw [outcome] at failed
      cases failed
      have inside := (Diagnostic.perm_sorted _).mem_iff.1 member
      refine ⟨plain diagnostic inside, ?_⟩
      rwa [List.mem_append, Array.mem_toList_iff] at inside

end Follows

end Session

/--
Whatever sources a session is fed, the program stops if and only if there is a minus in front of the
least number where a line declares it or an instruction reads it. Unless there is one, the
diagnostics are one for each faulty line, in the order of the lines: for each line that is rejected
where it stands or has an operand that does not fit. If there are any, the session finishes with
them, and with a message that counts them. Otherwise it finishes with an image or, if the program is
too large, with its size; words there always are. A line that is rejected says nothing: the names and
the number of instructions stay what they were before it.
-/
theorem Session.finish_faults (sources : List String) :
    ∃ program, Scans (sources.flatMap Text.lines) program ∧
      ((∃ k text, program.OverflowsAt (sources.flatMap Text.lines) k text) →
        (fed sources).finish.result = .error (.overflow .negation)) ∧
      ((∀ k text, ¬ program.OverflowsAt (sources.flatMap Text.lines) k text) →
        (Accounts (fed sources).mistakes fun k text =>
          program.RejectedAt (sources.flatMap Text.lines) k text ∨
            program.MisfitAt (sources.flatMap Text.lines) k text) ∧
        ((fed sources).mistakes ≠ [] → ∃ error, (fed sources).finish.result = .error error ∧
          error = .mistakes (fed sources).mistakes ∧
          error.message = String.join [toString (fed sources).mistakes.length,
            " error(s) occurred, no output will be written"]) ∧
        ((fed sources).mistakes = [] →
          (program.size ≤ 2048 ∧ ∃ image, (fed sources).finish.result = .ok image ∧
              image.layout = some ⟨program.slotCount, program.varCount⟩) ∨
            2048 < program.size ∧
              (fed sources).finish.result = .error (.tooLarge program.size))) ∧
      ∀ k text, program.RejectedAt (sources.flatMap Text.lines) k text →
        program[k]? = some .blank ∧
          (reading ((sources.flatMap Text.lines).take k)).Skips text := by
  rw [fed_eq_reading]
  obtain ⟨program, follows⟩ := exists_follows (sources.flatMap Text.lines)
  refine ⟨program, follows.scans, follows.finish_of_overflowsAt, fun plain =>
    ⟨follows.accounts_mistakes, fun wrong => ⟨_, follows.finish_of_mistakes_ne_nil plain wrong, rfl, rfl⟩,
      follows.finish_of_mistakes_eq_nil⟩, fun k text rejected => ?_⟩
  obtain ⟨part, follows'⟩ := exists_follows ((sources.flatMap Text.lines).take k)
  rw [follows'.scans.unique (follows.scans.take k)] at follows'
  obtain ⟨line, hline, ⟨spells, declarable⟩ | ⟨bad, rfl⟩⟩ := follows.scans.exists_line rejected.1
  · exact absurd declarable (rejected.2 line spells)
  · exact ⟨hline, follows'.tracks.skips_of_rejected bad⟩

/-- An operand that is out of range by one is no mistake, and its line has no diagnostic. -/
theorem Session.finish_overflows :
    (fed ["ADD -0x-8000000000000000 r1 r1"]).finish.result = .error (.overflow .negation) := by
  decide +kernel

end Redstone

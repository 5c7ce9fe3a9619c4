import Redstone.Proofs.Program.Faults
import Redstone.Proofs.Program.Tiling

/-!
# Where a diagnostic points

The span of a diagnostic runs from the start of a token of its line to the end of one, and so it
never cuts a character, never is empty and never leaves the code. In the first pass it is a token
or the whole statement. In the second pass it is one operand as it is written: the first one that
comes to no number, or else the first one that its field cannot hold.
-/

namespace Redstone

/-! ## First items -/

inductive IsFirst {α : Type} (p : α → Prop) : List α → α → Prop where
  | head {item : α} {rest : List α} (holds : p item) : IsFirst p (item :: rest) item
  | tail {item other : α} {rest : List α} (fails : ¬ p other) (first : IsFirst p rest item) :
      IsFirst p (other :: rest) item

namespace IsFirst

variable {α β : Type} {p : α → Prop} {q : β → Prop} {items : List α} {item : α}

theorem mem (first : IsFirst p items item) : item ∈ items := by
  induction first with
  | head _ => exact List.mem_cons_self
  | tail _ _ ih => exact List.mem_cons_of_mem _ ih

/-- An item without the property may as well be left out. -/
theorem of_insertIdx {other : α} {i : Nat} (fails : ¬ p other)
    (first : IsFirst p (items.insertIdx i other) item) : IsFirst p items item := by
  induction i generalizing items with
  | zero =>
      cases first with
      | head holds => exact absurd holds fails
      | tail _ first => exact first
  | succ i ih =>
      cases items with
      | nil => exact first
      | cons next rest =>
          cases first with
          | head holds => exact .head holds
          | tail fails' first => exact .tail fails' (ih first)

/-- Of lists related item by item the first items are related. -/
theorem exists_of_forall₂ {R : β → α → Prop} {others : List β} (all : List.Forall₂ R others items)
    (alike : ∀ other item, R other item → (q other ↔ p item)) (first : IsFirst p items item) :
    ∃ other, R other item ∧ IsFirst q others other := by
  induction all with
  | nil => cases first
  | cons head _ ih =>
      cases first with
      | head holds => exact ⟨_, head, .head ((alike _ _ head).2 holds)⟩
      | tail fails first =>
          obtain ⟨other, related, first'⟩ := ih first
          exact ⟨other, related, .tail (fun holds => fails ((alike _ _ head).1 holds)) first'⟩

end IsFirst

/-! ## Spans that run from token to token -/

/-- A span with which part of the code of a line can be shown. -/
structure Span.PointsInto (span : Span) (line : String) : Prop where
  nonempty : 0 < span.length
  starts : String.Pos.Raw.IsValid line ⟨span.start⟩
  ends : String.Pos.Raw.IsValid line ⟨span.start + span.length⟩
  inside : span.start + span.length ≤ (Token.code line).utf8ByteSize
  first : ∃ token ∈ Token.ofLine line, token.column = span.start
  last : ∃ token ∈ Token.ofLine line,
    token.column + token.text.utf8ByteSize = span.start + span.length
  /-- The text that it covers has no separators around it. -/
  bare : ∃ before part after, line = before ++ part ++ after ∧
    span.start = before.utf8ByteSize ∧ span.length = part.utf8ByteSize ∧ Token.Bare part.toList

namespace Span

def between (first last : Token) : Span :=
  ⟨first.column, last.column + last.text.utf8ByteSize - first.column⟩

/-- A span that runs from a token to the same or a later one shows part of the code. -/
theorem PointsInto.of_between {line : String} {first last : Token}
    (hfirst : first ∈ Token.ofLine line) (hlast : last ∈ Token.ofLine line)
    (ordered : first.column ≤ last.column) : (between first last).PointsInto line := by
  obtain ⟨before, part, after, split, place, finish, bare⟩ :=
    (Token.tiles_ofLine line).exists_stretch hfirst hlast ordered
  have start : (between first last).start = (String.ofList before).utf8ByteSize := by
    rw [between, place, Nat.zero_add]
    rfl
  have length : (between first last).length = (String.ofList part).utf8ByteSize := by
    rw [between, finish, Nat.add_sub_cancel_left]
    rfl
  have stop : (between first last).start + (between first last).length =
      (String.ofList before ++ String.ofList part).utf8ByteSize := by
    rw [String.utf8ByteSize_append, start, length]
  have code : Token.code line =
      String.ofList before ++ String.ofList part ++ String.ofList after := by
    rw [Token.code, split, String.ofList_append, String.ofList_append]
  obtain ⟨comment, whole⟩ := Token.exists_code_append line
  rw [code, String.append_assoc] at whole
  obtain ⟨starts, ends⟩ := Token.isValid_of_split whole
  have nonempty : (String.ofList part).utf8ByteSize ≠ 0 := by
    rw [Ne, String.utf8ByteSize_eq_zero_iff, String.ofList_eq_empty_iff]
    exact bare.nonempty
  refine ⟨by omega, by rwa [start], by rwa [start, length], ?_, ⟨first, hfirst, rfl⟩,
    ⟨last, hlast, ?_⟩, _, _, _, whole, start, length, by rwa [String.toList_ofList]⟩
  · rw [code, String.utf8ByteSize_append, stop]
    exact Nat.le_add_right _ _
  · simp only [between]
    omega

end Span

def Token.Marks (tokens : List Token) (span : Span) : Prop :=
  (∃ token ∈ tokens, span = token.span) ∨
    ∃ first rest, tokens = first :: rest ∧ span = Statement.wholeSpan first rest

theorem Span.PointsInto.of_marks {line : String} {span : Span}
    (marks : Token.Marks (Token.ofLine line) span) : span.PointsInto line := by
  rcases marks with ⟨token, member, rfl⟩ | ⟨first, rest, tokens, rfl⟩
  · have single : token.span = between token token := by
      rw [Token.span, between, Nat.add_sub_cancel_left]
    rw [single]
    exact .of_between member member (Nat.le_refl _)
  · have ordered := (Token.tiles_ofLine line).pairwise
    rw [tokens] at ordered
    have last : rest.getLastD first ∈ first :: rest := List.getLastD_mem_cons
    refine .of_between (by rw [tokens]; exact List.mem_cons_self) (by rwa [tokens]) ?_
    rcases List.mem_cons.1 last with same | behind
    · rw [same]
    · have := List.rel_of_pairwise_cons ordered behind
      omega

/-! ## The first pass -/

namespace Statement

def tokens : Statement → List Token
  | blank | instruction _ => []
  | label _ token => [token]
  | declaration _ _ _ nameToken valueToken => [nameToken, valueToken]

theorem marks_of_ofDeclaration_eq_error {kind : DeclarationKind} {name : String} {first : Token}
    {rest : List Token} {mistake : Mistake}
    (failed : ofDeclaration kind name first rest = .error mistake) :
    Token.Marks (first :: rest) mistake.span := by
  unfold ofDeclaration at failed
  split at failed
  · next literal =>
      split at failed
      · cases failed
      all_goals
        cases failed
        exact .inl ⟨literal, by simp, rfl⟩
  · cases failed
    exact .inr ⟨first, rest, rfl, rfl⟩

theorem marks_of_ofInstruction_eq_error {first : Token} {rest : List Token} {mistake : Mistake}
    (failed : ofInstruction first rest = .error mistake) :
    Token.Marks (first :: rest) mistake.span := by
  unfold ofInstruction at failed
  split at failed
  · cases failed
    exact .inl ⟨first, List.mem_cons_self, rfl⟩
  · split at failed
    · cases failed
    · cases failed
      exact .inr ⟨first, rest, rfl, rfl⟩

/-- A line that says nothing is faulted for a token or for all of its tokens. -/
theorem marks_of_ofTokens_eq_error {tokens : List Token} {mistake : Mistake}
    (failed : ofTokens tokens = .error mistake) : Token.Marks tokens mistake.span := by
  cases tokens with
  | nil => cases failed
  | cons first rest =>
      simp only [ofTokens] at failed
      split at failed
      · split at failed
        · cases failed
        · cases failed
          exact .inr ⟨first, rest, rfl, rfl⟩
      · split at failed
        · exact marks_of_ofDeclaration_eq_error failed
        · exact marks_of_ofInstruction_eq_error failed

theorem mem_of_ofTokens_eq_ok {tokens : List Token} {statement : Statement}
    (read : ofTokens tokens = .ok statement) {token : Token} (member : token ∈ statement.tokens) :
    token ∈ tokens := by
  cases tokens with
  | nil =>
      cases read
      cases member
  | cons first rest =>
      simp only [ofTokens] at read
      split at read
      · split at read
        · cases read
          rw [List.mem_singleton.1 member]
          exact List.mem_cons_self
        · cases read
      · split at read
        · obtain ⟨literal, value, rfl, -, rfl⟩ := ofDeclaration_eq_ok_iff.1 read
          exact member
        · obtain ⟨opcode, -, -, rfl⟩ := ofInstruction_eq_ok_iff.1 read
          cases member

end Statement

namespace Session

/-- A statement that cannot be enacted is faulted for one of its tokens. -/
theorem exists_token_of_enact_eq_error {symbols : Symbols} {count : Nat} {statement : Statement}
    {mistake : Mistake} (failed : enact symbols count statement = .error mistake) :
    ∃ token ∈ statement.tokens, mistake.span = token.span := by
  unfold enact at failed
  split at failed
  · cases failed
  · next name token =>
      split at failed
      · cases failed
      · cases failed
        exact ⟨token, List.mem_cons_self, rfl⟩
  · next kind name value nameToken valueToken =>
      split at failed
      · cases failed
      · next e _ =>
          cases failed
          refine ⟨blamed e nameToken valueToken, ?_, rfl⟩
          unfold blamed
          split <;> simp [Statement.tokens]
  · cases failed

theorem marks_of_readLine (session : Session) (text : String) {diagnostic : Diagnostic}
    (member : diagnostic ∈ (session.readLine text).diagnostics) :
    diagnostic ∈ session.diagnostics ∨
      Token.Marks (Token.ofLine diagnostic.text) diagnostic.mistake.span := by
  obtain ⟨symbols, lines, count, diagnostics, reports⟩ := session
  unfold readLine at member
  dsimp only at member
  split at member
  · exact .inl member
  · next mistake effect =>
      rcases Array.mem_push.1 member with earlier | rfl
      · exact .inl earlier
      · refine .inr ?_
        cases read : Statement.ofTokens (Token.ofLine text) with
        | error other =>
            rw [read] at effect
            cases effect
            exact Statement.marks_of_ofTokens_eq_error read
        | ok statement =>
            rw [read] at effect
            obtain ⟨token, inside, same⟩ := exists_token_of_enact_eq_error effect
            exact .inl ⟨token, Statement.mem_of_ofTokens_eq_ok read inside, same⟩

/-- In the first pass every line is faulted for a token or for all of its tokens. -/
theorem marks_of_mem_diagnostics (texts : List String) {diagnostic : Diagnostic}
    (member : diagnostic ∈ (reading texts).diagnostics) :
    Token.Marks (Token.ofLine diagnostic.text) diagnostic.mistake.span := by
  induction texts using List.reverseRecOn with
  | nil => exact absurd member (Array.not_mem_empty diagnostic)
  | append_singleton texts text ih =>
      rw [reading, List.foldl_concat] at member
      exact (marks_of_readLine _ text member).elim ih id

end Session

/-! ## The second pass -/

/-- Whether a number is negative or larger than all that a field can hold. -/
def Field.Excludes (field : Field) (value : Int) : Prop :=
  value < 0 ∨ (field.max : Int) < value

namespace Opcode

/-- The fields of the operands that are written; a short form leaves one out. -/
def writtenFields (opcode : Opcode) (count : Nat) : List Field :=
  match opcode, count with
  | .rsh, 2 => opcode.fields.eraseIdx 1
  | .pas, 1 => opcode.fields.eraseIdx 0
  | _, _ => opcode.fields

theorem writtenFields_of_full (opcode : Opcode) :
    opcode.writtenFields opcode.fields.length = opcode.fields := by
  cases opcode <;> rfl

end Opcode

/--
The operand that an instruction is faulted for: the first one that comes to no number, which is a
name, or, if all come to one, the first one whose field excludes its number.
-/
inductive Blames (program : Program) (opcode : Opcode) (operands : List Token) : Token → Prop where
  | undefined {token : Token}
      (first : IsFirst (fun other => ∀ value, ¬ Yields program other.text value) operands token)
      (named : ∃ name, Operand.ofText token.text = .ok (.alias name)) :
      Blames program opcode operands token
  | excluded {field : Field} {token : Token}
      (defined : ∀ other ∈ operands, ∃ value, Yields program other.text value)
      (first : IsFirst (fun slot : Field × Token =>
          ∃ value, Yields program slot.2.text value ∧ slot.1.Excludes value)
        ((opcode.writtenFields operands.length).zip operands) (field, token)) :
      Blames program opcode operands token

/-- An instruction is faulted for one of its operands. -/
theorem Blames.mem {program : Program} {opcode : Opcode} {operands : List Token} {token : Token}
    (blames : Blames program opcode operands token) : token ∈ operands := by
  cases blames with
  | undefined first _ => exact first.mem
  | excluded _ first => exact (List.of_mem_zip first.mem).2

namespace Operand

variable {symbols : Symbols} {program : Program}

/-- An operand that is not resolved is a name, or overflows. -/
theorem span_of_resolve_eq_error {token : Token} {mistake : Mistake}
    (failed : resolve symbols token = .error mistake) :
    mistake.span = token.span ∧ ((∃ name, ofText token.text = .ok (.alias name)) ∨
      ∃ cause, mistake.problem.overflow? = some cause) := by
  unfold resolve at failed
  split at failed
  · cases failed
  · next name read =>
      split at failed
      · cases failed
      · cases failed
        exact ⟨rfl, .inl ⟨name, read⟩⟩
  · next cause read =>
      cases failed
      exact ⟨rfl, .inr ⟨cause, rfl⟩⟩

/-- Operands are resolved up to the first one that comes to no number. -/
theorem exists_first_of_resolveAll_eq_error (tracks : symbols.Tracks program)
    {tokens : List Token} {mistake : Mistake}
    (failed : resolveAll (symbols.place program.slotCount) tokens = .error mistake) :
    ∃ token, IsFirst (fun other => ∀ value, ¬ Yields program other.text value) tokens token ∧
      mistake.span = token.span ∧ ((∃ name, ofText token.text = .ok (.alias name)) ∨
        ∃ cause, mistake.problem.overflow? = some cause) := by
  induction tokens with
  | nil => cases failed
  | cons token tokens ih =>
      have settled := resolve_eq_ok_iff tracks token
      unfold resolveAll at failed
      cases outcome : resolve (symbols.place program.slotCount) token with
      | error other =>
          rw [outcome] at failed settled
          cases failed
          refine ⟨token, .head fun value yields => ?_, span_of_resolve_eq_error outcome⟩
          cases (settled (value, token.span)).2 ⟨yields, rfl⟩
      | ok located =>
          have yields := ((settled located).1 outcome).1
          simp only [outcome] at failed
          split at failed
          · next rest =>
              cases failed
              obtain ⟨blamed, first, same⟩ := ih rest
              exact ⟨blamed, .tail (fun none => none _ yields) first, same⟩
          · cases failed

theorem check_cases (field : Field) (operand : Located) :
    (field.Excludes operand.1 ∧ ∃ problem, check field operand = .error ⟨problem, operand.2⟩) ∨
      (¬ field.Excludes operand.1 ∧ ∃ value, check field operand = .ok value) := by
  obtain ⟨value, span⟩ := operand
  unfold Field.Excludes
  simp only [check]
  split
  · next negative => exact .inl ⟨.inl negative, _, rfl⟩
  · split
    · next large => exact .inl ⟨.inr (by omega), _, rfl⟩
    · next fits => exact .inr ⟨by omega, _, rfl⟩

/-- Operands are checked up to the first one whose field excludes it. -/
theorem exists_first_of_checkAll_eq_error {fields : List Field} {operands : List Located}
    {mistake : Mistake} (failed : checkAll fields operands = .error mistake) :
    ∃ slot, IsFirst (fun slot : Field × Located => slot.1.Excludes slot.2.1)
      (fields.zip operands) slot ∧ mistake.span = slot.2.2 := by
  induction fields generalizing operands with
  | nil => cases failed
  | cons field fields ih =>
      cases operands with
      | nil => cases failed
      | cons operand operands =>
          unfold checkAll at failed
          rw [List.zip_cons_cons]
          rcases check_cases field operand with
            ⟨excluded, problem, checked⟩ | ⟨holds, value, checked⟩
          · rw [checked] at failed
            cases failed
            exact ⟨(field, operand), .head excluded, rfl⟩
          · simp only [checked] at failed
            split at failed
            · next rest =>
                cases failed
                obtain ⟨slot, first, same⟩ := ih rest
                exact ⟨slot, .tail holds first, same⟩
            · cases failed

/-- No field excludes the zero of a short form, so its place is of no consequence. -/
theorem first_of_complete {opcode : Opcode} {operands : List Located}
    (count : opcode.Takes operands.length) {mnemonic : Span} {slot : Field × Located}
    (first : IsFirst (fun slot : Field × Located => slot.1.Excludes slot.2.1)
      (opcode.fields.zip (complete opcode mnemonic operands)) slot) :
    IsFirst (fun slot : Field × Located => slot.1.Excludes slot.2.1)
      ((opcode.writtenFields operands.length).zip operands) slot := by
  have zero (field : Field) : ¬ field.Excludes 0 := by
    unfold Field.Excludes
    omega
  rcases count with full | ⟨rfl, two⟩ | ⟨rfl, one⟩
  · have full : operands.length = opcode.fields.length := full
    rw [full, Opcode.writtenFields_of_full]
    rwa [complete, if_neg (by omega)] at first
  · obtain ⟨a, c, rfl⟩ := List.length_eq_two.1 two
    exact .of_insertIdx (i := 1) (zero _) first
  · obtain ⟨b, rfl⟩ := List.length_eq_one_iff.1 one
    exact .of_insertIdx (i := 0) (zero _) first

theorem Located.Of.zip {tokens : List Token} {operands : List Located}
    (of : Located.Of program tokens operands) (fields : List Field) :
    List.Forall₂ (fun (slot : Field × Token) (other : Field × Located) => slot.1 = other.1 ∧
        Yields program slot.2.text other.2.1 ∧ other.2.2 = slot.2.span)
      (fields.zip tokens) (fields.zip operands) := by
  unfold Located.Of at of
  induction of generalizing fields with
  | nil =>
      rw [List.zip_nil_right, List.zip_nil_right]
      exact .nil
  | cons head _ ih =>
      cases fields with
      | nil => exact .nil
      | cons field fields => exact .cons ⟨rfl, head⟩ (ih fields)

/-- The operands of a line are faulted for the one that does not fit. -/
theorem exists_blames_of_ofTokens_eq_error (tracks : symbols.Tracks program) {opcode : Opcode}
    {first : Token} {rest : List Token} (count : opcode.Takes rest.length) {mistake : Mistake}
    (failed : ofTokens (symbols.place program.slotCount) opcode (first :: rest) =
      .error mistake) :
    ∃ token ∈ rest, mistake.span = token.span ∧
      (mistake.problem.overflow? = none → Blames program opcode rest token) := by
  unfold ofTokens at failed
  dsimp only at failed
  split at failed
  · next undefined =>
      cases failed
      obtain ⟨token, first, same, named | ⟨cause, overflows⟩⟩ :=
        exists_first_of_resolveAll_eq_error tracks undefined
      · exact ⟨token, first.mem, same, fun _ => .undefined first named⟩
      · refine ⟨token, first.mem, same, fun plain => ?_⟩
        rw [overflows] at plain
        cases plain
  · next operands resolved =>
      have of := (resolveAll_eq_ok_iff tracks rest operands).1 resolved
      have defined : ∀ other ∈ rest, ∃ value, Yields program other.text value := by
        intro other member
        obtain ⟨operand, yields, -⟩ := (exists_forall₂_iff rest).1 ⟨operands, of⟩ other member
        exact ⟨operand.1, yields⟩
      have alike (slot : Field × Token) (other : Field × Located) : slot.1 = other.1 ∧
          Yields program slot.2.text other.2.1 ∧ other.2.2 = slot.2.span →
          ((∃ value, Yields program slot.2.text value ∧ slot.1.Excludes value) ↔
            other.1.Excludes other.2.1) := by
        rintro ⟨field, yields, -⟩
        rw [field]
        constructor
        · rintro ⟨value, yields', excluded⟩
          rwa [Operand.yields_unique tracks yields' yields] at excluded
        · exact fun excluded => ⟨_, yields, excluded⟩
      -- The fault is found among the values with the zero put in, and is one of a written operand.
      obtain ⟨other, excluded, same⟩ := exists_first_of_checkAll_eq_error failed
      rw [of.length_eq] at count
      have excluded := first_of_complete count excluded
      rw [← of.length_eq] at excluded
      obtain ⟨⟨field, token⟩, ⟨-, -, place⟩, first⟩ := excluded.exists_of_forall₂ (of.zip _) alike
      have blames : Blames program opcode rest token := .excluded defined first
      exact ⟨token, blames.mem, same.trans place, fun _ => blames⟩

end Operand

/-! ## Both passes -/

namespace Session

theorem tokens_of_mem_lines (texts : List String) {recorded : SourceLine}
    (member : recorded ∈ (reading texts).lines) :
    recorded.tokens = Token.ofLine recorded.text := by
  induction texts using List.reverseRecOn with
  | nil => exact absurd member (Array.not_mem_empty recorded)
  | append_singleton texts text ih =>
      rw [reading, List.foldl_concat] at member
      obtain ⟨content, hlines⟩ := exists_lines_readLine (reading texts) text
      rw [reading] at hlines
      rw [hlines] at member
      rcases Array.mem_push.1 member with earlier | rfl
      · exact ih earlier
      · rfl

/-- In the second pass a line is faulted for one of its operands as they are written. -/
theorem exists_blames_of_mem_failures {texts : List String} {program : Program}
    (follows : (reading texts).Follows texts program) {diagnostic : Diagnostic}
    (member : diagnostic ∈ failures (reading texts).resolved) :
    ∃ k opcode first rest, diagnostic.line = k + 1 ∧ texts[k]? = some diagnostic.text ∧
      Token.ofLine diagnostic.text = first :: rest ∧
      program[k]? = some (.instruction opcode (rest.map Token.text)) ∧
      ∃ token ∈ rest, diagnostic.mistake.span = token.span ∧
        (diagnostic.overflow? = none → Blames program opcode rest token) := by
  rw [mem_failures_iff, resolved, follows.tracks.count, List.mem_filterMap] at member
  obtain ⟨recorded, inside, failed⟩ := member
  obtain ⟨k, hrecorded⟩ := List.mem_iff_getElem?.1 inside
  obtain ⟨hline, htext⟩ := eq_of_resolveLine_error failed
  obtain ⟨hnumber, hat⟩ := follows.numbered k recorded hrecorded
  have htokens := tokens_of_mem_lines texts (Array.mem_toList_iff.1 inside)
  obtain ⟨line, hprogram, shows⟩ := exists_getElem?_eq_of_forall₂ follows.tracks.lines hrecorded
  obtain ⟨number, text, tokens, content⟩ := recorded
  cases content with
  | instruction opcode index =>
      obtain ⟨first, rest, rfl, count, rfl⟩ := shows
      simp only [resolveLine] at failed
      split at failed
      · cases failed
      · next mistake found =>
          cases failed
          exact ⟨k, opcode, first, rest, hnumber, hat, htokens.symm, hprogram,
            Operand.exists_blames_of_ofTokens_eq_error follows.tracks.symbols count found⟩
  | _ => cases failed

end Session

/--
Whatever sources a session is fed, every diagnostic of either pass shows a line as it was read and
points into its code, from the start of a token to the end of one. In the second pass it points at
the first operand of the line that comes to no number or, if there is none, at the first one whose
field excludes its number, whether or not the line is written in a short form. An operand that
overflows makes no diagnostic: those that the session finishes with are about other operands.
-/
theorem Session.diagnostics_point (sources : List String) :
    ∃ program, Scans (sources.flatMap Text.lines) program ∧
      (∀ diagnostic, diagnostic ∈ (fed sources).diagnostics ∨
          diagnostic ∈ failures (fed sources).resolved →
        (∃ k, diagnostic.line = k + 1 ∧
          (sources.flatMap Text.lines)[k]? = some diagnostic.text) ∧
        diagnostic.mistake.span.PointsInto diagnostic.text) ∧
      (∀ diagnostic ∈ failures (fed sources).resolved, diagnostic.overflow? = none →
        ∃ opcode first rest token, Token.ofLine diagnostic.text = first :: rest ∧
          program[diagnostic.line - 1]? = some (.instruction opcode (rest.map Token.text)) ∧
          Blames program opcode rest token ∧ diagnostic.mistake.span = token.span) ∧
      ∀ diagnostics, (fed sources).finish.result = .error (.mistakes diagnostics) →
        ∀ diagnostic ∈ diagnostics, diagnostic.overflow? = none ∧
          (diagnostic ∈ (fed sources).diagnostics ∨
            diagnostic ∈ failures (fed sources).resolved) := by
  rw [fed_eq_reading]
  obtain ⟨program, follows⟩ := exists_follows (sources.flatMap Text.lines)
  refine ⟨program, follows.scans, ?_, ?_, fun _ failed _ => follows.mem_of_finish_eq_mistakes failed⟩
  · rintro diagnostic (member | member)
    · obtain ⟨k, hline, rejected⟩ := follows.accounts.exists_fault (Array.mem_toList_iff.2 member)
      exact ⟨⟨k, hline, rejected.1⟩, .of_marks (marks_of_mem_diagnostics _ member)⟩
    · obtain ⟨k, opcode, first, rest, hline, htext, htokens, -, token, inside, same, -⟩ :=
        exists_blames_of_mem_failures follows member
      refine ⟨⟨k, hline, htext⟩, .of_marks (.inl ⟨token, ?_, same⟩)⟩
      rw [htokens]
      exact List.mem_cons_of_mem _ inside
  · intro diagnostic member plain
    obtain ⟨k, opcode, first, rest, hline, -, htokens, hprogram, token, -, same, blames⟩ :=
      exists_blames_of_mem_failures follows member
    rw [hline, Nat.add_sub_cancel]
    exact ⟨opcode, first, rest, token, htokens, hprogram, blames plain, same⟩

/-- The zero that a short form leaves out moves no span. -/
example : (Session.failures (Session.fed ["RSH r1, 9\n"]).resolved).map (·.mistake.span) =
    [⟨8, 1⟩] := by decide

end Redstone

import Redstone.Proofs.Program.Basic

/-!
# Statements and lines

A statement is read from the tokens of a line exactly when the line says
something, and it is what the line says. The order in which the reader looks
at colons, marks, sizes and literals is of no consequence: the shapes exclude
each other.
-/

namespace Redstone

/-! ## Mnemonics and literals -/

theorem Opcode.ofMnemonic?_eq_some_iff (name : String) (opcode : Opcode) :
    ofMnemonic? name = some opcode ↔
      name.toList.map Char.toUpper = opcode.mnemonic.toList := by
  constructor
  · intro h
    have found := List.find?_some h
    exact (beq_iff_eq.1 found).symm
  · intro h
    have own := ofMnemonic?_mnemonic opcode
    have upper : opcode.mnemonic.toList.map Char.toUpper = opcode.mnemonic.toList := by
      cases opcode <;> decide
    unfold ofMnemonic? at own ⊢
    rw [h]
    rwa [upper] at own

/-- A mnemonic starts with neither of the marks of a declaration. -/
theorem Statement.declarationMark?_of_mnemonic {token : Token} {opcode : Opcode}
    (h : token.text.toList.map Char.toUpper = opcode.mnemonic.toList) :
    declarationMark? token = none := by
  have unmarked : opcode.mnemonic.toList.head? ≠ some '.' ∧
      opcode.mnemonic.toList.head? ≠ some '#' := by
    cases opcode <;> decide
  rw [← h, List.head?_map] at unmarked
  unfold declarationMark?
  split
  · next name spelt => exact absurd (by rw [spelt]; rfl) unmarked.1
  · next name spelt => exact absurd (by rw [spelt]; rfl) unmarked.2
  · rfl

theorem Numeral.digitValue?_colon (base : Nat) : digitValue? base ':' = none := by
  have : ¬ (('0' : Char) ≤ ':' ∧ (':' : Char) ≤ '9') := by decide
  have : ¬ (('a' : Char) ≤ ':' ∧ (':' : Char) ≤ 'z') := by decide
  have : ¬ (('A' : Char) ≤ ':' ∧ (':' : Char) ≤ 'Z') := by decide
  simp [digitValue?, *]

def EndsPlain (cs : List Char) : Prop :=
  cs ≠ [] ∧ cs.getLast? ≠ some ':'

theorem EndsPlain.cons {cs : List Char} (h : EndsPlain cs) (c : Char) : EndsPlain (c :: cs) := by
  obtain ⟨nonempty, last⟩ := h
  cases cs with
  | nil => exact absurd rfl nonempty
  | cons next rest => exact ⟨by simp, by simpa using last⟩

theorem Numeral.endsPlain_of_value? {base n : Nat} {cs : List Char}
    (h : value? base cs = some n) : EndsPlain cs := by
  have last (high : Nat) (cs : List Char) (h : (valueAfter? base high cs).isSome) :
      cs.getLast? ≠ some ':' := by
    induction cs generalizing high with
    | nil => simp
    | cons c cs ih =>
        unfold valueAfter? at h
        cases digit : digitValue? base c with
        | none => simp [digit] at h
        | some d =>
            simp only [digit] at h
            cases cs with
            | nil =>
                intro colon
                have : c = ':' := by simpa using colon
                simp [this, digitValue?_colon] at digit
            | cons next rest => simpa using ih _ h
  unfold value? at h
  split at h
  · simp at h
  · next nonempty => exact ⟨by simpa using nonempty, last 0 cs (by simp [h])⟩

theorem Literal.endsPlain_of_signed? {base : Nat} {cs : List Char} {value : Int}
    (h : signed? base cs = some value) : EndsPlain cs := by
  unfold signed? at h
  replace h := (Option.filter_eq_some_iff.1 h).1
  split at h
  · next digits =>
      cases read : Numeral.value? base digits with
      | none => simp [read] at h
      | some n => exact (Numeral.endsPlain_of_value? read).cons '-'
  · next digits =>
      cases read : Numeral.value? base digits with
      | none => simp [read] at h
      | some n => exact (Numeral.endsPlain_of_value? read).cons '+'
  · cases read : Numeral.value? base cs with
    | none => simp [read] at h
    | some n => exact Numeral.endsPlain_of_value? read

theorem Literal.endsPlain_of_magnitude? {cs : List Char} {value : Int}
    (h : magnitude? cs = some value) : EndsPlain cs := by
  unfold magnitude? at h
  split at h
  all_goals try exact ((endsPlain_of_signed? h).cons _).cons _
  cases read : Numeral.value? 10 cs with
  | none => simp [read] at h
  | some n => exact Numeral.endsPlain_of_value? read

/-- What is read as a number, or would be if it were not too large. -/
theorem Literal.endsPlain_of_valueOf? {cs : List Char}
    (h : (∃ value, valueOf? cs = .ok (some value)) ∨ ∃ cause, valueOf? cs = .error cause) :
    EndsPlain cs := by
  by_cases minus : cs.head? = some '-'
  · obtain ⟨body, rfl⟩ := List.head?_eq_some_iff.1 minus
    rw [valueOf?_minus] at h
    cases read : magnitude? body with
    | none => simp [read] at h
    | some value => exact (endsPlain_of_magnitude? read).cons '-'
  · rw [valueOf?_of_positive minus] at h
    cases read : magnitude? cs with
    | none => simp [read] at h
    | some value => exact endsPlain_of_magnitude? read

theorem Operand.endsPlain_of_literal {text : String} {value : Int}
    (h : ofText text = .ok (.literal value)) : EndsPlain text.toList := by
  unfold ofText at h
  split at h
  · next code quoted =>
      unfold Literal.character? Literal.charCode? at quoted
      split at quoted
      · next c spelt => exact ⟨by simp [spelt], by simp [spelt]⟩
      · simp at quoted
  · split at h
    · next number read => exact Literal.endsPlain_of_valueOf? (Or.inl ⟨number, read⟩)
    · simp at h
    · simp at h

/-! ## Labels -/

theorem Statement.labelName_of_spelt {text name : String} {colons : Nat}
    (spelt : text.toList = name.toList ++ List.replicate (colons + 1) ':')
    (bare : name.toList.getLast? ≠ some ':') : labelName text = name := by
  have stop : name.toList.reverse.dropWhile (· == ':') = name.toList.reverse := by
    cases rest : name.toList.reverse with
    | nil => rfl
    | cons c cs =>
        have : c ≠ ':' := by
          intro colon
          rw [List.getLast?_eq_head?_reverse, rest, colon] at bare
          exact bare rfl
        simp [this]
  unfold labelName
  rw [spelt, List.reverse_append, List.reverse_replicate,
    List.dropWhile_append_of_pos (by simp), stop]
  simp

theorem Statement.spelt_labelName {text : String} (h : text.toList.getLast? = some ':') :
    (∃ colons, text.toList =
      (labelName text).toList ++ List.replicate (colons + 1) ':') ∧
    (labelName text).toList.getLast? ≠ some ':' := by
  have parts := List.takeWhile_append_dropWhile (p := (· == ':')) (l := text.toList.reverse)
  have colons : text.toList.reverse.takeWhile (· == ':') =
      List.replicate (text.toList.reverse.takeWhile (· == ':')).length ':' := by
    rw [List.eq_replicate_iff]
    exact ⟨rfl, fun c member => by simpa using List.all_eq_true.1 List.all_takeWhile c member⟩
  have some_colon : 0 < (text.toList.reverse.takeWhile (· == ':')).length := by
    rw [List.getLast?_eq_head?_reverse] at h
    cases rest : text.toList.reverse with
    | nil => simp [rest] at h
    | cons c cs =>
        have : c = ':' := by simpa [rest] using h
        simp [this]
  obtain ⟨count, count_eq⟩ := Nat.exists_eq_add_of_lt some_colon
  rw [Nat.zero_add] at count_eq
  refine ⟨⟨count, ?_⟩, ?_⟩
  · rw [← count_eq, ← List.reverse_replicate, ← colons]
    simp only [labelName, String.toList_ofList]
    rw [← List.reverse_append, parts, List.reverse_reverse]
  · simp only [labelName, String.toList_ofList, List.getLast?_reverse]
    intro last
    have := List.head?_dropWhile_not (· == ':') text.toList.reverse
    simp [last] at this

/-! ## Whole lines -/

namespace Statement

def line (operands : List String) : Statement → Line
  | blank => .blank
  | label name _ => .label name
  | declaration .var name value _ _ => .var name value
  | declaration .definition name value _ _ => .definition name value
  | instruction opcode => .instruction opcode operands

theorem allows_iff (opcode : Opcode) (count : Nat) :
    allows opcode count = true ↔ opcode.Takes count := by
  unfold allows Opcode.Takes
  cases opcode <;>
    simp [Opcode.fields, Opcode.format, Format.operandCount, Format.fields] <;> omega

theorem getLastD_map_text (first : Token) (rest : List Token) :
    (rest.map Token.text).getLastD first.text = (rest.getLastD first).text := by
  rw [List.getLastD_eq_getLast?, List.getLastD_eq_getLast?, List.getLast?_map]
  cases rest.getLast? <;> rfl

theorem ofDeclaration_eq_ok_iff {kind : DeclarationKind} {name : String} {first : Token}
    {rest : List Token} {statement : Statement} :
    ofDeclaration kind name first rest = .ok statement ↔
      ∃ literal value, rest = [literal] ∧ Operand.ofText literal.text = .ok (.literal value) ∧
        statement = .declaration kind name value first literal := by
  constructor
  · intro h
    match rest with
    | [] => simp [ofDeclaration] at h
    | [literal] =>
        simp only [ofDeclaration] at h
        rcases read : Operand.ofText literal.text with cause | ⟨value⟩ | text
        · simp [read] at h
        · simp only [read, Except.ok.injEq] at h
          exact ⟨literal, value, rfl, read, h.symm⟩
        · simp [read] at h
    | _ :: _ :: _ => simp [ofDeclaration] at h
  · intro h
    obtain ⟨literal, value, rfl, read, rfl⟩ := h
    simp [ofDeclaration, read]

theorem ofInstruction_eq_ok_iff {first : Token} {rest : List Token} {statement : Statement} :
    ofInstruction first rest = .ok statement ↔
      ∃ opcode : Opcode, first.text.toList.map Char.toUpper = opcode.mnemonic.toList ∧
        opcode.Takes rest.length ∧ statement = .instruction opcode := by
  constructor
  · intro h
    unfold ofInstruction at h
    cases found : Opcode.ofMnemonic? first.text with
    | none => simp [found] at h
    | some opcode =>
        simp only [found] at h
        split at h
        · next allowed =>
            exact ⟨opcode, (Opcode.ofMnemonic?_eq_some_iff _ _).1 found,
              (allows_iff _ _).1 allowed, (Except.ok.inj h).symm⟩
        · simp at h
  · intro h
    obtain ⟨opcode, spelt, count, rfl⟩ := h
    simp [ofInstruction, (Opcode.ofMnemonic?_eq_some_iff _ _).2 spelt,
      (allows_iff _ _).2 count]

def mark : DeclarationKind → Char
  | .var => '.'
  | .definition => '#'

theorem declarationMark?_eq_some_iff {first : Token} {kind : DeclarationKind} {name : String} :
    declarationMark? first = some (kind, name) ↔ first.text.toList = mark kind :: name.toList := by
  constructor
  · intro h
    unfold declarationMark? at h
    split at h
    · next cs spelt =>
        cases h
        simpa [mark] using spelt
    · next cs spelt =>
        cases h
        simpa [mark] using spelt
    · simp at h
  · intro spelt
    cases kind <;> simp [declarationMark?, spelt, mark]

theorem spells_of_ofTokens {tokens : List Token} {statement : Statement}
    (h : ofTokens tokens = .ok statement) :
    Spells (tokens.map Token.text) (statement.line (tokens.tail.map Token.text)) := by
  cases tokens with
  | nil =>
      cases h
      exact .blank
  | cons first rest =>
      simp only [ofTokens] at h
      split at h
      · next colon =>
          cases rest with
          | nil =>
              cases h
              obtain ⟨⟨colons, spelt⟩, bare⟩ := spelt_labelName colon
              exact .label colons spelt bare
          | cons next rest => simp at h
      · next unmarked =>
          cases marked : declarationMark? first with
          | some declared =>
              obtain ⟨kind, name⟩ := declared
              have spelt := declarationMark?_eq_some_iff.1 marked
              simp only [marked] at h
              obtain ⟨literal, value, rfl, read, rfl⟩ := ofDeclaration_eq_ok_iff.1 h
              cases kind with
              | var => exact .var spelt read
              | definition => exact .definition spelt read
          | none =>
              simp only [marked] at h
              obtain ⟨opcode, spelt, count, rfl⟩ := ofInstruction_eq_ok_iff.1 h
              refine .instruction spelt ?_ (by simpa using count)
              rwa [getLastD_map_text]

/-- A declaration of a literal value is read as such. -/
theorem ofTokens_declaration {first literal : Token} {name : String} {value : Int}
    (kind : DeclarationKind) (spelt : first.text.toList = mark kind :: name.toList)
    (read : Operand.ofText literal.text = .ok (.literal value)) :
    ofTokens [first, literal] = .ok (.declaration kind name value first literal) := by
  have plain : ([literal].getLastD first).text.toList.getLast? ≠ some ':' :=
    (Operand.endsPlain_of_literal read).2
  simp only [ofTokens, plain, if_false, declarationMark?_eq_some_iff.2 spelt]
  exact ofDeclaration_eq_ok_iff.2 ⟨literal, value, rfl, read, rfl⟩

theorem ofTokens_of_spells {tokens : List Token} {line : Line}
    (h : Spells (tokens.map Token.text) line) :
    ∃ statement, ofTokens tokens = .ok statement ∧
      statement.line (tokens.tail.map Token.text) = line := by
  generalize texts_eq : tokens.map Token.text = texts at h
  cases h with
  | blank =>
      rw [List.map_eq_nil_iff] at texts_eq
      subst texts_eq
      exact ⟨.blank, rfl, rfl⟩
  | @label token name colons spelt bare =>
      obtain ⟨first, rfl, rfl⟩ := List.map_eq_singleton_iff.1 texts_eq
      have colon : first.text.toList.getLast? = some ':' := by
        rw [spelt, List.replicate_succ', ← List.append_assoc, List.getLast?_concat]
      refine ⟨.label (labelName first.text) first, by simp [ofTokens, colon], ?_⟩
      rw [line, labelName_of_spelt spelt bare]
  | @var first name literal value spelt read =>
      obtain ⟨first, rest, rfl, rfl, rest_eq⟩ := List.map_eq_cons_iff.1 texts_eq
      obtain ⟨literal, rfl, rfl⟩ := List.map_eq_singleton_iff.1 rest_eq
      exact ⟨_, ofTokens_declaration .var spelt read, rfl⟩
  | @definition first name literal value spelt read =>
      obtain ⟨first, rest, rfl, rfl, rest_eq⟩ := List.map_eq_cons_iff.1 texts_eq
      obtain ⟨literal, rfl, rfl⟩ := List.map_eq_singleton_iff.1 rest_eq
      exact ⟨_, ofTokens_declaration .definition spelt read, rfl⟩
  | @instruction first operands opcode spelt unmarked count =>
      obtain ⟨first, rest, rfl, rfl, rfl⟩ := List.map_eq_cons_iff.1 texts_eq
      rw [getLastD_map_text] at unmarked
      refine ⟨.instruction opcode, ?_, rfl⟩
      simp only [ofTokens, unmarked, if_false, declarationMark?_of_mnemonic spelt]
      exact ofInstruction_eq_ok_iff.2 ⟨opcode, spelt, by simpa using count, rfl⟩

end Statement

theorem Spells.takes {texts operands : List String} {opcode : Opcode}
    (h : Spells texts (.instruction opcode operands)) : opcode.Takes operands.length := by
  cases h with
  | instruction _ _ count => exact count

theorem Spells.unique {texts : List String} {line other : Line} (h : Spells texts line)
    (h' : Spells texts other) : line = other := by
  obtain ⟨tokens, rfl⟩ : ∃ tokens : List Token, tokens.map Token.text = texts :=
    ⟨texts.map fun text => ⟨text, 0⟩, by simp [Function.comp_def]⟩
  obtain ⟨statement, read, rfl⟩ := Statement.ofTokens_of_spells h
  obtain ⟨again, read', rfl⟩ := Statement.ofTokens_of_spells h'
  rw [read] at read'
  cases read'
  rfl

end Redstone

import Mathlib.Data.List.Forall2
import Mathlib.Data.List.InsertIdx
import Redstone.Proofs.Program.Alias

/-!
# Words that are spelt alike

Words count as the same if they differ in the case of ASCII letters only and neither is a character
between apostrophes. Whatever a line is read as, whatever is entered into the symbol table and
whatever an operand comes to is the same for words that are spelt alike. Only the texts that errors
repeat are not, nor are the places of the words in their lines.
-/

namespace Redstone

/-- A printable ASCII character between apostrophes. -/
def QuotesCharacter (word : String) : Prop :=
  ∃ c : Char, 0x20 ≤ c.toNat ∧ c.toNat ≤ 0x7e ∧ word.toList = ['\'', c, '\'']

/-- Words that differ in letter case at most, and not at all where it is a character. -/
structure SameWord (word other : String) : Prop where
  same : SameName word other
  quoted : QuotesCharacter word ∨ QuotesCharacter other → word = other

instance (word : String) : Decidable (QuotesCharacter word) :=
  decidable_of_iff _ (Symbols.isSome_character?_iff word)

instance (name other : String) : Decidable (SameName name other) :=
  inferInstanceAs (Decidable (_ = _))

instance (word other : String) : Decidable (SameWord word other) :=
  decidable_of_iff
    (SameName word other ∧ (QuotesCharacter word ∨ QuotesCharacter other → word = other))
    ⟨fun ⟨same, quoted⟩ => ⟨same, quoted⟩, fun ⟨same, quoted⟩ => ⟨same, quoted⟩⟩

theorem SameWord.symm {word other : String} (alike : SameWord word other) :
    SameWord other word where
  same := alike.same.symm
  quoted h := (alike.quoted h.symm).symm

/-! ## Letter case -/

/-- A character that is no letter stands where it stands in the other spelling. -/
theorem eq_of_toLower_eq_toLower {c d : Char} (hcaseless : d.toLower = d) (hd : d.toNat < 97)
    (h : c.toLower = d.toLower) : c = d :=
  eq_of_toLower_eq hd (h.trans hcaseless)

theorem isDigit_toLower (c : Char) : c.toLower.isDigit = c.isDigit := by
  rcases toLower_cases c with hsame | ⟨⟨hlow, _⟩, hlower⟩
  · rw [hsame]
  · have hnot {d : Char} (hd : 65 ≤ d.toNat) : d.isDigit = false := by
      rw [← Bool.not_eq_true, Char.isDigit_iff_toNat]
      show ¬ (48 ≤ d.toNat ∧ d.toNat ≤ 57)
      omega
    rw [hnot hlow, hnot (show 65 ≤ c.toLower.toNat by omega)]

namespace SameName

variable {word other : String}

theorem map_toUpper (same : SameName word other) :
    word.toList.map Char.toUpper = other.toList.map Char.toUpper := by
  have hupper := congrArg (List.map Char.toUpper) same
  simpa only [List.map_map, Function.comp_def, toUpper_toLower] using hupper

theorem exists_cons (same : SameName word other) {c : Char} {rest : List Char}
    (hcaseless : c.toLower = c) (hc : c.toNat < 97) (hword : word.toList = c :: rest) :
    ∃ rest', other.toList = c :: rest' ∧ rest.map Char.toLower = rest'.map Char.toLower := by
  have hlower : other.toList.map Char.toLower = c.toLower :: rest.map Char.toLower := by
    rw [← same, hword]
    rfl
  obtain ⟨d, rest', hother, hd, hrest⟩ := List.map_eq_cons_iff.1 hlower
  rw [eq_of_toLower_eq_toLower hcaseless hc hd] at hother
  exact ⟨rest', hother, hrest.symm⟩

theorem getLast?_eq (same : SameName word other) {c : Char} (hcaseless : c.toLower = c)
    (hc : c.toNat < 97) (hword : word.toList.getLast? = some c) :
    other.toList.getLast? = some c := by
  have hlower : other.toList.getLast?.map Char.toLower = some c.toLower := by
    rw [← List.getLast?_map, ← same, List.getLast?_map, hword]
    rfl
  obtain ⟨d, hother, hd⟩ := Option.map_eq_some_iff.1 hlower
  rw [hother, eq_of_toLower_eq_toLower hcaseless hc hd]

theorem quotesCharacter (same : SameName word other) (h : QuotesCharacter word) :
    QuotesCharacter other := by
  obtain ⟨c, hlow, hhigh, hword⟩ := h
  obtain ⟨tail, hother, htail⟩ := same.exists_cons (by decide) (by decide) hword
  obtain ⟨d, _, rfl, hd, hlast⟩ := List.map_eq_cons_iff.1 htail.symm
  obtain ⟨last, _, rfl, hquote, hnil⟩ := List.map_eq_cons_iff.1 hlast
  obtain rfl := List.map_eq_nil_iff.1 hnil
  obtain rfl := eq_of_toLower_eq (by decide) hquote
  have hprintable := (toNat_toLower_le_iff c).2 ⟨hlow, hhigh⟩
  rw [← hd, toNat_toLower_le_iff] at hprintable
  exact ⟨d, hprintable.1, hprintable.2, hother⟩

theorem legalName (same : SameName word other) (legal : LegalName word) : LegalName other where
  nonempty hother := by
    have hword : word.toList.map Char.toLower = [] := by
      rw [same, hother]
      rfl
    exact legal.nonempty (List.map_eq_nil_iff.1 hword)
  not_digits := by
    obtain ⟨c, member, hdigit⟩ := legal.not_digits
    have member' : c.toLower ∈ other.toList.map Char.toLower := by
      rw [← same]
      exact List.mem_map_of_mem member
    obtain ⟨d, hd, hlower⟩ := List.mem_map.1 member'
    refine ⟨d, hd, ?_⟩
    rw [← isDigit_toLower, hlower, isDigit_toLower, hdigit]
  not_character c hlow hhigh hother := by
    obtain ⟨d, hlow, hhigh, hword⟩ := same.symm.quotesCharacter ⟨c, hlow, hhigh, hother⟩
    exact legal.not_character d hlow hhigh hword
  not_builtin number builtin := legal.not_builtin number (builtin.of_sameName same)

end SameName

/-! ## Symbols -/

namespace Symbols

variable {symbols : Symbols} {name other : String}

theorem key_eq_of_sameName (same : SameName name other) : key name = key other :=
  (key_eq_key_iff name other).2 same

theorem check_of_sameName (same : SameName name other) {found : String}
    (checked : symbols.check name = .ok found) : symbols.check other = .ok found := by
  rw [check_eq_ok_iff, key_eq_of_sameName same] at checked
  rw [check_eq_ok_iff]
  exact ⟨checked.1, same.legalName checked.2.1, checked.2.2⟩

theorem declareLabel_of_sameName (same : SameName name other) {index : UInt16}
    {done : Symbols × SymbolEvent} (declared : symbols.declareLabel name index = .ok done) :
    symbols.declareLabel other index = .ok done := by
  unfold declareLabel at declared ⊢
  cases checked : symbols.check name with
  | error e => simp [checked] at declared
  | ok found =>
      rw [checked] at declared
      rw [check_of_sameName same checked]
      exact declared

theorem declareVariable_of_sameName (same : SameName name other) {value : Int}
    {done : Symbols × SymbolEvent} (declared : symbols.declareVariable name value = .ok done) :
    symbols.declareVariable other value = .ok done := by
  unfold declareVariable at declared ⊢
  cases checked : symbols.check name with
  | error e => simp [checked] at declared
  | ok found =>
      rw [checked] at declared
      rw [check_of_sameName same checked]
      by_cases range : 0 ≤ value ∧ value < 256
      · simpa only [range, and_self, if_true] using declared
      · simp only [range, if_false, reduceCtorEq] at declared

theorem declareDefinition_of_sameName (same : SameName name other) {value : Int}
    {done : Symbols × SymbolEvent} (declared : symbols.declareDefinition name value = .ok done) :
    symbols.declareDefinition other value = .ok done := by
  unfold declareDefinition at declared ⊢
  cases checked : symbols.check name with
  | error e => simp [checked] at declared
  | ok found =>
      rw [checked] at declared
      rw [check_of_sameName same checked]
      by_cases natural : 0 ≤ value
      · simpa only [natural, if_true] using declared
      · simp only [natural, if_false, reduceCtorEq] at declared

theorem resolve_of_sameName (same : SameName name other) {value : Int}
    (resolved : symbols.resolve name = .ok value) : symbols.resolve other = .ok value := by
  have hlookup : symbols.lookup name = symbols.lookup other := by
    unfold lookup
    rw [key_eq_of_sameName same]
  unfold resolve at resolved ⊢
  rw [← hlookup]
  split at resolved
  all_goals first | exact resolved | cases resolved

end Symbols

/-! ## Operands -/

theorem Operand.ofText_cases (text : String) :
    (∃ value, ofText text = .ok (.literal value)) ∨ ofText text = .ok (.alias text) ∨
      ∃ cause, ofText text = .error cause := by
  unfold ofText
  cases Literal.character? text with
  | some code => exact .inl ⟨code, rfl⟩
  | none =>
      rcases Literal.value? text with cause | _ | value
      · exact .inr (.inr ⟨cause, rfl⟩)
      · exact .inr (.inl rfl)
      · exact .inl ⟨value, rfl⟩

theorem character?_of_not_quotes {text : String} (plain : ¬ QuotesCharacter text) :
    Literal.character? text = none := by
  rw [← Option.not_isSome_iff_eq_none, Symbols.isSome_character?_iff]
  exact plain

/-- Words that are spelt alike are the same number, or each is a name, or both overflow. -/
theorem SameWord.ofText_cases {word other : String} (alike : SameWord word other) :
    (∃ value, Operand.ofText word = .ok (.literal value) ∧
        Operand.ofText other = .ok (.literal value)) ∨
      (Operand.ofText word = .ok (.alias word) ∧ Operand.ofText other = .ok (.alias other)) ∨
      ∃ cause, Operand.ofText word = .error cause ∧ Operand.ofText other = .error cause := by
  by_cases hquoted : QuotesCharacter word
  · obtain rfl := alike.quoted (.inl hquoted)
    rcases Operand.ofText_cases word with ⟨value, read⟩ | read | ⟨cause, read⟩
    · exact .inl ⟨value, read, read⟩
    · exact .inr (.inl ⟨read, read⟩)
    · exact .inr (.inr ⟨cause, read, read⟩)
  · have hplain : ¬ QuotesCharacter other := mt alike.same.symm.quotesCharacter hquoted
    rw [Operand.ofText_of_not_character (character?_of_not_quotes hquoted),
      Operand.ofText_of_not_character (character?_of_not_quotes hplain),
      value?_of_sameName alike.same]
    rcases Literal.value? other with cause | _ | value
    · exact .inr (.inr ⟨cause, rfl, rfl⟩)
    · exact .inr (.inl ⟨rfl, rfl⟩)
    · exact .inl ⟨value, rfl, rfl⟩

theorem SameName.negatesLeast {word other : String} (same : SameName word other)
    (least : Literal.NegatesLeast word.toList) : Literal.NegatesLeast other.toList := by
  have overflows : Literal.value? word = .error .negation :=
    Literal.valueOf?_eq_error_iff.2 ⟨least, rfl⟩
  rw [value?_of_sameName same] at overflows
  exact (Literal.valueOf?_eq_error_iff.1 overflows).1

theorem SameWord.ofText_literal {word other : String} (alike : SameWord word other) {value : Int}
    (read : Operand.ofText word = .ok (.literal value)) :
    Operand.ofText other = .ok (.literal value) := by
  rcases alike.ofText_cases with ⟨value', read', read''⟩ | ⟨read', _⟩ | ⟨cause, read', _⟩
  · rw [read] at read'
    cases read'
    exact read''
  · rw [read] at read'
    cases read'
  · rw [read] at read'
    cases read'

def SameWords (tokens other : List Token) : Prop :=
  List.Forall₂ (fun token token' => SameWord token.text token'.text) tokens other

instance (tokens other : List Token) : Decidable (SameWords tokens other) :=
  inferInstanceAs (Decidable (List.Forall₂ _ _ _))

namespace SameWords

variable {tokens other rest rest' : List Token} {first first' : Token}

theorem symm (alike : SameWords tokens other) : SameWords other tokens :=
  List.Forall₂.flip (List.Forall₂.imp (fun _ _ => SameWord.symm) alike)

theorem getLastD (head : SameWord first.text first'.text) (tail : SameWords rest rest') :
    SameWord (rest.getLastD first).text (rest'.getLastD first').text := by
  unfold SameWords at tail
  induction tail generalizing first first' with
  | nil => exact head
  | cons next _ ih =>
      rw [List.getLastD_cons, List.getLastD_cons]
      exact ih next

end SameWords

/-! ## Statements -/

namespace Statement

/-- Statements that say the same of names that are the same. -/
inductive Alike : Statement → Statement → Prop where
  | blank : Alike .blank .blank
  | label {name other : String} {token token' : Token} (same : SameName name other) :
      Alike (.label name token) (.label other token')
  | declaration {kind : DeclarationKind} {name other : String} {value : Int}
      {nameToken valueToken nameToken' valueToken' : Token} (same : SameName name other) :
      Alike (.declaration kind name value nameToken valueToken)
        (.declaration kind other value nameToken' valueToken')
  | instruction {opcode : Opcode} : Alike (.instruction opcode) (.instruction opcode)

variable {tokens other rest rest' : List Token} {first first' : Token} {statement : Statement}

theorem labelName_of_sameName {text text' : String} (same : SameName text text') :
    SameName (labelName text) (labelName text') := by
  have colon : ((· == ':') ∘ Char.toLower) = fun c : Char => c == ':' := by
    funext c
    rcases toLower_cases c with hsame | ⟨hcapital, hlower⟩
    · simp [hsame]
    · have hc : c ≠ ':' := fun h => by simp [h] at hcapital
      have hl : c.toLower ≠ ':' := fun h => by
        rw [h] at hlower
        have : (':' : Char).toNat = 58 := rfl
        omega
      simp [hc, hl]
  have lower (cs : List Char) : (cs.reverse.dropWhile (· == ':')).reverse.map Char.toLower =
      ((cs.map Char.toLower).reverse.dropWhile (· == ':')).reverse := by
    rw [← List.map_reverse, List.dropWhile_map, colon, List.map_reverse]
  unfold SameName labelName
  rw [String.toList_ofList, String.toList_ofList, lower, lower]
  exact congrArg (fun cs => (cs.reverse.dropWhile (· == ':')).reverse) same

theorem declarationMark?_of_sameName (same : SameName first.text first'.text)
    {kind : DeclarationKind} {name : String} (marked : declarationMark? first = some (kind, name)) :
    ∃ name', declarationMark? first' = some (kind, name') ∧ SameName name name' := by
  have caseless : (mark kind).toLower = mark kind ∧ (mark kind).toNat < 97 := by
    cases kind <;> decide
  obtain ⟨rest, hfirst', hrest⟩ :=
    same.exists_cons caseless.1 caseless.2 (declarationMark?_eq_some_iff.1 marked)
  refine ⟨String.ofList rest, declarationMark?_eq_some_iff.2 ?_, ?_⟩
  · rw [hfirst', String.toList_ofList]
  · unfold SameName
    rw [hrest, String.toList_ofList]

theorem declaresLeast_of_sameWords (alike : SameWords tokens other)
    (least : DeclaresLeast (tokens.map Token.text)) : DeclaresLeast (other.map Token.text) := by
  obtain ⟨_, _, words, marked, least⟩ := least
  obtain ⟨first, rest, rfl, rfl, hrest⟩ := List.map_eq_cons_iff.1 words
  obtain ⟨literal, rfl, rfl⟩ := List.map_eq_singleton_iff.1 hrest
  obtain _ | ⟨head, _ | ⟨word, _ | _⟩⟩ := alike
  obtain ⟨⟨kind, name⟩, hmark⟩ :=
    Option.isSome_iff_exists.1 (isSome_declarationMark?_iff.2 marked)
  obtain ⟨name', hmark', -⟩ := declarationMark?_of_sameName head.same hmark
  exact ⟨_, _, rfl, isSome_declarationMark?_iff.1 (Option.isSome_of_eq_some hmark'),
    word.same.negatesLeast least⟩

theorem ofDeclaration_of_sameWords {kind : DeclarationKind} {name name' : String}
    (same : SameName name name') (alike : SameWords rest rest')
    (read : ofDeclaration kind name first rest = .ok statement) :
    ∃ statement', ofDeclaration kind name' first' rest' = .ok statement' ∧
      statement.Alike statement' := by
  obtain ⟨literal, value, rfl, number, rfl⟩ := ofDeclaration_eq_ok_iff.1 read
  obtain _ | ⟨word, _ | _⟩ := alike
  exact ⟨_, ofDeclaration_eq_ok_iff.2 ⟨_, value, rfl, word.ofText_literal number, rfl⟩,
    .declaration same⟩

theorem ofInstruction_of_sameWords (head : SameWord first.text first'.text)
    (alike : SameWords rest rest') (read : ofInstruction first rest = .ok statement) :
    ∃ statement', ofInstruction first' rest' = .ok statement' ∧ statement.Alike statement' := by
  obtain ⟨opcode, spelt, count, rfl⟩ := ofInstruction_eq_ok_iff.1 read
  refine ⟨_, ofInstruction_eq_ok_iff.2 ⟨opcode, ?_, ?_, rfl⟩, .instruction⟩
  · rw [← head.same.map_toUpper, spelt]
  · rwa [← alike.length_eq]

/-- A line that is spelt like one that says something says the same. -/
theorem ofTokens_of_sameWords (alike : SameWords tokens other)
    (read : ofTokens tokens = .ok statement) :
    ∃ statement', ofTokens other = .ok statement' ∧ statement.Alike statement' := by
  cases alike with
  | nil =>
      cases read
      exact ⟨_, rfl, .blank⟩
  | @cons first first' rest rest' head tail =>
      have last := SameWords.getLastD head tail
      have colon_iff : (rest.getLastD first).text.toList.getLast? = some ':' ↔
          (rest'.getLastD first').text.toList.getLast? = some ':' :=
        ⟨last.same.getLast?_eq (by decide) (by decide),
          last.same.symm.getLast?_eq (by decide) (by decide)⟩
      simp only [ofTokens] at read ⊢
      by_cases colon : (rest.getLastD first).text.toList.getLast? = some ':'
      · rw [if_pos colon] at read
        rw [if_pos (colon_iff.1 colon)]
        cases tail with
        | nil =>
            cases read
            exact ⟨_, rfl, .label (labelName_of_sameName head.same)⟩
        | cons _ _ => cases read
      · rw [if_neg colon] at read
        rw [if_neg (mt colon_iff.2 colon)]
        cases marked : declarationMark? first with
        | some declared =>
            obtain ⟨kind, name⟩ := declared
            obtain ⟨name', marked', same⟩ := declarationMark?_of_sameName head.same marked
            rw [marked] at read
            rw [marked']
            exact ofDeclaration_of_sameWords same tail read
        | none =>
            have unmarked : declarationMark? first' = none := by
              cases marked' : declarationMark? first' with
              | none => rfl
              | some declared =>
                  obtain ⟨name, same, _⟩ := declarationMark?_of_sameName head.same.symm marked'
                  rw [marked] at same
                  cases same
            rw [marked] at read
            rw [unmarked]
            exact ofInstruction_of_sameWords head tail read

end Statement

namespace Session

variable {symbols : Symbols} {count : Nat} {tokens other : List Token}

/-- What a statement does to the symbol table does not depend on how its names are spelt. -/
theorem enact_of_alike {statement other : Statement} (alike : statement.Alike other)
    {done : LineContent × Symbols × List SymbolEvent}
    (enacted : enact symbols count statement = .ok done) :
    enact symbols count other = .ok done := by
  cases alike with
  | blank => exact enacted
  | instruction => exact enacted
  | @label name other token token' same =>
      simp only [enact] at enacted ⊢
      cases declared : symbols.declareLabel name (labelIndex count) with
      | error e => simp [declared] at enacted
      | ok result =>
          rw [declared] at enacted
          rw [Symbols.declareLabel_of_sameName same declared]
          exact enacted
  | @declaration kind name other value _ _ _ _ same =>
      simp only [enact] at enacted ⊢
      cases declared : declare symbols kind name value with
      | error e => simp [declared] at enacted
      | ok result =>
          have declared' : declare symbols kind other value = .ok result := by
            cases kind with
            | var => exact Symbols.declareVariable_of_sameName same declared
            | definition => exact Symbols.declareDefinition_of_sameName same declared
          rw [declared] at enacted
          rw [declared']
          exact enacted

def effect (symbols : Symbols) (count : Nat) (tokens : List Token) :
    Except Mistake (LineContent × Symbols × List SymbolEvent) :=
  match Statement.ofTokens tokens with
  | .ok statement => enact symbols count statement
  | .error mistake => .error mistake

theorem effect_of_sameWords (alike : SameWords tokens other)
    {done : LineContent × Symbols × List SymbolEvent}
    (enacted : effect symbols count tokens = .ok done) : effect symbols count other = .ok done := by
  unfold effect at enacted ⊢
  cases read : Statement.ofTokens tokens with
  | error mistake => simp [read] at enacted
  | ok statement =>
      obtain ⟨statement', read', same⟩ := Statement.ofTokens_of_sameWords alike read
      rw [read] at enacted
      rw [read']
      exact enact_of_alike same enacted

end Session

/-! ## Operands of an instruction -/

namespace Operand

variable {symbols : Symbols} {tokens other : List Token} {first first' : Token}

theorem resolve_of_sameWord (alike : SameWord first.text first'.text) {located : Located}
    (resolved : resolve symbols first = .ok located) :
    resolve symbols first' = .ok (located.1, first'.span) := by
  unfold resolve at resolved ⊢
  rcases alike.ofText_cases with ⟨value, read, read'⟩ | ⟨read, read'⟩ | ⟨cause, read, _⟩
  · rw [read] at resolved
    rw [read']
    cases resolved
    rfl
  · simp only [read] at resolved
    simp only [read']
    cases named : symbols.resolve first.text with
    | error e => simp [named] at resolved
    | ok value =>
        rw [named] at resolved
        rw [Symbols.resolve_of_sameName alike.same named]
        cases resolved
        rfl
  · simp [read] at resolved

theorem ReadsLeast.of_sameWords (alike : SameWords tokens other)
    (reads : ReadsLeast symbols tokens) : ReadsLeast symbols other := by
  unfold SameWords at alike
  induction alike with
  | nil => exact reads
  | cons head _ ih =>
      rw [readsLeast_cons_iff] at reads ⊢
      rcases reads with least | ⟨⟨located, found⟩, reads⟩
      · exact .inl (head.same.negatesLeast least)
      · exact .inr ⟨⟨_, resolve_of_sameWord head found⟩, ih reads⟩

theorem resolveAll_of_sameWords (alike : SameWords tokens other) {values : List Located}
    (resolved : resolveAll symbols tokens = .ok values) :
    ∃ values', resolveAll symbols other = .ok values' ∧
      values.map Prod.fst = values'.map Prod.fst := by
  unfold SameWords at alike
  induction alike generalizing values with
  | nil =>
      cases resolved
      exact ⟨[], rfl, rfl⟩
  | @cons first first' rest rest' head _ ih =>
      simp only [resolveAll] at resolved ⊢
      cases found : resolve symbols first with
      | error mistake => simp [found] at resolved
      | ok value =>
          cases others : resolveAll symbols rest with
          | error mistake => simp [found, others] at resolved
          | ok more =>
              obtain ⟨more', others', same⟩ := ih others
              simp only [found, others, Except.ok.injEq] at resolved
              subst resolved
              rw [resolve_of_sameWord head found, others']
              exact ⟨_, rfl, by rw [List.map_cons, List.map_cons, same]⟩

theorem map_fst_complete {opcode : Opcode} {mnemonic mnemonic' : Span}
    {values values' : List Located} (same : values.map Prod.fst = values'.map Prod.fst) :
    (complete opcode mnemonic values).map Prod.fst =
      (complete opcode mnemonic' values').map Prod.fst := by
  have hlength : values.length = values'.length := by
    simpa using congrArg List.length same
  unfold complete
  rw [← hlength]
  split
  · rw [List.map_insertIdx, List.map_insertIdx, same]
  · exact same

theorem check_of_fst {field : Field} {value value' : Located} (same : value.1 = value'.1)
    {operand : UInt16} (checked : check field value = .ok operand) :
    check field value' = .ok operand := by
  obtain ⟨value, span⟩ := value
  obtain ⟨value', span'⟩ := value'
  obtain rfl : value = value' := same
  unfold check at checked ⊢
  by_cases negative : value < 0
  · simp [negative] at checked
  · by_cases large : field.max < value.toNat
    · simp [negative, large] at checked
    · simpa [negative, large] using checked

theorem checkAll_of_map_fst {fields : List Field} {values values' : List Located}
    (same : values.map Prod.fst = values'.map Prod.fst) {operands : List UInt16}
    (checked : checkAll fields values = .ok operands) : checkAll fields values' = .ok operands := by
  induction fields generalizing values values' operands with
  | nil =>
      cases checked
      rfl
  | cons field fields ih =>
      cases values with
      | nil =>
          obtain rfl := List.map_eq_nil_iff.1 same.symm
          exact checked
      | cons value rest =>
          obtain ⟨value', rest', rfl, hvalue, hrest⟩ := List.map_eq_cons_iff.1 same.symm
          simp only [checkAll] at checked ⊢
          cases found : check field value with
          | error mistake => simp [found] at checked
          | ok operand =>
              cases others : checkAll fields rest with
              | error mistake => simp [found, others] at checked
              | ok more =>
                  simp only [found, others] at checked
                  rw [check_of_fst hvalue.symm found, ih hrest.symm others]
                  exact checked

theorem ofTokens_of_sameWords {opcode : Opcode} (alike : SameWords tokens other)
    {operands : List UInt16} (read : ofTokens symbols opcode tokens = .ok operands) :
    ofTokens symbols opcode other = .ok operands := by
  cases alike with
  | nil => exact read
  | @cons first first' rest rest' head tail =>
      simp only [ofTokens] at read ⊢
      cases found : resolveAll symbols rest with
      | error mistake => simp [found] at read
      | ok values =>
          obtain ⟨values', found', same⟩ := resolveAll_of_sameWords tail found
          rw [found] at read
          rw [found']
          exact checkAll_of_map_fst (map_fst_complete same) read

/-- Operands that are spelt alike both overflow, or neither does. -/
theorem overflow?_of_sameWords {opcode : Opcode} (alike : SameWords tokens other)
    {mistake mistake' : Mistake} (failed : ofTokens symbols opcode tokens = .error mistake)
    (failed' : ofTokens symbols opcode other = .error mistake') :
    mistake.problem.overflow? = mistake'.problem.overflow? := by
  cases alike with
  | nil => cases failed
  | cons head tail =>
      refine Problem.overflow?_congr fun cause => ?_
      rw [overflow_iff_of_ofTokens_eq_error failed, overflow_iff_of_ofTokens_eq_error failed']
      exact and_congr_left' ⟨.of_sameWords tail, .of_sameWords (SameWords.symm tail)⟩

end Operand

end Redstone

import Redstone.Proofs.Program.Literal
import Redstone.Proofs.Program.Statement

/-!
# Words that overflow

Reading a word overflows if and only if the word is a minus in front of the least number. A
declaration reads one word, whether or not its name may be declared; an instruction reads its
operands up to the first one that comes to nothing. No other words of a line are read as numbers.
-/

namespace Redstone

open Literal (NegatesLeast)

@[simp] theorem Problem.overflow?_eq_some_iff {problem : Problem} {cause : Overflow} :
    problem.overflow? = some cause ↔ problem = .overflow cause := by
  cases problem <;> simp [Problem.overflow?]

theorem Problem.overflow?_congr {problem other : Problem}
    (same : ∀ cause, problem = .overflow cause ↔ other = .overflow cause) :
    problem.overflow? = other.overflow? :=
  Option.ext fun cause => by simp [same]

/-- An outcome that fails with a mistake is an overflow somewhere if the mistake is one. -/
theorem Mistake.overflow_iff {α : Type} {outcome : Except Mistake α} {mistake : Mistake}
    (failed : outcome = .error mistake) (cause : Overflow) :
    mistake.problem = .overflow cause ↔ ∃ span, outcome = .error ⟨.overflow cause, span⟩ := by
  obtain ⟨problem, span⟩ := mistake
  simp [failed]

namespace Operand

theorem ofText_eq_error_iff {text : String} {cause : Overflow} :
    ofText text = .error cause ↔ NegatesLeast text.toList ∧ cause = .negation := by
  rw [← Literal.valueOf?_eq_error_iff, ← Literal.value?]
  cases hcharacter : Literal.character? text with
  | none =>
      rw [ofText_of_not_character hcharacter]
      rcases Literal.value? text with cause' | _ | value <;> simp
  | some code =>
      have hquoted : text.toList.head? = some '\'' := by
        unfold Literal.character? Literal.charCode? at hcharacter
        split at hcharacter
        · next c hcs => rw [hcs, List.head?_cons]
        · cases hcharacter
      have hplain : text.toList.head? ≠ some '-' := by
        rw [hquoted]
        decide
      rw [ofText, hcharacter, Literal.value?, Literal.valueOf?_of_positive hplain]
      constructor
      · intro failed
        cases failed
      · intro failed
        cases failed

end Operand

/-- Lines with a minus in front of the least number among their words. -/
def HoldLeast (texts : List String) : Prop :=
  ∃ text ∈ texts, ∃ token ∈ Token.ofLine text, NegatesLeast token.text.toList

/-! ## Declarations -/

/-- A declaration of a minus in front of the least number, under any name. -/
def DeclaresLeast (words : List String) : Prop :=
  ∃ first literal, words = [first, literal] ∧
    (first.toList.head? = some '.' ∨ first.toList.head? = some '#') ∧ NegatesLeast literal.toList

namespace Statement

theorem isSome_declarationMark?_iff {first : Token} :
    (declarationMark? first).isSome ↔
      first.text.toList.head? = some '.' ∨ first.text.toList.head? = some '#' := by
  unfold declarationMark?
  split
  · next hfirst => simp [hfirst]
  · next hfirst => simp [hfirst]
  · next hvar hdefinition =>
      simp only [Option.isSome_none, Bool.false_eq_true, false_iff, not_or,
        List.head?_eq_some_iff, not_exists]
      exact ⟨hvar, hdefinition⟩

theorem ofDeclaration_eq_overflow_iff {kind : DeclarationKind} {name : String} {first : Token}
    {rest : List Token} {cause : Overflow} :
    (∃ span, ofDeclaration kind name first rest = .error ⟨.overflow cause, span⟩) ↔
      ∃ literal, rest = [literal] ∧ NegatesLeast literal.text.toList ∧ cause = .negation := by
  simp only [← Operand.ofText_eq_error_iff]
  match rest with
  | [] => simp [ofDeclaration]
  | [literal] =>
      simp only [ofDeclaration, List.cons.injEq, and_true, exists_eq_left']
      rcases Operand.ofText literal.text with cause' | value | text <;> simp
  | _ :: _ :: _ => simp [ofDeclaration]

theorem ofInstruction_ne_overflow {first : Token} {rest : List Token} {cause : Overflow}
    {span : Span} : ofInstruction first rest ≠ .error ⟨.overflow cause, span⟩ := by
  unfold ofInstruction
  split
  · simp
  · split <;> simp

/-- Of all lines only such a declaration overflows when it is read. -/
theorem ofTokens_eq_overflow_iff {tokens : List Token} {cause : Overflow} :
    (∃ span, ofTokens tokens = .error ⟨.overflow cause, span⟩) ↔
      DeclaresLeast (tokens.map Token.text) ∧ cause = .negation := by
  unfold DeclaresLeast
  cases tokens with
  | nil => simp [ofTokens]
  | cons first rest =>
      -- A literal ends in no colon, so that the test for labels does not come in between.
      have hplain (literal : Token) (least : NegatesLeast literal.text.toList) :
          ([literal].getLastD first).text.toList.getLast? ≠ some ':' :=
        (Literal.endsPlain_of_valueOf? (.inr ⟨_, Literal.valueOf?_eq_error_iff.2 ⟨least, rfl⟩⟩)).2
      constructor
      · rintro ⟨span, failed⟩
        simp only [ofTokens] at failed
        split at failed
        · split at failed <;> simp at failed
        · cases hmark : declarationMark? first with
          | none =>
              rw [hmark] at failed
              exact absurd failed ofInstruction_ne_overflow
          | some declared =>
              rw [hmark] at failed
              obtain ⟨literal, rfl, least, rfl⟩ := ofDeclaration_eq_overflow_iff.1 ⟨span, failed⟩
              have marked := isSome_declarationMark?_iff.1 (Option.isSome_of_eq_some hmark)
              exact ⟨⟨_, _, rfl, marked, least⟩, rfl⟩
      · rintro ⟨⟨_, _, hwords, marked, least⟩, rfl⟩
        obtain ⟨rfl, htail⟩ := List.cons.inj hwords
        obtain ⟨literal, rfl, rfl⟩ := List.map_eq_singleton_iff.1 htail
        obtain ⟨⟨kind, name⟩, hmark⟩ := Option.isSome_iff_exists.1
          (isSome_declarationMark?_iff.2 marked)
        simp only [ofTokens, hplain literal least, if_false, hmark]
        exact ofDeclaration_eq_overflow_iff.2 ⟨literal, rfl, least, rfl⟩

theorem overflow_iff_of_ofTokens_eq_error {tokens : List Token} {mistake : Mistake}
    (failed : ofTokens tokens = .error mistake) (cause : Overflow) :
    mistake.problem = .overflow cause ↔
      DeclaresLeast (tokens.map Token.text) ∧ cause = .negation :=
  (Mistake.overflow_iff failed cause).trans ofTokens_eq_overflow_iff

theorem not_spells_of_declaresLeast {tokens : List Token}
    (least : DeclaresLeast (tokens.map Token.text)) (line : Line) :
    ¬ Spells (tokens.map Token.text) line := by
  intro spells
  obtain ⟨statement, read, -⟩ := ofTokens_of_spells spells
  obtain ⟨span, failed⟩ := ofTokens_eq_overflow_iff.2 ⟨least, rfl⟩
  rw [read] at failed
  cases failed

end Statement

/-- What can be enacted does not overflow, and neither does it if it cannot. -/
theorem Session.overflow_iff_of_enact_eq_error {tokens : List Token} {statement : Statement}
    (read : Statement.ofTokens tokens = .ok statement) {symbols : Symbols} {count : Nat}
    {mistake : Mistake} (failed : enact symbols count statement = .error mistake)
    (cause : Overflow) :
    mistake.problem = .overflow cause ↔
      DeclaresLeast (tokens.map Token.text) ∧ cause = .negation := by
  have hproblem : ∃ e, mistake.problem = .symbol e := by
    unfold enact at failed
    split at failed
    · cases failed
    · split at failed <;> cases failed
      exact ⟨_, rfl⟩
    · split at failed <;> cases failed
      exact ⟨_, rfl⟩
    · cases failed
  obtain ⟨e, he⟩ := hproblem
  rw [he]
  refine ⟨nofun, fun least => ?_⟩
  exact absurd (Statement.spells_of_ofTokens read)
    (Statement.not_spells_of_declaresLeast least.1 _)

/-! ## Operands -/

namespace Operand

variable {symbols : Symbols}

/-- A minus in front of the least number, behind operands that all come to a number. -/
def ReadsLeast (symbols : Symbols) (tokens : List Token) : Prop :=
  ∃ before token after, tokens = before ++ token :: after ∧
    (∀ other ∈ before, ∃ located, resolve symbols other = .ok located) ∧
    NegatesLeast token.text.toList

theorem resolve_eq_overflow_iff {token : Token} {cause : Overflow} :
    (∃ span, resolve symbols token = .error ⟨.overflow cause, span⟩) ↔
      NegatesLeast token.text.toList ∧ cause = .negation := by
  rw [← ofText_eq_error_iff]
  unfold resolve
  rcases ofText token.text with cause' | value | name
  · simp
  · simp
  · cases hresolve : symbols.resolve name <;> simp [hresolve]

/-- Behind an operand that comes to a number, and nowhere else, the others are read. -/
theorem readsLeast_cons_iff {token : Token} {tokens : List Token} :
    ReadsLeast symbols (token :: tokens) ↔
      NegatesLeast token.text.toList ∨
        (∃ located, resolve symbols token = .ok located) ∧ ReadsLeast symbols tokens := by
  constructor
  · rintro ⟨before, other, after, split, resolved, least⟩
    cases before with
    | nil =>
        cases split
        exact .inl least
    | cons next before =>
        cases split
        obtain ⟨found, resolved⟩ := List.forall_mem_cons.1 resolved
        exact .inr ⟨found, before, other, after, rfl, resolved, least⟩
  · rintro (least | ⟨found, before, other, after, rfl, resolved, least⟩)
    · exact ⟨[], token, tokens, rfl, nofun, least⟩
    · exact ⟨token :: before, other, after, rfl, List.forall_mem_cons.2 ⟨found, resolved⟩, least⟩

theorem resolveAll_eq_overflow_iff {tokens : List Token} {cause : Overflow} :
    (∃ span, resolveAll symbols tokens = .error ⟨.overflow cause, span⟩) ↔
      ReadsLeast symbols tokens ∧ cause = .negation := by
  induction tokens with
  | nil => simp [resolveAll, ReadsLeast]
  | cons token tokens ih =>
      rw [readsLeast_cons_iff]
      have settled (cause : Overflow) :
          (∃ span, resolve symbols token = .error ⟨.overflow cause, span⟩) ↔
            NegatesLeast token.text.toList ∧ cause = .negation :=
        resolve_eq_overflow_iff
      unfold resolveAll
      cases outcome : resolve symbols token with
      | error mistake =>
          simp only [outcome, Except.error.injEq, reduceCtorEq, exists_false, false_and,
            or_false] at settled ⊢
          exact settled cause
      | ok located =>
          have other : ¬ NegatesLeast token.text.toList := by
            intro least
            obtain ⟨span, failed⟩ := (settled .negation).2 ⟨least, rfl⟩
            rw [outcome] at failed
            cases failed
          simp only [other, false_or, Except.ok.injEq, exists_eq', true_and]
          rw [← ih]
          cases resolveAll symbols tokens <;> simp

theorem check_ne_overflow {field : Field} {operand : Located} {cause : Overflow} {span : Span} :
    check field operand ≠ .error ⟨.overflow cause, span⟩ := by
  obtain ⟨value, span⟩ := operand
  simp only [check]
  split
  · simp
  · split <;> simp

theorem checkAll_ne_overflow {fields : List Field} {operands : List Located} {cause : Overflow}
    {span : Span} : checkAll fields operands ≠ .error ⟨.overflow cause, span⟩ := by
  induction fields generalizing operands with
  | nil => simp [checkAll]
  | cons field fields ih =>
      cases operands with
      | nil => simp [checkAll]
      | cons operand operands =>
          unfold checkAll
          intro failed
          split at failed
          · next mistake checked =>
              cases failed
              exact check_ne_overflow checked
          · split at failed
            · next mistake checked =>
                cases failed
                exact ih checked
            · cases failed

/-- The operands of an instruction overflow where they are read, not where they are checked. -/
theorem ofTokens_eq_overflow_iff {opcode : Opcode} {mnemonic : Token} {tokens : List Token}
    {cause : Overflow} :
    (∃ span, ofTokens symbols opcode (mnemonic :: tokens) = .error ⟨.overflow cause, span⟩) ↔
      ReadsLeast symbols tokens ∧ cause = .negation := by
  rw [← resolveAll_eq_overflow_iff]
  simp only [ofTokens]
  cases resolveAll symbols tokens with
  | error mistake => simp only [Except.error.injEq]
  | ok values => simp [checkAll_ne_overflow]

theorem overflow_iff_of_ofTokens_eq_error {opcode : Opcode} {mnemonic : Token}
    {tokens : List Token} {mistake : Mistake}
    (failed : ofTokens symbols opcode (mnemonic :: tokens) = .error mistake) (cause : Overflow) :
    mistake.problem = .overflow cause ↔ ReadsLeast symbols tokens ∧ cause = .negation :=
  (Mistake.overflow_iff failed cause).trans ofTokens_eq_overflow_iff

end Operand

end Redstone

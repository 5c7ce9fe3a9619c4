import Redstone.Proofs.Program.Session

/-!
# Operands of an instruction

With the table of a program that has been placed, the operands of an instruction
line are resolved and checked without a mistake exactly when they fit their
fields, and then to the numbers that they denote.
-/

namespace Redstone

/-! ## Lists related item by item -/

section Lists

variable {α β γ : Type} {R : α → β → Prop} {S : β → γ → Prop}

theorem exists_forall₂_iff (items : List α) :
    (∃ others, List.Forall₂ R items others) ↔ ∀ item ∈ items, ∃ other, R item other := by
  induction items with
  | nil => exact ⟨fun _ => by simp, fun _ => ⟨[], .nil⟩⟩
  | cons first rest ih =>
      rw [List.forall_mem_cons, ← ih]
      constructor
      · intro ⟨others, all⟩
        cases all with
        | cons head tail => exact ⟨⟨_, head⟩, _, tail⟩
      · intro ⟨⟨other, head⟩, others, tail⟩
        exact ⟨other :: others, .cons head tail⟩

theorem exists_getElem?_eq_of_forall₂ {items : List α} {others : List β}
    (all : List.Forall₂ R items others) {i : Nat} {item : α} (found : items[i]? = some item) :
    ∃ other, others[i]? = some other ∧ R item other := by
  induction all generalizing i with
  | nil => cases found
  | cons head _ ih =>
      cases i with
      | zero =>
          cases found
          exact ⟨_, rfl, head⟩
      | succ i => exact ih found

theorem forall₂_exists_iff (first : List α) (last : List γ) :
    List.Forall₂ (fun a c => ∃ b, R a b ∧ S b c) first last ↔
      ∃ middle, List.Forall₂ R first middle ∧ List.Forall₂ S middle last := by
  constructor
  · intro both
    induction both with
    | nil => exact ⟨[], .nil, .nil⟩
    | cons head _ ih =>
        obtain ⟨b, left, right⟩ := head
        obtain ⟨middle, lefts, rights⟩ := ih
        exact ⟨b :: middle, .cons left lefts, .cons right rights⟩
  · intro ⟨middle, lefts, rights⟩
    induction lefts generalizing last with
    | nil =>
        cases rights
        exact .nil
    | cons left _ ih =>
        cases rights with
        | cons right rights => exact .cons ⟨_, left, right⟩ (ih _ rights)

end Lists

/-! ## Short forms -/

namespace Opcode

theorem expand_of_length {opcode : Opcode} {operands : List String}
    (full : operands.length = opcode.fields.length) : opcode.expand operands = operands := by
  unfold expand
  split
  · simp [fields, format, Format.fields] at full
  · simp [fields, format, Format.fields] at full
  · rfl

theorem length_expand {opcode : Opcode} {operands : List String}
    (count : opcode.Takes operands.length) :
    (opcode.expand operands).length = opcode.fields.length := by
  rcases count with full | ⟨rfl, two⟩ | ⟨rfl, one⟩
  · rw [expand_of_length full]
    exact full
  · obtain ⟨a, c, rfl⟩ := List.length_eq_two.1 two
    rfl
  · obtain ⟨b, rfl⟩ := List.length_eq_one_iff.1 one
    rfl

theorem mem_expand {opcode : Opcode} {operands : List String} {text : String}
    (member : text ∈ operands) : text ∈ opcode.expand operands := by
  unfold expand
  split
  · simp only [List.mem_cons, List.not_mem_nil, or_false] at member ⊢
    rcases member with rfl | rfl
    · exact .inl rfl
    · exact .inr (.inr rfl)
  · exact List.mem_cons_of_mem _ member
  · exact member

/-- A number that a field of an opcode can hold has at most eleven bits. -/
theorem max_lt_of_mem_fields {opcode : Opcode} {field : Field} (member : field ∈ opcode.fields) :
    field.max < 2048 := by
  have width : field.width ≤ 11 := by
    have := opcode.format.fields_fit field member
    omega
  have power : field.capacity ≤ 2048 := Nat.pow_le_pow_right (by decide) width
  have positive := field.capacity_pos
  unfold Field.max
  omega

end Opcode

theorem yields_zero (program : Program) : Yields program "0" 0 :=
  .literal rfl

/-! ## Resolution -/

namespace Operand

variable {symbols : Symbols} {program : Program}

theorem resolve_eq_ok_iff (tracks : symbols.Tracks program) (token : Token) (located : Located) :
    resolve (symbols.place program.slotCount) token = .ok located ↔
      Yields program token.text located.1 ∧ located.2 = token.span := by
  obtain ⟨value, span⟩ := located
  unfold resolve
  rcases read : ofText token.text with cause | ⟨number⟩ | name
  · refine ⟨nofun, ?_⟩
    rintro ⟨yields, -⟩
    cases yields with
    | literal read' => rw [read] at read'; cases read'
    | name read' means => rw [read] at read'; cases read'
  · simp only [Except.ok.injEq, Prod.mk.injEq]
    constructor
    · intro h
      obtain ⟨rfl, rfl⟩ := h
      exact ⟨.literal read, rfl⟩
    · intro h
      obtain ⟨yields, rfl⟩ := h
      cases yields with
      | literal read' => rw [read] at read'; cases read'; exact ⟨rfl, rfl⟩
      | name read' means => rw [read] at read'; cases read'
  · have yields_iff (number : Int) :
        Yields program token.text number ↔ Means program name number := by
      constructor
      · intro yields
        cases yields with
        | literal read' => rw [read] at read'; cases read'
        | name read' means => rw [read] at read'; cases read'; exact means
      · exact .name read
    rw [yields_iff, ← tracks.resolve_eq_ok_iff]
    cases resolved : (symbols.place program.slotCount).resolve name with
    | ok number => simp [resolved, eq_comm]
    | error e => simp [resolved]

theorem yields_unique (tracks : symbols.Tracks program) {text : String} {value other : Int}
    (h : Yields program text value) (h' : Yields program text other) : value = other := by
  let token : Token := ⟨text, 0⟩
  have first := (resolve_eq_ok_iff tracks token (value, token.span)).2 ⟨h, rfl⟩
  have second := (resolve_eq_ok_iff tracks token (other, token.span)).2 ⟨h', rfl⟩
  rw [first] at second
  cases second
  rfl

theorem denotes_unique (tracks : symbols.Tracks program) (small : program.size ≤ 65536)
    {text : String} {value other : Int} (h : Denotes program text value)
    (h' : Denotes program text other) : value = other :=
  yields_unique tracks ((yields_iff_denotes small _ _).2 h) ((yields_iff_denotes small _ _).2 h')

/-- Operand tokens with the numbers that they come to and their places. -/
def Located.Of (program : Program) (tokens : List Token) (located : List Located) : Prop :=
  List.Forall₂
    (fun (token : Token) (operand : Located) =>
      Yields program token.text operand.1 ∧ operand.2 = token.span)
    tokens located

theorem resolveAll_eq_ok_iff (tracks : symbols.Tracks program)
    (tokens : List Token) (located : List Located) :
    resolveAll (symbols.place program.slotCount) tokens = .ok located ↔
      Located.Of program tokens located := by
  unfold Located.Of
  induction tokens generalizing located with
  | nil => simp [resolveAll, eq_comm]
  | cons token tokens ih =>
      unfold resolveAll
      cases located with
      | nil =>
          simp only [List.forall₂_nil_right_iff, reduceCtorEq, iff_false]
          cases resolve (symbols.place program.slotCount) token with
          | error mistake => simp
          | ok first => cases resolveAll (symbols.place program.slotCount) tokens <;> simp
      | cons operand operands =>
          rw [List.forall₂_cons, ← resolve_eq_ok_iff tracks, ← ih]
          cases resolve (symbols.place program.slotCount) token with
          | error mistake => simp
          | ok first => cases resolveAll (symbols.place program.slotCount) tokens <;> simp

/-- With its zero put in, a short form has the operands of the long one. -/
theorem yield_complete {opcode : Opcode} {tokens : List Token} {located : List Located}
    (count : opcode.Takes tokens.length) (mnemonic : Span)
    (of : Located.Of program tokens located) :
    List.Forall₂ (Yields program) (opcode.expand (tokens.map Token.text))
      ((complete opcode mnemonic located).map Prod.fst) := by
  have length_eq : tokens.length = located.length := of.length_eq
  have plain : List.Forall₂ (Yields program) (tokens.map Token.text)
      (located.map Prod.fst) := by
    rw [List.forall₂_map_left_iff, List.forall₂_map_right_iff]
    exact of.imp fun _ _ h => h.1
  rcases count with full | ⟨rfl, two⟩ | ⟨rfl, one⟩
  · have full : tokens.length = opcode.fields.length := full
    have whole : ¬ located.length < opcode.fields.length := by omega
    rw [Opcode.expand_of_length (by simpa using full), complete, if_neg whole]
    exact plain
  · obtain ⟨a, c, rfl⟩ := List.length_eq_two.1 two
    obtain ⟨x, z, rfl⟩ := List.length_eq_two.1 (length_eq ▸ two)
    obtain _ | ⟨first, _ | ⟨second, _⟩⟩ := plain
    exact .cons first (.cons (yields_zero program) (.cons second .nil))
  · obtain ⟨b, rfl⟩ := List.length_eq_one_iff.1 one
    obtain ⟨y, rfl⟩ := List.length_eq_one_iff.1 (length_eq ▸ one)
    obtain _ | ⟨only, _⟩ := plain
    exact .cons (yields_zero program) (.cons only .nil)

/-! ## Checks -/

theorem check_eq_ok_iff {field : Field} (narrow : field.max < 2048) (operand : Located)
    (value : UInt16) :
    check field operand = .ok value ↔
      operand.1 = value.toNat ∧ value.toNat ≤ field.max := by
  obtain ⟨number, span⟩ := operand
  simp only [check]
  split
  · next negative =>
      simp only [reduceCtorEq, false_iff]
      intro h
      obtain ⟨rfl, -⟩ := h
      omega
  · next natural =>
      split
      · next large =>
          simp only [reduceCtorEq, false_iff]
          intro h
          obtain ⟨rfl, small⟩ := h
          omega
      · next fits =>
          have value_eq : (UInt16.ofNat number.toNat).toNat = number.toNat := by
            rw [UInt16.toNat_ofNat', Nat.mod_eq_of_lt (by omega)]
          simp only [Except.ok.injEq]
          constructor
          · intro h
            subst h
            rw [value_eq]
            omega
          · intro h
            obtain ⟨same, -⟩ := h
            rw [← UInt16.toNat_inj, value_eq]
            omega

theorem checkAll_eq_ok_iff {fields : List Field} (narrow : ∀ field ∈ fields, field.max < 2048)
    {operands : List Located} (full : operands.length = fields.length) (values : List UInt16) :
    checkAll fields operands = .ok values ↔
      operands.map Prod.fst = values.map (fun value => (value.toNat : Int)) ∧
        FitFields fields values := by
  unfold FitFields
  induction fields generalizing operands values with
  | nil =>
      rw [List.length_nil, List.length_eq_zero_iff] at full
      subst full
      cases values <;> simp [checkAll]
  | cons field fields ih =>
      obtain ⟨operand, operands, rfl⟩ := List.exists_cons_of_length_eq_add_one full
      have narrow' : ∀ field ∈ fields, field.max < 2048 := fun other member =>
        narrow other (List.mem_cons_of_mem _ member)
      have full' : operands.length = fields.length := by simpa using full
      have head := check_eq_ok_iff (narrow field (by simp)) operand
      simp only [checkAll]
      cases values with
      | nil =>
          simp only [List.forall₂_nil_right_iff, reduceCtorEq]
          cases check field operand with
          | error mistake => simp
          | ok first => cases checkAll fields operands <;> simp
      | cons value values =>
          rw [List.map_cons, List.map_cons, List.cons.injEq, List.forall₂_cons,
            and_and_and_comm, ← head, ← ih narrow' full']
          cases check field operand with
          | error mistake => simp
          | ok first => cases checkAll fields operands <;> simp

/-- An instruction line is resolved to the numbers that its operands come to, if they fit. -/
theorem ofTokens_eq_ok_iff (tracks : symbols.Tracks program) {opcode : Opcode} {first : Token}
    {rest : List Token} (count : opcode.Takes rest.length) (values : List UInt16) :
    ofTokens (symbols.place program.slotCount) opcode (first :: rest) = .ok values ↔
      List.Forall₂ (fun text (value : UInt16) => Yields program text value.toNat)
          (opcode.expand (rest.map Token.text)) values ∧
        FitFields opcode.fields values := by
  have narrow : ∀ field ∈ opcode.fields, field.max < 2048 := fun _ =>
    Opcode.max_lt_of_mem_fields
  have full (located : List Located) (of : Located.Of program rest located) :
      (complete opcode first.span located).length = opcode.fields.length := by
    rw [← List.length_map (f := Prod.fst), ← (yield_complete count first.span of).length_eq]
    exact Opcode.length_expand (by simpa using count)
  unfold ofTokens
  constructor
  · intro h
    cases resolved : resolveAll (symbols.place program.slotCount) rest with
    | error mistake => simp [resolved] at h
    | ok located =>
        simp only [resolved] at h
        have of := (resolveAll_eq_ok_iff tracks rest located).1 resolved
        obtain ⟨equal, fit⟩ := (checkAll_eq_ok_iff narrow (full located of) values).1 h
        have yields := yield_complete count first.span of
        rw [equal, List.forall₂_map_right_iff] at yields
        exact ⟨yields, fit⟩
  · intro ⟨yields, fit⟩
    rw [← List.forall₂_map_right_iff (f := fun value : UInt16 => (value.toNat : Int))] at yields
    have each : ∀ token ∈ rest, ∃ operand : Located,
        Yields program token.text operand.1 ∧ operand.2 = token.span := by
      intro token member
      obtain ⟨value, yields⟩ := (exists_forall₂_iff _).1 ⟨_, yields⟩ token.text
        (Opcode.mem_expand (List.mem_map_of_mem member))
      exact ⟨(value, token.span), yields, rfl⟩
    obtain ⟨located, of⟩ := (exists_forall₂_iff rest).2 each
    have resolved := (resolveAll_eq_ok_iff tracks rest located).2 of
    have unique : Relator.RightUnique (Yields program) := fun _ _ _ => yields_unique tracks
    have equal := unique.forall₂ (yield_complete count first.span of) yields
    simp only [resolved]
    exact (checkAll_eq_ok_iff narrow (full located of) values).2 ⟨equal, fit⟩

/-- An instruction line is resolved to the numbers that its operands denote. -/
theorem ofTokens_eq_ok_iff_resolves (tracks : symbols.Tracks program)
    (small : program.size ≤ 65536) {opcode : Opcode} {first : Token} {rest : List Token}
    (count : opcode.Takes rest.length) (values : List UInt16) :
    ofTokens (symbols.place program.slotCount) opcode (first :: rest) = .ok values ↔
      Resolves program opcode (rest.map Token.text) values := by
  rw [ofTokens_eq_ok_iff tracks count values]
  simp only [yields_iff_denotes small]
  exact ⟨fun ⟨denote, fit⟩ => ⟨denote, fit⟩, fun ⟨denote, fit⟩ => ⟨denote, fit⟩⟩

end Operand

/-! ## Values that fit -/

theorem exists_values_of_fit {R : String → Int → Prop} {fields : List Field} {texts : List String}
    (narrow : ∀ field ∈ fields, field.max < 2048)
    (fit : List.Forall₂
      (fun field text => ∃ value : Nat, R text value ∧ value ≤ field.max)
      fields texts) :
    ∃ values : List UInt16,
      List.Forall₂ (fun text (value : UInt16) => R text value.toNat)
        texts values ∧ FitFields fields values := by
  induction fit with
  | nil => exact ⟨[], .nil, .nil⟩
  | cons head _ ih =>
      obtain ⟨value, related, le⟩ := head
      obtain ⟨values, all, fit⟩ := ih fun other member => narrow other (by simp [member])
      have value_eq : (UInt16.ofNat value).toNat = value := by
        have := narrow _ List.mem_cons_self
        rw [UInt16.toNat_ofNat', Nat.mod_eq_of_lt (by omega)]
      exact ⟨UInt16.ofNat value :: values, .cons (by rwa [value_eq]) all,
        .cons (by rwa [value_eq]) fit⟩

theorem fit_of_values {R : String → Int → Prop} {fields : List Field} {texts : List String}
    {values : List UInt16}
    (all : List.Forall₂ (fun text (value : UInt16) => R text value.toNat)
      texts values) (fit : FitFields fields values) :
    List.Forall₂
      (fun field text => ∃ value : Nat, R text value ∧ value ≤ field.max)
      fields texts := by
  induction all generalizing fields with
  | nil =>
      cases fit
      exact .nil
  | cons head _ ih =>
      cases fit with
      | cons le fit => exact .cons ⟨_, head, le⟩ (ih fit)

/-- Operands that fit are operands that resolve to something. -/
theorem operandsFit_iff (program : Program) (opcode : Opcode) (operands : List String) :
    OperandsFit program opcode operands ↔ ∃ values, Resolves program opcode operands values := by
  constructor
  · intro fit
    obtain ⟨values, denote, le⟩ :=
      exists_values_of_fit (fun _ => Opcode.max_lt_of_mem_fields) fit
    exact ⟨values, denote, le⟩
  · intro ⟨values, denote, fit⟩
    exact fit_of_values denote fit

end Redstone

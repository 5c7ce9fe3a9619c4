import Redstone.Proofs.Instruction.Codec

/-!
# Bits that no field covers

Writing a word and reading one undo each other as far as they can. Reading ignores the bits that
no field of the opcode covers, so a word is written again with exactly these bits cleared, and two
words mean the same if they differ in no other bit. Writing refuses a list of operands for its
length first and then for its leftmost operand that is too large, and for nothing else.
-/

namespace Redstone

namespace Field

def Covers (field : Field) (i : Nat) : Prop :=
  field.shift ≤ i ∧ i < field.shift + field.width

def Apart (field other : Field) : Prop :=
  field.shift + field.width ≤ other.shift ∨ other.shift + other.width ≤ field.shift

instance (field : Field) (i : Nat) : Decidable (field.Covers i) :=
  inferInstanceAs (Decidable (_ ∧ _))

instance (field other : Field) : Decidable (field.Apart other) :=
  inferInstanceAs (Decidable (_ ∨ _))

theorem Apart.not_covers {field other : Field} (apart : field.Apart other) {i : Nat}
    (covers : field.Covers i) : ¬ other.Covers i := by
  unfold Apart at apart
  unfold Covers at covers ⊢
  omega

theorem testBit_extract (field : Field) (word i : Nat) :
    (field.extract word).testBit i =
      (decide (i < field.width) && word.testBit (field.shift + i)) := by
  simp only [extract, capacity, Nat.pow_eq, Nat.testBit_mod_two_pow, Nat.testBit_div_two_pow]
  rw [Nat.add_comm i]

theorem testBit_eq_testBit_extract {field : Field} {i : Nat} (covers : field.Covers i)
    (word : Nat) : word.testBit i = (field.extract word).testBit (i - field.shift) := by
  unfold Covers at covers
  have inside : i - field.shift < field.width := by omega
  rw [testBit_extract, decide_eq_true inside, Bool.true_and, Nat.add_sub_cancel' covers.1]

theorem extract_eq_zero {field : Field} {word : Nat}
    (clear : ∀ i, field.Covers i → word.testBit i = false) : field.extract word = 0 := by
  apply Nat.eq_of_testBit_eq
  intro i
  rw [testBit_extract, Nat.zero_testBit]
  by_cases inside : i < field.width
  · rw [clear (field.shift + i) ⟨by omega, by omega⟩, Bool.and_false]
  · simp [inside]

/-- Adding a value in the place of a field that holds zero changes no bit beside the field. -/
theorem testBit_place_add {field : Field} {value rest i : Nat} (fits : value ≤ field.max)
    (clear : field.extract rest = 0) (beside : ¬ field.Covers i) :
    (field.place value + rest).testBit i = rest.testBit i := by
  have small := (field.lt_capacity_iff value).2 fits
  simp only [extract, capacity, Nat.pow_eq] at clear small
  have low := Nat.mod_lt rest (Nat.two_pow_pos field.shift)
  -- The bits above the field, in it and below it.
  have upper : rest / 2 ^ field.shift =
      2 ^ field.width * (rest / 2 ^ field.shift / 2 ^ field.width) := by
    have := Nat.div_add_mod (rest / 2 ^ field.shift) (2 ^ field.width)
    omega
  have sum : field.place value + rest = 2 ^ field.shift *
      (2 ^ field.width * (rest / 2 ^ field.shift / 2 ^ field.width) + value) +
        rest % 2 ^ field.shift := by
    have := Nat.div_add_mod rest (2 ^ field.shift)
    rw [Nat.mul_add, ← upper, place, Nat.pow_eq, Nat.mul_comm value]
    omega
  rw [sum, Nat.testBit_two_pow_mul_add _ low]
  unfold Covers at beside
  by_cases below : i < field.shift
  · simp [below, Nat.testBit_mod_two_pow]
  · have above : ¬ i - field.shift < field.width := by omega
    rw [if_neg below, Nat.testBit_two_pow_mul_add _ small, if_neg above, Nat.testBit_div_two_pow,
      Nat.testBit_div_two_pow]
    congr 1
    omega

end Field

theorem Format.fields_apart (format : Format) : format.fields.Pairwise Field.Apart := by
  cases format <;> decide

/-- A bit below the opcode that none of its fields covers. -/
def Opcode.Padding (opcode : Opcode) (i : Nat) : Prop :=
  i < 11 ∧ ∀ field ∈ opcode.fields, ¬ field.Covers i

instance (opcode : Opcode) (i : Nat) : Decidable (opcode.Padding i) :=
  inferInstanceAs (Decidable (_ ∧ _))

namespace Word

theorem exists_covers_of_testBit {fields : List Field} {values : List Nat}
    (apart : fields.Pairwise Field.Apart)
    (fit : List.Forall₂ (fun (field : Field) value => value ≤ field.max) fields values) {i : Nat}
    (set : (operandBits fields values).testBit i = true) : ∃ field ∈ fields, field.Covers i := by
  induction fit generalizing i with
  | nil => simp [operandBits] at set
  | @cons field value fields values fits _ ih =>
      obtain ⟨others, apart⟩ := List.pairwise_cons.1 apart
      by_cases covers : field.Covers i
      · exact ⟨field, List.mem_cons_self, covers⟩
      · have clear : field.extract (operandBits fields values) = 0 := by
          apply Field.extract_eq_zero
          intro j inside
          by_contra set
          obtain ⟨other, member, covered⟩ := ih apart (eq_true_of_ne_false set)
          exact (others other member).not_covers inside covered
        rw [operandBits, Field.testBit_place_add fits clear covers] at set
        obtain ⟨other, member, covered⟩ := ih apart set
        exact ⟨other, List.mem_cons_of_mem field member, covered⟩

variable {opcode : Opcode} {values : List UInt16}

theorem testBit_pack_of_padding (fit : FitFields opcode.fields values) {i : Nat}
    (padding : opcode.Padding i) :
    (pack opcode (values.map UInt16.toNat)).toNat.testBit i = false := by
  have fit' : List.Forall₂ (fun (field : Field) value => value ≤ field.max) opcode.format.fields
      (values.map UInt16.toNat) := List.forall₂_map_right_iff.2 fit
  have low := (extract_operandBits opcode.format fit' 0).1
  rw [toNat_pack fit, Nat.mul_comm, show 2048 = 2 ^ 11 from rfl,
    Nat.testBit_two_pow_mul_add _ low, if_pos padding.1]
  by_contra set
  obtain ⟨field, member, covers⟩ :=
    exists_covers_of_testBit opcode.format.fields_apart fit' (eq_true_of_ne_false set)
  exact padding.2 field member covers

/-- Two numbers hold the same in every field and above them if they differ in padding at most. -/
theorem agree_iff (opcode : Opcode) (v w : Nat) :
    (∀ i, ¬ opcode.Padding i → v.testBit i = w.testBit i) ↔
      v / 2048 = w / 2048 ∧ ∀ field ∈ opcode.fields, field.extract v = field.extract w := by
  constructor
  · intro agree
    constructor
    · apply Nat.eq_of_testBit_eq
      intro i
      have upper : ¬ opcode.Padding (i + 11) := fun padding => by
        have := padding.1
        omega
      rw [show 2048 = 2 ^ 11 from rfl, Nat.testBit_div_two_pow, Nat.testBit_div_two_pow,
        agree (i + 11) upper]
    · intro field member
      apply Nat.eq_of_testBit_eq
      intro i
      rw [Field.testBit_extract, Field.testBit_extract]
      by_cases inside : i < field.width
      · have covers : field.Covers (field.shift + i) := ⟨by omega, by omega⟩
        rw [agree (field.shift + i) fun padding => padding.2 field member covers]
      · simp [inside]
  · rintro ⟨upper, same⟩ i covered
    by_cases low : i < 11
    · obtain ⟨field, member, covers⟩ : ∃ field ∈ opcode.fields, field.Covers i := by
        by_contra none
        exact covered ⟨low, fun field member covers => none ⟨field, member, covers⟩⟩
      rw [Field.testBit_eq_testBit_extract covers, Field.testBit_eq_testBit_extract covers,
        same field member]
    · have split : i = i - 11 + 11 := by omega
      rw [split, ← Nat.testBit_div_two_pow, ← Nat.testBit_div_two_pow]
      exact congrArg (·.testBit (i - 11)) upper

theorem decode_eq_ok_iff {word : UInt16} :
    decode word = .ok (opcode, values) ↔
      word.toNat / 2048 = opcode.code ∧ operands opcode word = values := by
  unfold decode
  cases found : Opcode.ofCode? (opcodeBits word) with
  | none =>
      have large := (Opcode.ofCode?_eq_none_iff _).1 found
      have := opcode.code_lt
      have differs : word.toNat / 2048 ≠ opcode.code := by
        unfold opcodeBits at large
        omega
      simp [differs]
  | some other =>
      have code := Opcode.code_of_ofCode? found
      constructor
      · intro same
        cases same
        exact ⟨code.symm, rfl⟩
      · rintro ⟨number, rfl⟩
        have same : some other = some opcode := by
          rw [← Opcode.ofCode?_code other, ← Opcode.ofCode?_code opcode, code, ← number]
          rfl
        cases same
        rfl

theorem extract_lt (word : UInt16) {field : Field} (member : field ∈ opcode.fields) :
    field.extract word.toNat < 65536 := by
  have width : field.width ≤ 16 := by
    have := opcode.format.fields_fit field member
    omega
  have capacity : 2 ^ field.width ≤ 2 ^ 16 := Nat.pow_le_pow_right (by decide) width
  exact Nat.lt_of_lt_of_le (Nat.mod_lt _ field.capacity_pos) capacity

theorem operands_eq_operands_iff (opcode : Opcode) (v w : UInt16) :
    operands opcode v = operands opcode w ↔
      ∀ field ∈ opcode.fields, field.extract v.toNat = field.extract w.toNat := by
  unfold operands
  rw [List.map_inj_left]
  constructor
  · intro same field member
    have words := congrArg UInt16.toNat (same field member)
    rwa [UInt16.toNat_ofNat_of_lt' (extract_lt v member),
      UInt16.toNat_ofNat_of_lt' (extract_lt w member)] at words
  · intro same field member
    rw [same field member]

/-- A word is read as another one is if the two differ in padding at most. -/
theorem decode_eq_ok_iff_agree {v w : UInt16} (read : decode v = .ok (opcode, values)) :
    decode w = .ok (opcode, values) ↔
      ∀ i, ¬ opcode.Padding i → v.toNat.testBit i = w.toNat.testBit i := by
  obtain ⟨code, rfl⟩ := decode_eq_ok_iff.1 read
  rw [decode_eq_ok_iff, agree_iff, code, eq_comm, eq_comm (a := operands opcode w),
    operands_eq_operands_iff]

theorem fit_operands (opcode : Opcode) (word : UInt16) :
    FitFields opcode.fields (operands opcode word) := by
  unfold FitFields operands
  rw [List.forall₂_map_right_iff, List.forall₂_same]
  intro field member
  rw [UInt16.toNat_ofNat_of_lt' (extract_lt word member)]
  exact field.reduce_le_max _

/-! ## What is refused -/

/-- The place of the first operand that its field cannot hold. -/
structure FirstUnfit (fields : List Field) (operands : List UInt16) (i : Nat) (field : Field)
    (value : UInt16) : Prop where
  field_at : fields[i]? = some field
  value_at : operands[i]? = some value
  too_large : field.max < value.toNat
  before : FitFields (fields.take i) (operands.take i)

/-- Why a list of operands has no word: there are too few or too many, or one does not fit. -/
inductive Refused (opcode : Opcode) (operands : List UInt16) : EncodeError → Prop where
  | count (wrong : operands.length ≠ opcode.fields.length) :
      Refused opcode operands
        (.operandCount opcode opcode.fields.length operands.length)
  | field {i : Nat} {field : Field} {value : UInt16}
      (full : operands.length = opcode.fields.length)
      (first : FirstUnfit opcode.fields operands i field value) :
      Refused opcode operands (.fieldOverflow opcode i value field.width)

theorem FirstUnfit.succ {field first : Field} {fields : List Field} {value head : UInt16}
    {operands : List UInt16} {i : Nat} (fits : head.toNat ≤ first.max)
    (unfit : FirstUnfit fields operands i field value) :
    FirstUnfit (first :: fields) (head :: operands) (i + 1) field value where
  field_at := unfit.field_at
  value_at := unfit.value_at
  too_large := unfit.too_large
  before := .cons fits unfit.before

theorem overflow?_of_firstUnfit {fields : List Field} {operands : List UInt16} {i : Nat}
    {field : Field} {value : UInt16} (unfit : FirstUnfit fields operands i field value)
    (index : Nat) : overflow? index fields operands = some (index + i, value, field.width) := by
  induction i generalizing fields operands index with
  | zero =>
      obtain ⟨rest, rfl⟩ := List.head?_eq_some_iff.1 (List.head?_eq_getElem? ▸ unfit.field_at)
      obtain ⟨tail, rfl⟩ := List.head?_eq_some_iff.1 (List.head?_eq_getElem? ▸ unfit.value_at)
      rw [overflow?, if_pos unfit.too_large, Nat.add_zero]
  | succ i ih =>
      obtain ⟨place, large, here, before⟩ := unfit
      cases fields with
      | nil => simp at place
      | cons first fields =>
          cases operands with
          | nil => simp at large
          | cons head operands =>
              obtain _ | ⟨fits, before⟩ := before
              rw [overflow?, if_neg (Nat.not_lt.2 fits), ih ⟨place, large, here, before⟩,
                Nat.add_right_comm, Nat.add_assoc]

theorem exists_firstUnfit {fields : List Field} {operands : List UInt16}
    (full : operands.length = fields.length) (unfit : ¬ FitFields fields operands) :
    ∃ i field value, FirstUnfit fields operands i field value := by
  induction fields generalizing operands with
  | nil =>
      rw [List.length_nil, List.length_eq_zero_iff] at full
      subst full
      exact absurd .nil unfit
  | cons first fields ih =>
      obtain ⟨head, operands, rfl⟩ := List.exists_cons_of_length_eq_add_one full
      have full' : operands.length = fields.length := by simpa using full
      by_cases fits : head.toNat ≤ first.max
      · obtain ⟨i, field, value, rest⟩ := ih full' fun tail => unfit (.cons fits tail)
        exact ⟨i + 1, field, value, rest.succ fits⟩
      · exact ⟨0, first, head, rfl, rfl, by omega, .nil⟩

theorem encode_eq_error_of_refused {operands : List UInt16} {e : EncodeError}
    (refused : Refused opcode operands e) : encode opcode operands = .error e := by
  unfold encode
  cases refused with
  | count wrong => rw [if_pos wrong]
  | field full first =>
      rw [if_neg (not_not_intro full), overflow?_of_firstUnfit first]
      simp

theorem encode_eq_error_iff {operands : List UInt16} {e : EncodeError} :
    encode opcode operands = .error e ↔ Refused opcode operands e := by
  constructor
  · intro fails
    have unfit : ¬ FitFields opcode.fields operands := fun fit => by
      rw [(encode_eq_ok_iff opcode operands _).2 ⟨fit, rfl⟩] at fails
      cases fails
    obtain ⟨reason, refused⟩ : ∃ reason, Refused opcode operands reason := by
      by_cases full : operands.length = opcode.fields.length
      · obtain ⟨i, field, value, first⟩ := exists_firstUnfit full unfit
        exact ⟨_, .field full first⟩
      · exact ⟨_, .count full⟩
    rw [encode_eq_error_of_refused refused] at fails
    cases fails
    exact refused
  · exact encode_eq_error_of_refused

/--
A list of operands has a word exactly if there are as many as fields and each fits its field, and
the word is read as that list; any other list is refused for its length or for the leftmost
operand that does not fit, never for the length of the word. A word is no instruction exactly if
the number in its top five bits exceeds 26; any other word is written again as itself with its
padding cleared, and is read like those words that differ from it in padding only.
-/
theorem encode_decode_exact :
    (∀ (opcode : Opcode) (values : List UInt16),
      ((∃ word, encode opcode values = .ok word) ↔ FitFields opcode.fields values) ∧
      (∀ word, encode opcode values = .ok word → decode word = .ok (opcode, values)) ∧
      (∀ e, encode opcode values = .error e ↔ Refused opcode values e) ∧
      ∀ number, encode opcode values ≠ .error (.wordLength number)) ∧
    ∀ word : UInt16,
      (∀ e, decode word = .error e ↔
        26 < word.toNat / 2048 ∧ e = .invalidOpcode (word.toNat / 2048)) ∧
      ∀ (opcode : Opcode) (values : List UInt16), decode word = .ok (opcode, values) →
        (∃ again, encode opcode values = .ok again ∧
          ∀ i, again.toNat.testBit i = (word.toNat.testBit i && !decide (opcode.Padding i))) ∧
        ∀ other : UInt16, decode other = decode word ↔
          ∀ i, ¬ opcode.Padding i → word.toNat.testBit i = other.toNat.testBit i := by
  refine ⟨fun opcode values => ⟨?_, ?_, fun e => encode_eq_error_iff, ?_⟩,
    fun word => ⟨?_, fun opcode values read => ⟨?_, ?_⟩⟩⟩
  · simp only [encode_eq_ok_iff, exists_and_left, exists_eq, and_true]
  · intro word written
    obtain ⟨fit, rfl⟩ := (encode_eq_ok_iff opcode values word).1 written
    exact decode_pack fit
  · intro number long
    cases encode_eq_error_iff.1 long
  · intro e
    have large := Opcode.ofCode?_eq_none_iff (word.toNat / 2048)
    unfold decode opcodeBits
    cases found : Opcode.ofCode? (word.toNat / 2048) with
    | none =>
        have : 26 < word.toNat / 2048 := large.1 found
        simp [this, eq_comm]
    | some opcode =>
        have : ¬ 26 < word.toNat / 2048 := fun exceeds => by
          rw [large.2 exceeds] at found
          cases found
        simp [this]
  · have fit : FitFields opcode.fields values :=
      (decode_eq_ok_iff.1 read).2 ▸ fit_operands opcode word
    refine ⟨_, (encode_eq_ok_iff opcode values _).2 ⟨fit, rfl⟩, fun i => ?_⟩
    by_cases padding : opcode.Padding i
    · simp [padding, testBit_pack_of_padding fit padding]
    · rw [← (decode_eq_ok_iff_agree read).1 (decode_pack fit) i padding]
      simp [padding]
  · intro other
    rw [read]
    exact decode_eq_ok_iff_agree read

/-- A jump with its padding bit set is read as the jump without it, which it is written again as. -/
theorem encode_decode_exact_jump :
    decode 0x680b = .ok (.jmp, [5]) ∧
      (∃ again, encode .jmp [5] = .ok again ∧ ∀ i, again.toNat.testBit i =
        ((0x680b : UInt16).toNat.testBit i && !decide (Opcode.jmp.Padding i))) ∧
      decode 0x680a = decode 0x680b ∧
      ∀ i, ¬ Opcode.jmp.Padding i →
        (0x680b : UInt16).toNat.testBit i = (0x680a : UInt16).toNat.testBit i := by
  have read : decode 0x680b = .ok (.jmp, [5]) := rfl
  obtain ⟨again, alike⟩ := (encode_decode_exact.2 0x680b).2 .jmp [5] read
  exact ⟨read, again, rfl, (alike 0x680a).1 rfl⟩

end Word

end Redstone

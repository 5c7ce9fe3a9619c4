import Redstone.Text.Blank
import Redstone.Text.Numeral

/-!
# Numerals and the characters in them

Reading the decimal digits of a number gives the number again. The digits of a numeral are letters
and digits, and so none of the characters that separate one thing from another.
-/

namespace Redstone

/-! ## Letters and digits -/

namespace Text

theorem toNat_of_isAlphanum {c : Char} (h : c.isAlphanum = true) :
    48 ≤ c.toNat ∧ c.toNat ≤ 122 ∧ c.toNat ≠ 58 ∧ c.toNat ≠ 59 := by
  have hkind : (c.isUpper || c.isLower || c.isDigit) = true := h
  rw [Bool.or_eq_true, Bool.or_eq_true] at hkind
  rcases hkind with (upper | lower) | digit
  · have hrange : 65 ≤ c.toNat ∧ c.toNat ≤ 90 := of_decide_eq_true upper
    omega
  · obtain ⟨low, high⟩ := Bool.and_eq_true_iff.1 lower
    have hlow : 97 ≤ c.toNat := of_decide_eq_true low
    have hhigh : c.toNat ≤ 122 := of_decide_eq_true high
    omega
  · obtain ⟨low, high⟩ := Bool.and_eq_true_iff.1 digit
    have hlow : 48 ≤ c.toNat := of_decide_eq_true low
    have hhigh : c.toNat ≤ 57 := of_decide_eq_true high
    omega

theorem isBlank_eq_false_of_isAlphanum {c : Char} (h : c.isAlphanum = true) :
    isBlank c = false := by
  have hrange := toNat_of_isAlphanum h
  simp only [isBlank, Bool.or_eq_false_iff, Bool.and_eq_false_iff, beq_eq_false_iff_ne,
    decide_eq_false_iff_not]
  omega

theorem ne_of_isAlphanum {c d : Char} (h : c.isAlphanum = true) (hd : d.isAlphanum = false) :
    c ≠ d := by
  rintro rfl
  rw [h] at hd
  cases hd

theorem isAsciiBlank_eq_false_of_isAlphanum {c : Char} (h : c.isAlphanum = true) :
    isAsciiBlank c = false := by
  cases hblank : isAsciiBlank c with
  | false => rfl
  | true =>
      have hnot := isBlank_eq_false_of_isAlphanum h
      rw [isBlank_of_isAsciiBlank hblank] at hnot
      cases hnot

def Written (text : String) : Prop :=
  text.toList ≠ [] ∧ ∀ c ∈ text.toList, c.isAlphanum = true

end Text

namespace Numeral

theorem valueAfter?_append (base high : Nat) (cs ds : List Char) :
    valueAfter? base high (cs ++ ds) =
      (valueAfter? base high cs).bind fun value => valueAfter? base value ds := by
  induction cs generalizing high with
  | nil => rfl
  | cons c cs ih =>
      rw [List.cons_append, valueAfter?, valueAfter?]
      cases digitValue? base c with
      | none => rfl
      | some d => exact ih _

theorem digitValue?_digitChar :
    ∀ base ≤ 16, ∀ d < base, digitValue? base (Nat.digitChar d) = some d := by
  decide

theorem valueAfter?_toDigits {base : Nat} (hbase : 1 < base) (hle : base ≤ 16) (n : Nat) :
    valueAfter? base 0 (Nat.toDigits base n) = some n := by
  induction n using Nat.strongRecOn with
  | ind n ih =>
      by_cases hlt : n < base
      · rw [Nat.toDigits_of_lt_base hlt]
        simp [valueAfter?, digitValue?_digitChar base hle n hlt]
      · have hdigit := digitValue?_digitChar base hle (n % base) (Nat.mod_lt n (by omega))
        rw [Nat.toDigits_of_base_le hbase (Nat.not_lt.1 hlt), valueAfter?_append,
          ih (n / base) (Nat.div_lt_self (by omega) hbase)]
        simp only [Option.bind_some, valueAfter?, hdigit, Nat.div_add_mod']

theorem valueAfter?_zeros {base : Nat} (hbase : 1 < base) (hle : base ≤ 16) (n : Nat)
    (cs : List Char) :
    valueAfter? base 0 (List.replicate n '0' ++ cs) = valueAfter? base 0 cs := by
  have hzero : digitValue? base '0' = some 0 := digitValue?_digitChar base hle 0 (by omega)
  induction n with
  | zero => rfl
  | succ n ih => simp [List.replicate_succ, valueAfter?, hzero, ih]

/-- The digits of a number are read as the number, with any zeros in front. -/
theorem value?_digits {base : Nat} (hbase : 1 < base) (hle : base ≤ 16) (width n : Nat) :
    value? base (digits base width n) = some n := by
  have hsome : (digits base width n).isEmpty = false := by
    simp [digits, List.leftpad, Nat.toDigits_ne_nil]
  rw [value?, hsome, digits, List.leftpad]
  exact (valueAfter?_zeros hbase hle _ _).trans (valueAfter?_toDigits hbase hle n)

theorem value?_toDigits (n : Nat) : value? 10 (Nat.toDigits 10 n) = some n := by
  have hdigits : value? 10 (digits 10 0 n) = some n := value?_digits (by decide) (by decide) 0 n
  simpa [digits, List.leftpad] using hdigits

theorem digitValue?_ten_eq_some_iff {c : Char} {d : Nat} :
    digitValue? 10 c = some d ↔ c.isDigit = true ∧ c.toNat - '0'.toNat = d := by
  have hdigit : c.isDigit = true ↔ '0' ≤ c ∧ c ≤ '9' := by
    simp [Char.isDigit, Char.le_def]
  rw [digitValue?, Option.filter_eq_some_iff, hdigit]
  by_cases hrange : '0' ≤ c ∧ c ≤ '9'
  · have hle : c.toNat ≤ 57 := hrange.2
    have hzero : '0'.toNat = 48 := rfl
    rw [if_pos hrange]
    simp only [Option.some.injEq, decide_eq_true_eq, hrange, true_and]
    omega
  · rw [if_neg hrange]
    refine ⟨fun ⟨hvalue, hlt⟩ => ?_, fun ⟨hdigit, _⟩ => absurd hdigit hrange⟩
    -- A letter stands for ten at least.
    have hsmall : d < 10 := of_decide_eq_true hlt
    split at hvalue
    · cases hvalue
      omega
    · split at hvalue
      · cases hvalue
        omega
      · cases hvalue

theorem valueAfter?_ten_eq_some_iff {high n : Nat} {cs : List Char} :
    valueAfter? 10 high cs = some n ↔
      (∀ c ∈ cs, c.isDigit = true) ∧ Nat.ofDigitChars 10 cs high = n := by
  induction cs generalizing high with
  | nil => simp [valueAfter?]
  | cons c cs ih =>
      rw [List.forall_mem_cons, Nat.ofDigitChars_cons, Nat.mul_comm]
      cases hdigit : digitValue? 10 c with
      | none =>
          have hnot : ¬c.isDigit = true := by
            intro digit
            rw [digitValue?_ten_eq_some_iff.2 ⟨digit, rfl⟩] at hdigit
            cases hdigit
          simp [valueAfter?, hdigit, hnot]
      | some d =>
          obtain ⟨digit, rfl⟩ := digitValue?_ten_eq_some_iff.1 hdigit
          simp only [valueAfter?, hdigit, ih, digit, true_and]

/-- Decimal numerals are the texts of decimal digits that are not empty. -/
theorem value?_ten_eq_some_iff {n : Nat} {cs : List Char} :
    value? 10 cs = some n ↔
      cs ≠ [] ∧ (∀ c ∈ cs, c.isDigit = true) ∧ Nat.ofDigitChars 10 cs 0 = n := by
  unfold value?
  cases cs with
  | nil => simp
  | cons c cs => simp [valueAfter?_ten_eq_some_iff]

theorem toList_toString (n : Nat) : (toString n).toList = Nat.toDigits 10 n :=
  Nat.toList_repr

theorem isDigit_of_mem_toString {n : Nat} {c : Char} (member : c ∈ (toString n).toList) :
    c.isDigit = true := by
  rw [toList_toString] at member
  exact Nat.isDigit_of_mem_toDigits (by decide) (by decide) member

theorem written_toString (n : Nat) : Text.Written (toString n) := by
  constructor
  · rw [toList_toString]
    exact Nat.toDigits_ne_nil
  · intro c member
    rw [Char.isAlphanum, isDigit_of_mem_toString member, Bool.or_true]

theorem exists_digit_of_mem_toDigits {base n : Nat} (hbase : 1 < base) {c : Char}
    (member : c ∈ Nat.toDigits base n) : ∃ d < base, c = Nat.digitChar d := by
  induction n using Nat.strongRecOn with
  | ind n ih =>
      by_cases hlt : n < base
      · rw [Nat.toDigits_of_lt_base hlt, List.mem_singleton] at member
        exact ⟨n, hlt, member⟩
      · rw [Nat.toDigits_of_base_le hbase (Nat.not_lt.1 hlt), List.mem_append,
          List.mem_singleton] at member
        rcases member with front | last
        · exact ih (n / base) (Nat.div_lt_self (by omega) hbase) front
        · exact ⟨n % base, Nat.mod_lt n (by omega), last⟩

theorem isAlphanum_digitChar : ∀ d < 16, (Nat.digitChar d).isAlphanum = true := by
  decide

theorem isAlphanum_of_mem_digits {base width n : Nat} (hbase : 1 < base) (hle : base ≤ 16)
    {c : Char} (member : c ∈ digits base width n) : c.isAlphanum = true := by
  rw [digits, List.leftpad, List.mem_append] at member
  rcases member with padding | digit
  · rw [List.eq_of_mem_replicate padding]
    decide
  · obtain ⟨d, hlt, rfl⟩ := exists_digit_of_mem_toDigits hbase digit
    exact isAlphanum_digitChar d (Nat.lt_of_lt_of_le hlt hle)

end Numeral

end Redstone

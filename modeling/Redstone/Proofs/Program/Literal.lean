import Mathlib.Data.List.Forall2
import Mathlib.Data.Nat.Digits.Defs
import Redstone.Proofs.Program.LetterCase
import Redstone.Proofs.Text.Numeral

/-!
# Which texts are literals

What a literal looks like and what it is worth can be told by the places of its digits, without
reading them one after the other. It may begin with a minus; behind that stand decimal digits, or
a mark for base 16 or 2 and digits with a sign of their own or none. A text is read as a number if
and only if it looks like this, what stands behind the minus has a form with 64 bits and a sign, and
its negative has one too. A mark is binding, and each number but the least is read back from its
digits in every base. A minus in front of the least number overflows.
-/

namespace Redstone

/-! ## Digits -/

namespace Numeral

/-- A character that stands for a digit; letters, in either case, stand for ten and more. -/
def IsDigit (base d : Nat) (c : Char) : Prop :=
  d < base ∧ c.toLower = Nat.digitChar d

/-- Digits of a base, one at least and the highest first, and the number that their places make. -/
def AmountsTo (base : Nat) (cs : List Char) (n : Nat) : Prop :=
  cs ≠ [] ∧ ∃ ds, List.Forall₂ (IsDigit base) ds cs ∧ Nat.ofDigits base ds.reverse = n

theorem toLower_ofNat_of_lt_ten :
    ∀ d < 10, (Char.ofNat (48 + d)).toLower = Nat.digitChar d := by
  decide

theorem toLower_ofNat_of_ten_le :
    ∀ d < 16, 10 ≤ d → (Char.ofNat (87 + d)).toLower = Nat.digitChar d ∧
      (Char.ofNat (55 + d)).toLower = Nat.digitChar d := by
  decide

theorem digitValue?_eq_some_iff {base : Nat} (hle : base ≤ 16) {c : Char} {d : Nat} :
    digitValue? base c = some d ↔ IsDigit base d c := by
  constructor
  · intro hread
    -- Each range that is read begins with the digit of its least value.
    obtain ⟨hvalue, hdecide⟩ := Option.filter_eq_some_iff.1 hread
    have hlt : d < base := of_decide_eq_true hdecide
    refine ⟨hlt, ?_⟩
    have hchar {code : Nat} (hcode : c.toNat = code) : c = Char.ofNat code := by
      rw [← hcode, Char.ofNat_toNat]
    split at hvalue
    · next hrange =>
        have hlow : 48 ≤ c.toNat := hrange.1
        have hhigh : c.toNat ≤ 57 := hrange.2
        have hd : c.toNat - 48 = d := Option.some.inj hvalue
        rw [hchar (show c.toNat = 48 + d by omega)]
        exact toLower_ofNat_of_lt_ten d (by omega)
    · split at hvalue
      · next hrange =>
          have hlow : 97 ≤ c.toNat := hrange.1
          have hd : c.toNat - 97 + 10 = d := Option.some.inj hvalue
          rw [hchar (show c.toNat = 87 + d by omega)]
          exact (toLower_ofNat_of_ten_le d (by omega) (by omega)).1
      · split at hvalue
        · next hrange =>
            have hlow : 65 ≤ c.toNat := hrange.1
            have hd : c.toNat - 65 + 10 = d := Option.some.inj hvalue
            rw [hchar (show c.toNat = 55 + d by omega)]
            exact (toLower_ofNat_of_ten_le d (by omega) (by omega)).2
        · cases hvalue
  · rintro ⟨hlt, hlower⟩
    rw [← digitValue?_toLower, hlower]
    exact digitValue?_digitChar base hle d hlt

theorem ofDigits_reverse_cons_append (base d high : Nat) (ds : List Nat) :
    Nat.ofDigits base ((d :: ds).reverse ++ [high]) =
      Nat.ofDigits base (ds.reverse ++ [high * base + d]) := by
  have hpair : Nat.ofDigits base [d, high] = high * base + d := by
    rw [Nat.ofDigits_cons, Nat.ofDigits_singleton, Nat.mul_comm, Nat.add_comm]
  rw [List.reverse_cons, List.append_assoc, List.singleton_append, Nat.ofDigits_append, hpair,
    Nat.ofDigits_append, Nat.ofDigits_singleton]

/-- Digits read behind a number count as if it stood in the place above them. -/
theorem valueAfter?_eq_some_iff {base : Nat} (hle : base ≤ 16) {high n : Nat} {cs : List Char} :
    valueAfter? base high cs = some n ↔
      ∃ ds, List.Forall₂ (IsDigit base) ds cs ∧ Nat.ofDigits base (ds.reverse ++ [high]) = n := by
  -- The number in front takes up a digit at each step, so the induction is for all of them.
  induction cs generalizing high with
  | nil => simp [valueAfter?]
  | cons c cs ih =>
      constructor
      · intro hread
        cases hdigit : digitValue? base c with
        | none => simp [valueAfter?, hdigit] at hread
        | some d =>
            simp only [valueAfter?, hdigit] at hread
            obtain ⟨ds, hdigits, hsum⟩ := ih.1 hread
            refine ⟨d :: ds, .cons ((digitValue?_eq_some_iff hle).1 hdigit) hdigits, ?_⟩
            rw [ofDigits_reverse_cons_append, hsum]
      · rintro ⟨ds, hdigits, hsum⟩
        cases hdigits with
        | @cons d _ ds _ hdigit hdigits =>
            rw [ofDigits_reverse_cons_append] at hsum
            simp only [valueAfter?, (digitValue?_eq_some_iff hle).2 hdigit]
            exact ih.2 ⟨ds, hdigits, hsum⟩

theorem value?_eq_some_iff {base : Nat} (hle : base ≤ 16) {cs : List Char} {n : Nat} :
    value? base cs = some n ↔ AmountsTo base cs n := by
  cases cs with
  | nil => simp [value?, AmountsTo]
  | cons c cs => simp [value?, AmountsTo, valueAfter?_eq_some_iff hle, Nat.ofDigits_append_zero]

theorem amountsTo_digits {base : Nat} (hbase : 1 < base) (hle : base ≤ 16) (width n : Nat) :
    AmountsTo base (digits base width n) n :=
  (value?_eq_some_iff hle).1 (value?_digits hbase hle width n)

theorem not_amountsTo_sign {base : Nat} (hle : base ≤ 16) {sign : Char}
    (hsign : sign = '-' ∨ sign = '+') (cs : List Char) (n : Nat) :
    ¬ AmountsTo base (sign :: cs) n := by
  rw [← value?_eq_some_iff hle]
  rcases hsign with rfl | rfl
  · exact nofun
  · exact nofun

end Numeral

/-! ## Literals -/

namespace Literal

/-- Numbers that have a form with 64 bits and a sign. -/
def Fits (value : Int) : Prop :=
  -2 ^ 63 ≤ value ∧ value < 2 ^ 63

inductive Signed (base : Nat) : List Char → Int → Prop where
  | bare {cs : List Char} {n : Nat} (digits : Numeral.AmountsTo base cs n) : Signed base cs n
  | plus {cs : List Char} {n : Nat} (digits : Numeral.AmountsTo base cs n) :
      Signed base ('+' :: cs) n
  | minus {cs : List Char} {n : Nat} (digits : Numeral.AmountsTo base cs n) :
      Signed base ('-' :: cs) (-n)

inductive IsMark : Char → Nat → Prop where
  | smallHex : IsMark 'x' 16
  | capitalHex : IsMark 'X' 16
  | smallBinary : IsMark 'b' 2
  | capitalBinary : IsMark 'B' 2

/-- What may stand behind the minus of a literal, or without one. -/
inductive Body : List Char → Int → Prop where
  | decimal {cs : List Char} {n : Nat} (digits : Numeral.AmountsTo 10 cs n) : Body cs n
  | marked {mark : Char} {base : Nat} {cs : List Char} {value : Int} (isMark : IsMark mark base)
      (signed : Signed base cs value) : Body ('0' :: mark :: cs) value

inductive Worth : List Char → Int → Prop where
  | plain {cs : List Char} {value : Int} (body : Body cs value) (fits : Fits value) :
      Worth cs value
  | negated {cs : List Char} {value : Int} (body : Body cs value) (fits : Fits value) :
      Worth ('-' :: cs) (-value)

/-- A minus in front of the least number, which has its own minus and so stands behind a mark. -/
def NegatesLeast (cs : List Char) : Prop :=
  ∃ body, cs = '-' :: body ∧ Body body (-2 ^ 63)

theorem inRange_iff {value : Int} : inRange value = true ↔ Fits value := by
  simp [inRange, Fits]

theorem IsMark.le_sixteen {mark : Char} {base : Nat} (isMark : IsMark mark base) : base ≤ 16 := by
  cases isMark <;> decide

theorem IsMark.one_lt {mark : Char} {base : Nat} (isMark : IsMark mark base) : 1 < base := by
  cases isMark <;> decide

theorem filter_map_value?_eq_some_iff {base : Nat} (hle : base ≤ 16) {sign : Nat → Int}
    {cs : List Char} {value : Int} :
    ((Numeral.value? base cs).map sign).filter inRange = some value ↔
      (∃ n, Numeral.AmountsTo base cs n ∧ sign n = value) ∧ Fits value := by
  rw [Option.filter_eq_some_iff, Option.map_eq_some_iff, inRange_iff]
  simp only [Numeral.value?_eq_some_iff hle]

theorem signed?_minus (base : Nat) (cs : List Char) :
    signed? base ('-' :: cs) =
      ((Numeral.value? base cs).map fun n => -Int.ofNat n).filter inRange := by
  rw [signed?]
  cases Numeral.value? base cs with
  | none => rfl
  | some n => rfl

theorem signed?_eq_some_iff {base : Nat} (hle : base ≤ 16) {cs : List Char} {value : Int} :
    signed? base cs = some value ↔ Signed base cs value ∧ Fits value := by
  by_cases hminus : cs.head? = some '-'
  · obtain ⟨digits, rfl⟩ := List.head?_eq_some_iff.1 hminus
    rw [signed?_minus, filter_map_value?_eq_some_iff hle]
    refine and_congr_left fun _ => ?_
    constructor
    · rintro ⟨n, amount, rfl⟩
      exact .minus amount
    · intro signed
      cases signed with
      | bare amount => exact absurd amount (Numeral.not_amountsTo_sign hle (.inl rfl) _ _)
      | minus amount => exact ⟨_, amount, rfl⟩
  · by_cases hplus : cs.head? = some '+'
    · obtain ⟨digits, rfl⟩ := List.head?_eq_some_iff.1 hplus
      show ((Numeral.value? base digits).map Int.ofNat).filter inRange = _ ↔ _
      rw [filter_map_value?_eq_some_iff hle]
      refine and_congr_left fun _ => ?_
      constructor
      · rintro ⟨n, amount, rfl⟩
        exact .plus amount
      · intro signed
        cases signed with
        | bare amount => exact absurd amount (Numeral.not_amountsTo_sign hle (.inr rfl) _ _)
        | plus amount => exact ⟨_, amount, rfl⟩
    · rw [signed?_of_unsigned hminus hplus, filter_map_value?_eq_some_iff hle]
      refine and_congr_left fun _ => ?_
      constructor
      · rintro ⟨n, amount, rfl⟩
        exact .bare amount
      · intro signed
        cases signed with
        | bare amount => exact ⟨_, amount, rfl⟩
        | plus _ => exact absurd rfl hplus
        | minus _ => exact absurd rfl hminus

/-- A mark is binding: what stands behind it is not read as anything else. -/
theorem IsMark.magnitude?_eq {mark : Char} {base : Nat} (isMark : IsMark mark base)
    (digits : List Char) : magnitude? ('0' :: mark :: digits) = signed? base digits := by
  cases isMark <;> rfl

theorem IsMark.not_decimal {mark : Char} {base : Nat} (isMark : IsMark mark base)
    (digits : List Char) (n : Nat) : ¬ Numeral.AmountsTo 10 ('0' :: mark :: digits) n := by
  rw [← Numeral.value?_eq_some_iff (by decide)]
  cases isMark <;> exact nofun

theorem IsMark.body_iff {mark : Char} {base : Nat} (isMark : IsMark mark base)
    {digits : List Char} {value : Int} :
    Body ('0' :: mark :: digits) value ↔ Signed base digits value := by
  constructor
  · intro body
    cases body with
    | decimal amount => exact absurd amount (isMark.not_decimal _ _)
    | marked other signed =>
        cases isMark <;> cases other <;> exact signed
  · exact .marked isMark

theorem marked_iff {cs : List Char} :
    Marked cs ↔ ∃ mark base digits, IsMark mark base ∧ cs = '0' :: mark :: digits := by
  constructor
  · rintro ⟨mark, digits, rfl, rfl | rfl | rfl | rfl⟩
    · exact ⟨_, _, _, .smallHex, rfl⟩
    · exact ⟨_, _, _, .capitalHex, rfl⟩
    · exact ⟨_, _, _, .smallBinary, rfl⟩
    · exact ⟨_, _, _, .capitalBinary, rfl⟩
  · rintro ⟨mark, base, digits, isMark, rfl⟩
    refine ⟨mark, digits, rfl, ?_⟩
    cases isMark <;> simp

theorem magnitude?_eq_some_iff {cs : List Char} {value : Int} :
    magnitude? cs = some value ↔ Body cs value ∧ Fits value := by
  by_cases hmarked : Marked cs
  · obtain ⟨mark, base, digits, isMark, rfl⟩ := marked_iff.1 hmarked
    rw [isMark.magnitude?_eq, signed?_eq_some_iff isMark.le_sixteen, isMark.body_iff]
  · rw [magnitude?_of_not_marked hmarked, filter_map_value?_eq_some_iff (by decide)]
    refine and_congr_left fun _ => ?_
    constructor
    · rintro ⟨n, amount, rfl⟩
      exact .decimal amount
    · intro body
      cases body with
      | decimal amount => exact ⟨_, amount, rfl⟩
      | marked isMark _ => exact absurd (marked_iff.2 ⟨_, _, _, isMark, rfl⟩) hmarked

theorem Body.not_minus {cs : List Char} {value : Int} : ¬ Body ('-' :: cs) value := by
  intro body
  cases body with
  | decimal amount => exact Numeral.not_amountsTo_sign (by decide) (.inl rfl) _ _ amount

theorem worth_iff {cs : List Char} {value : Int} :
    Worth cs value ↔
      magnitude? cs = some value ∨ cs.head? = some '-' ∧ magnitude? cs.tail = some (-value) := by
  constructor
  · intro worth
    cases worth with
    | plain hbody hfits => exact .inl (magnitude?_eq_some_iff.2 ⟨hbody, hfits⟩)
    | @negated body inner hbody hfits =>
        refine .inr ⟨rfl, ?_⟩
        rw [Int.neg_neg]
        exact magnitude?_eq_some_iff.2 ⟨hbody, hfits⟩
  · rintro (hread | ⟨hminus, hread⟩)
    · obtain ⟨hbody, hfits⟩ := magnitude?_eq_some_iff.1 hread
      exact .plain hbody hfits
    · obtain ⟨body, rfl⟩ := List.head?_eq_some_iff.1 hminus
      obtain ⟨hbody, hfits⟩ := magnitude?_eq_some_iff.1 hread
      simpa using Worth.negated hbody hfits

theorem worth_minus_iff {body : List Char} {value : Int} :
    Worth ('-' :: body) value ↔ magnitude? body = some (-value) := by
  have hnone : magnitude? ('-' :: body) ≠ some value := fun hread =>
    Body.not_minus (magnitude?_eq_some_iff.1 hread).1
  rw [worth_iff, or_iff_right hnone]
  exact and_iff_right rfl

theorem worth_of_positive {cs : List Char} (hminus : cs.head? ≠ some '-') {value : Int} :
    Worth cs value ↔ magnitude? cs = some value := by
  rw [worth_iff, or_iff_left (fun h => hminus h.1)]

theorem fits_of_magnitude? {cs : List Char} {value : Int} (hread : magnitude? cs = some value) :
    Fits value :=
  (magnitude?_eq_some_iff.1 hread).2

theorem negate_eq_ok_iff {value negative : Int} :
    negate value = .ok negative ↔ -value = negative ∧ Fits negative := by
  unfold negate
  split
  · next hrange =>
      rw [Except.ok.injEq]
      constructor
      · rintro rfl
        exact ⟨rfl, inRange_iff.1 hrange⟩
      · exact And.left
  · next hrange =>
      refine ⟨nofun, ?_⟩
      rintro ⟨rfl, fits⟩
      exact absurd (inRange_iff.2 fits) hrange

/-- Of the numbers in the range only the least has no negative there. -/
theorem negate_eq_error_iff {value : Int} (fits : Fits value) {cause : Overflow} :
    negate value = .error cause ↔ value = -2 ^ 63 ∧ cause = .negation := by
  unfold negate
  split
  · next hrange =>
      have hnegative : Fits (-value) := inRange_iff.1 hrange
      unfold Fits at hnegative
      refine ⟨nofun, ?_⟩
      rintro ⟨rfl, -⟩
      omega
  · next hrange =>
      have hnegative : ¬ Fits (-value) := mt inRange_iff.2 hrange
      unfold Fits at fits hnegative
      rw [Except.error.injEq, eq_comm]
      exact (and_iff_right (by omega)).symm

theorem valueOf?_eq_ok_some_iff {cs : List Char} {value : Int} :
    valueOf? cs = .ok (some value) ↔ Worth cs value ∧ Fits value := by
  by_cases hminus : cs.head? = some '-'
  · obtain ⟨body, rfl⟩ := List.head?_eq_some_iff.1 hminus
    rw [valueOf?_minus, worth_minus_iff]
    cases hread : magnitude? body with
    | none => simp
    | some inner =>
        have hmap : (negate inner).map some = .ok (some value) ↔ negate inner = .ok value := by
          cases negate inner <;> simp [Except.map]
        have hsame : some inner = some (-value) ↔ -inner = value := by
          rw [Option.some.injEq]
          omega
        rw [hsame]
        exact hmap.trans negate_eq_ok_iff
  · rw [valueOf?_of_positive hminus, worth_of_positive hminus, Except.ok.injEq]
    exact (and_iff_left_of_imp fits_of_magnitude?).symm

/-! ## Numbers that are read back -/

instance (cs : List Char) (value : Int) : Decidable (Worth cs value) :=
  decidable_of_iff' _ worth_iff

theorem negatesLeast_iff {cs : List Char} :
    NegatesLeast cs ↔ cs.head? = some '-' ∧ magnitude? cs.tail = some (-2 ^ 63) := by
  have hbody {body : List Char} : Body body (-2 ^ 63) ↔ magnitude? body = some (-2 ^ 63) := by
    rw [magnitude?_eq_some_iff]
    exact (and_iff_left ⟨by decide, by decide⟩).symm
  constructor
  · rintro ⟨body, rfl, least⟩
    exact ⟨rfl, hbody.1 least⟩
  · rintro ⟨hminus, hread⟩
    obtain ⟨body, rfl⟩ := List.head?_eq_some_iff.1 hminus
    exact ⟨body, rfl, hbody.2 hread⟩

instance (cs : List Char) : Decidable (NegatesLeast cs) :=
  decidable_of_iff' _ negatesLeast_iff

theorem valueOf?_eq_error_iff {cs : List Char} {cause : Overflow} :
    valueOf? cs = .error cause ↔ NegatesLeast cs ∧ cause = .negation := by
  rw [negatesLeast_iff]
  by_cases hminus : cs.head? = some '-'
  · obtain ⟨body, rfl⟩ := List.head?_eq_some_iff.1 hminus
    rw [valueOf?_minus, and_iff_right hminus, List.tail_cons]
    cases hread : magnitude? body with
    | none => simp
    | some inner =>
        have hmap : (negate inner).map some = .error cause ↔ negate inner = .error cause := by
          cases negate inner <;> simp [Except.map]
        rw [Option.some.injEq]
        exact hmap.trans (negate_eq_error_iff (fits_of_magnitude? hread))
  · rw [valueOf?_of_positive hminus]
    exact ⟨nofun, fun h => absurd h.1.1 hminus⟩

theorem Worth.fits {cs : List Char} {value : Int} (worth : Worth cs value)
    (other : ¬ NegatesLeast cs) : Fits value := by
  cases worth with
  | plain _ fits => exact fits
  | @negated body inner hbody fits =>
      have hleast : inner ≠ -2 ^ 63 := by
        rintro rfl
        exact other ⟨body, rfl, hbody⟩
      unfold Fits at *
      omega

/-- Behind a mark there are digits of its base, also behind a minus. -/
theorem Worth.exists_signed {cs digits : List Char} {mark : Char} {base : Nat} {value : Int}
    (worth : Worth cs value) (isMark : IsMark mark base)
    (marked : cs = '0' :: mark :: digits ∨ cs = '-' :: '0' :: mark :: digits) :
    ∃ inner, Signed base digits inner ∧ Fits inner := by
  rcases marked with rfl | rfl
  · cases worth with
    | plain body fits => exact ⟨_, isMark.body_iff.1 body, fits⟩
  · cases worth with
    | plain body _ => exact absurd body Body.not_minus
    | negated body fits => exact ⟨_, isMark.body_iff.1 body, fits⟩

def minus (n : Int) : List Char :=
  if n < 0 then ['-'] else []

theorem minus_cases (n : Int) :
    minus n = [] ∧ (n.natAbs : Int) = n ∨ minus n = ['-'] ∧ -(n.natAbs : Int) = n := by
  by_cases hneg : n < 0
  · exact .inr ⟨if_pos hneg, by omega⟩
  · exact .inl ⟨if_neg hneg, by omega⟩

theorem Body.worth_minus {cs : List Char} {n : Int} (body : Body cs n.natAbs)
    (low : -(2 ^ 63 - 1) ≤ n) (high : n ≤ 2 ^ 63 - 1) : Worth (minus n ++ cs) n := by
  have fits : Fits n.natAbs := by
    unfold Fits
    omega
  rcases minus_cases n with ⟨hminus, hn⟩ | ⟨hminus, hn⟩
  · have worth := Worth.plain body fits
    rw [hn] at worth
    rwa [hminus]
  · have worth := Worth.negated body fits
    rw [hn] at worth
    rwa [hminus]

theorem signed_minus {base : Nat} {cs : List Char} {n : Int}
    (amount : Numeral.AmountsTo base cs n.natAbs) : Signed base (minus n ++ cs) n := by
  rcases minus_cases n with ⟨hminus, hn⟩ | ⟨hminus, hn⟩
  · have signed := Signed.bare amount
    rw [hn] at signed
    rwa [hminus]
  · have signed := Signed.minus amount
    rw [hn] at signed
    rwa [hminus]

/--
A text is read as a number if and only if it is a literal that is worth this number, which then has
64 bits and a sign. The one exception is a minus in front of the least number, and at no other text
does reading overflow. Behind a mark only digits of its base that stay in the range are read, and
nothing else is tried. Each number but the least is read from its decimal digits and from its digits
behind a mark, with as many zeros in front of them as one likes, and with the minus either in front
of the mark or behind it.
-/
theorem literal_language :
    (∀ text : String, ¬ NegatesLeast text.toList → ∀ value : Int,
      (value? text = .ok (some value) ↔ Worth text.toList value) ∧
        (value? text = .ok (some value) → Fits value)) ∧
    (∀ (text : String) (cause : Overflow),
      value? text = .error cause ↔ NegatesLeast text.toList ∧ cause = .negation) ∧
    (∀ (text : String) (mark : Char) (base : Nat) (digits : List Char), IsMark mark base →
      (text.toList = '0' :: mark :: digits ∨ text.toList = '-' :: '0' :: mark :: digits) →
      (∀ value, Signed base digits value → ¬ Fits value) → value? text = .ok none) ∧
    ∀ n : Int, -(2 ^ 63 - 1) ≤ n → n ≤ 2 ^ 63 - 1 → ∀ width : Nat,
      value? (String.ofList (minus n ++ Numeral.digits 10 width n.natAbs)) = .ok (some n) ∧
      ∀ (mark : Char) (base : Nat), IsMark mark base →
        value? (String.ofList (minus n ++ '0' :: mark :: Numeral.digits base width n.natAbs)) =
          .ok (some n) ∧
        value? (String.ofList ('0' :: mark :: (minus n ++ Numeral.digits base width n.natAbs))) =
          .ok (some n) := by
  refine ⟨?_, fun text cause => valueOf?_eq_error_iff, ?_, ?_⟩
  · intro text other value
    have hread : value? text = .ok (some value) ↔ Worth text.toList value ∧ Fits value :=
      valueOf?_eq_ok_some_iff
    refine ⟨hread.trans (and_iff_left_of_imp fun worth => worth.fits other), fun read => ?_⟩
    exact (hread.1 read).2
  · intro text mark base digits isMark marked refused
    have hworth {value : Int} (worth : Worth text.toList value) : False := by
      obtain ⟨inner, signed, fits⟩ := worth.exists_signed isMark marked
      exact refused inner signed fits
    cases hread : value? text with
    | error cause =>
        obtain ⟨body, htext, least⟩ := (valueOf?_eq_error_iff.1 hread).1
        have worth : Worth text.toList (-(-2 ^ 63)) := by
          rw [htext]
          exact .negated least ⟨by decide, by decide⟩
        exact (hworth worth).elim
    | ok read =>
        cases read with
        | none => rfl
        | some value => exact (hworth (valueOf?_eq_ok_some_iff.1 hread).1).elim
  · intro n low high width
    have fits : Fits n := by
      unfold Fits
      omega
    have back {cs : List Char} (worth : Worth cs n) :
        value? (String.ofList cs) = .ok (some n) := by
      rw [value?, String.toList_ofList]
      exact valueOf?_eq_ok_some_iff.2 ⟨worth, fits⟩
    have ten : Numeral.AmountsTo 10 (Numeral.digits 10 width n.natAbs) n.natAbs :=
      Numeral.amountsTo_digits (by decide) (by decide) width n.natAbs
    refine ⟨back ((Body.decimal ten).worth_minus low high), ?_⟩
    intro mark base isMark
    have amount : Numeral.AmountsTo base (Numeral.digits base width n.natAbs) n.natAbs :=
      Numeral.amountsTo_digits isMark.one_lt isMark.le_sixteen width n.natAbs
    constructor
    · exact back ((Body.marked isMark (.bare amount)).worth_minus low high)
    · exact back (.plain (.marked isMark (signed_minus amount)) fits)

/-- A second sign, a number that is one too large though its negative is not, and zeros in front. -/
theorem literal_language_hexadecimal :
    ¬ NegatesLeast "-0x-1F".toList ∧ Worth "-0x-1F".toList 31 ∧
      value? "-0x8000000000000000" = .ok none ∧ value? "-0x001f" = .ok (some (-31)) ∧
      value? "-0x-8000000000000000" = .error .negation := by
  obtain ⟨read, overflows, refused, back⟩ := literal_language
  have other : ¬ NegatesLeast "-0x-1F".toList := by decide
  have large : ∀ value, Signed 16 "8000000000000000".toList value → ¬ Fits value := by
    intro value signed fits
    have hread := (signed?_eq_some_iff (by decide)).2 ⟨signed, fits⟩
    rw [show signed? 16 "8000000000000000".toList = none by decide] at hread
    cases hread
  have hread : value? "-0x-1F" = .ok (some 31) := by decide
  refine ⟨other, (read _ other 31).1.1 hread, ?_, ?_, (overflows _ _).2 ⟨by decide, rfl⟩⟩
  · exact refused _ 'x' 16 "8000000000000000".toList .smallHex (.inr rfl) large
  · have written : String.ofList
        (minus (-31) ++ '0' :: 'x' :: Numeral.digits 16 4 (-31 : Int).natAbs) = "-0x001f" := by
      decide
    rw [← written]
    exact ((back (-31) (by decide) (by decide) 4).2 'x' 16 .smallHex).1

/-- The least number is a literal only with its minus behind a mark. -/
example : Worth "0x-8000000000000000".toList (-2 ^ 63) ∧
    ¬ Worth "-9223372036854775808".toList (-2 ^ 63) := by decide

end Literal

end Redstone

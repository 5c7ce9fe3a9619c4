import Redstone.Assembly.Literal

/-!
# Letter case in numbers

Digits above nine, the marks for base 16 and 2 and the names of aliases may be written in either
case. A number is read from a text exactly as it is read from its lower case.
-/

namespace Redstone

/-! ## Characters -/

theorem toLower_cases (c : Char) :
    c.toLower = c ∨ (65 ≤ c.toNat ∧ c.toNat ≤ 90) ∧ c.toLower.toNat = c.toNat + 32 := by
  by_cases hcapital : c.val ≥ 'A'.val ∧ c.val ≤ 'Z'.val
  · have hlow : 65 ≤ c.toNat := hcapital.1
    have hhigh : c.toNat ≤ 90 := hcapital.2
    refine .inr ⟨⟨hlow, hhigh⟩, ?_⟩
    have hval : c.toLower.val = c.val + 32 := by
      unfold Char.toLower
      rw [dif_pos hcapital]
      rfl
    show c.toLower.val.toNat = c.val.toNat + 32
    have hsum : c.val.toNat + (32 : UInt32).toNat < 2 ^ 32 := by
      have : c.val.toNat ≤ 90 := hhigh
      have : (32 : UInt32).toNat = 32 := rfl
      omega
    rw [hval, UInt32.toNat_add, Nat.mod_eq_of_lt hsum]
    rfl
  · exact .inl (dif_neg hcapital)

/-- A character that is no small letter is the lower case of itself only. -/
theorem eq_of_toLower_eq {c d : Char} (hd : d.toNat < 97) (h : c.toLower = d) : c = d := by
  subst h
  rcases toLower_cases c with hsame | ⟨hcapital, hlower⟩
  · exact hsame.symm
  · omega

theorem eq_or_eq_of_toLower_eq {c small capital : Char}
    (hletter : small.toNat = capital.toNat + 32) (h : c.toLower = small) :
    c = small ∨ c = capital := by
  subst h
  rcases toLower_cases c with hsame | ⟨_, hlower⟩
  · exact .inl hsame.symm
  · exact .inr (Char.toNat_inj.1 (by omega))

theorem toUpper_toLower_ofNat :
    ∀ n < 91, (Char.ofNat n).toLower.toUpper = (Char.ofNat n).toUpper := by
  decide

theorem toUpper_toLower (c : Char) : c.toLower.toUpper = c.toUpper := by
  rcases toLower_cases c with hsame | ⟨⟨_, hhigh⟩, _⟩
  · rw [hsame]
  · have found := toUpper_toLower_ofNat c.toNat (by omega)
    rwa [Char.ofNat_toNat] at found

/-! ## Digits -/

namespace Numeral

theorem digitValue?_toLower (base : Nat) (c : Char) :
    digitValue? base c.toLower = digitValue? base c := by
  rcases toLower_cases c with hsame | ⟨⟨hlow, hhigh⟩, hlower⟩
  · rw [hsame]
  · have hdigit {d : Char} (hd : 65 ≤ d.toNat) : ¬('0' ≤ d ∧ d ≤ '9') := by
      intro h
      have : d.toNat ≤ 57 := h.2
      omega
    have hsmall : 'a' ≤ c.toLower ∧ c.toLower ≤ 'z' := by
      show 97 ≤ c.toLower.toNat ∧ c.toLower.toNat ≤ 122
      omega
    have hnot : ¬('a' ≤ c ∧ c ≤ 'z') := by
      intro h
      have : 97 ≤ c.toNat := h.1
      omega
    have hcapital : 'A' ≤ c ∧ c ≤ 'Z' := ⟨hlow, hhigh⟩
    have hvalue : c.toLower.toNat - 'a'.toNat = c.toNat - 'A'.toNat := by
      show c.toLower.toNat - 97 = c.toNat - 65
      omega
    simp only [digitValue?, hdigit hlow, hdigit (show 65 ≤ c.toLower.toNat by omega), hsmall, hnot,
      hcapital, hvalue, if_true, if_false, and_self]

theorem valueAfter?_map_toLower (base high : Nat) (cs : List Char) :
    valueAfter? base high (cs.map Char.toLower) = valueAfter? base high cs := by
  induction cs generalizing high with
  | nil => rfl
  | cons c rest ih =>
      rw [List.map_cons, valueAfter?, valueAfter?, digitValue?_toLower]
      cases digitValue? base c with
      | none => rfl
      | some d => exact ih (high * base + d)

theorem value?_map_toLower (base : Nat) (cs : List Char) :
    value? base (cs.map Char.toLower) = value? base cs := by
  cases cs with
  | nil => rfl
  | cons c rest => exact valueAfter?_map_toLower base 0 (c :: rest)

end Numeral

/-! ## Literals -/

namespace Literal

theorem signed?_of_unsigned {base : Nat} {cs : List Char} (hminus : cs.head? ≠ some '-')
    (hplus : cs.head? ≠ some '+') :
    signed? base cs = ((Numeral.value? base cs).map Int.ofNat).filter inRange := by
  unfold signed?
  split
  · exact absurd rfl hminus
  · exact absurd rfl hplus
  · rfl

theorem head?_map_toLower_ne {cs : List Char} {d : Char} (hd : d.toNat < 97)
    (h : cs.head? ≠ some d) : (cs.map Char.toLower).head? ≠ some d := by
  rw [List.head?_map]
  intro hlower
  obtain ⟨c, hc, hsame⟩ := Option.map_eq_some_iff.1 hlower
  rw [eq_of_toLower_eq hd hsame] at hc
  exact h hc

theorem signed?_map_toLower (base : Nat) (cs : List Char) :
    signed? base (cs.map Char.toLower) = signed? base cs := by
  -- Signs are no letters: the lower case has the sign that the text has, or none either.
  by_cases hminus : cs.head? = some '-'
  · obtain ⟨digits, rfl⟩ := List.head?_eq_some_iff.1 hminus
    show ((Numeral.value? base (digits.map Char.toLower)).map
      fun n => -(n : Int)).filter inRange = _
    rw [Numeral.value?_map_toLower]
    rfl
  · by_cases hplus : cs.head? = some '+'
    · obtain ⟨digits, rfl⟩ := List.head?_eq_some_iff.1 hplus
      show ((Numeral.value? base (digits.map Char.toLower)).map Int.ofNat).filter inRange = _
      rw [Numeral.value?_map_toLower]
      rfl
    · rw [signed?_of_unsigned hminus hplus, signed?_of_unsigned
        (head?_map_toLower_ne (by decide) hminus) (head?_map_toLower_ne (by decide) hplus),
        Numeral.value?_map_toLower]

def Marked (cs : List Char) : Prop :=
  ∃ mark digits, cs = '0' :: mark :: digits ∧ (mark = 'x' ∨ mark = 'X' ∨ mark = 'b' ∨ mark = 'B')

theorem magnitude?_of_not_marked {cs : List Char} (h : ¬Marked cs) :
    magnitude? cs = ((Numeral.value? 10 cs).map Int.ofNat).filter inRange := by
  unfold magnitude?
  split
  · exact absurd ⟨_, _, rfl, .inl rfl⟩ h
  · exact absurd ⟨_, _, rfl, .inr (.inl rfl)⟩ h
  · exact absurd ⟨_, _, rfl, .inr (.inr (.inl rfl))⟩ h
  · exact absurd ⟨_, _, rfl, .inr (.inr (.inr rfl))⟩ h
  · rfl

theorem Marked.of_map_toLower {cs : List Char} (h : Marked (cs.map Char.toLower)) : Marked cs := by
  obtain ⟨mark, digits, hcs, hmark⟩ := h
  obtain ⟨zero, tail, rfl, hzero, htail⟩ := List.map_eq_cons_iff.1 hcs
  obtain ⟨c, rest, rfl, hc, _⟩ := List.map_eq_cons_iff.1 htail
  obtain rfl := eq_of_toLower_eq (by decide) hzero
  refine ⟨c, rest, rfl, ?_⟩
  rcases hmark with rfl | rfl | rfl | rfl
  · exact (eq_or_eq_of_toLower_eq (show 'x'.toNat = 'X'.toNat + 32 from rfl) hc).imp_right .inl
  · exact .inr (.inl (eq_of_toLower_eq (by decide) hc))
  · exact .inr (.inr (eq_or_eq_of_toLower_eq (show 'b'.toNat = 'B'.toNat + 32 from rfl) hc))
  · exact .inr (.inr (.inr (eq_of_toLower_eq (by decide) hc)))

theorem magnitude?_map_toLower (cs : List Char) :
    magnitude? (cs.map Char.toLower) = magnitude? cs := by
  by_cases hmarked : Marked cs
  · obtain ⟨mark, digits, rfl, rfl | rfl | rfl | rfl⟩ := hmarked
    · exact signed?_map_toLower 16 digits
    · exact signed?_map_toLower 16 digits
    · exact signed?_map_toLower 2 digits
    · exact signed?_map_toLower 2 digits
  · have hlower := mt Marked.of_map_toLower hmarked
    rw [magnitude?_of_not_marked hmarked, magnitude?_of_not_marked hlower,
      Numeral.value?_map_toLower]

theorem valueOf?_map_toLower (cs : List Char) :
    valueOf? (cs.map Char.toLower) = valueOf? cs := by
  by_cases hminus : cs.head? = some '-'
  · obtain ⟨body, rfl⟩ := List.head?_eq_some_iff.1 hminus
    show valueOf? ('-' :: body.map Char.toLower) = _
    rw [valueOf?_minus, magnitude?_map_toLower, valueOf?_minus]
  · rw [valueOf?_of_positive hminus, valueOf?_of_positive (head?_map_toLower_ne (by decide) hminus),
      magnitude?_map_toLower]

end Literal

end Redstone

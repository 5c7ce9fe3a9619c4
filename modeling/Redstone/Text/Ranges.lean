/-!
# Ranges of characters

A property that many characters have is kept as the ranges of code points that
have it, in ascending order.
-/

namespace Redstone

/-- Ranges of code points, each with its first and last one, in ascending order. -/
abbrev CodeRanges := List (Nat × Nat)

namespace CodeRanges

def contains (code : Nat) : CodeRanges → Bool
  | [] => false
  | (first, last) :: rest =>
      first ≤ code && (code ≤ last || contains code rest)

theorem contains_of_lt {code first last : Nat} {rest : CodeRanges}
    (h : code < first) : contains code ((first, last) :: rest) = false := by
  simp [contains, Nat.not_le_of_lt h]

theorem exists_of_contains {code : Nat} {ranges : CodeRanges}
    (h : contains code ranges = true) :
    ∃ range ∈ ranges, range.1 ≤ code ∧ code ≤ range.2 := by
  induction ranges with
  | nil => exact absurd h (by simp [contains])
  | cons range rest ih =>
      simp only [contains, Bool.and_eq_true, Bool.or_eq_true,
        decide_eq_true_eq] at h
      rcases h with ⟨low, high | inRest⟩
      · exact ⟨range, by simp, low, high⟩
      · obtain ⟨other, member, bounds⟩ := ih inRest
        exact ⟨other, by simp [member], bounds⟩

end CodeRanges

end Redstone

import Mathlib.Data.List.TakeWhile
import Redstone.Text.Blank

/-!
# Trimming

Trimming is not changed by white space that is put at either end, and leaves a text alone that
has none there.
-/

namespace Redstone

namespace Text

theorem trimChars_blank_append {before : List Char} (hbefore : ∀ c ∈ before, isBlank c = true)
    (cs : List Char) : trimChars (before ++ cs) = trimChars cs := by
  rw [trimChars, trimChars, List.dropWhile_append_of_pos hbefore]

theorem trimChars_append_blank (cs : List Char) {after : List Char}
    (hafter : ∀ c ∈ after, isBlank c = true) : trimChars (cs ++ after) = trimChars cs := by
  rw [trimChars, trimChars, List.dropWhile_append]
  by_cases hnone : (cs.dropWhile isBlank).isEmpty = true
  · rw [if_pos hnone, List.dropWhile_eq_nil_iff.2 hafter, List.isEmpty_iff.1 hnone]
  · have hback : ∀ c ∈ after.reverse, isBlank c = true := by simpa using hafter
    rw [if_neg hnone, List.reverse_append, List.dropWhile_append_of_pos hback]

theorem trimChars_concat_blank (cs : List Char) {c : Char} (hblank : isBlank c = true) :
    trimChars (cs ++ [c]) = trimChars cs :=
  trimChars_append_blank cs (List.forall_mem_singleton.2 hblank)

theorem trimChars_of_blank {cs : List Char} (hblank : ∀ c ∈ cs, isBlank c = true) :
    trimChars cs = [] :=
  trimChars_append_blank [] hblank

theorem dropWhile_isBlank_eq_self {cs : List Char}
    (head : ∀ c, cs.head? = some c → isBlank c = false) : cs.dropWhile isBlank = cs := by
  cases cs with
  | nil => rfl
  | cons c cs => exact List.dropWhile_cons_of_neg (by simp [head c rfl])

theorem trimChars_eq_self {cs : List Char} (head : ∀ c, cs.head? = some c → isBlank c = false)
    (last : ∀ c, cs.getLast? = some c → isBlank c = false) : trimChars cs = cs := by
  have hback : ∀ c, cs.reverse.head? = some c → isBlank c = false := by
    intro c hc
    rw [List.head?_reverse] at hc
    exact last c hc
  rw [trimChars, dropWhile_isBlank_eq_self head, dropWhile_isBlank_eq_self hback,
    List.reverse_reverse]

/-- Only white space is taken away from the ends of a text. -/
theorem exists_append_trimChars (cs : List Char) :
    ∃ before after, cs = before ++ trimChars cs ++ after ∧
      (∀ c ∈ before, isBlank c = true) ∧ ∀ c ∈ after, isBlank c = true := by
  refine ⟨cs.takeWhile isBlank, ((cs.dropWhile isBlank).reverse.takeWhile isBlank).reverse, ?_,
    fun c member => List.mem_takeWhile_imp member,
    fun c member => List.mem_takeWhile_imp (List.mem_reverse.1 member)⟩
  rw [trimChars, List.append_assoc, ← List.reverse_append, List.takeWhile_append_dropWhile,
    List.reverse_reverse, List.takeWhile_append_dropWhile]

theorem isBlank_of_head?_dropWhile {cs : List Char} {c : Char}
    (first : (cs.dropWhile isBlank).head? = some c) : isBlank c = false := by
  have stops := List.head?_dropWhile_not isBlank cs
  rw [first] at stops
  simpa using stops

theorem isBlank_of_getLast?_trimChars {cs : List Char} {c : Char}
    (last : (trimChars cs).getLast? = some c) : isBlank c = false := by
  rw [trimChars, List.getLast?_reverse] at last
  exact isBlank_of_head?_dropWhile last

theorem isBlank_of_head?_trimChars {cs : List Char} {c : Char}
    (first : (trimChars cs).head? = some c) : isBlank c = false := by
  have front : trimChars cs <+: cs.dropWhile isBlank := by
    rw [trimChars, ← List.reverse_suffix, List.reverse_reverse]
    exact List.dropWhile_suffix isBlank
  obtain ⟨rest, split⟩ := front
  have whole : (cs.dropWhile isBlank).head? = some c := by
    rw [← split, List.head?_append, first, Option.some_or]
  exact isBlank_of_head?_dropWhile whole

end Text

end Redstone

import Mathlib.Data.List.DropRight
import Mathlib.Data.List.Infix
import Redstone.Terminal.Screen

/-!
# The lines of a screen

Each line of a screen comes from the bytes between two line feeds and from no others: it is what
these make of an empty line, character by character. The screen has the last of these lines, as many
as it keeps.
-/

namespace Redstone

namespace Screen

/-- A line after one more byte that is no line feed. -/
def ink (line : List Char) (byte : UInt8) : List Char :=
  if byte = 0x08 ∨ byte = 0x7f then line.dropLast
  else if byte < 0x20 then line ++ [mark]
  else if byte < 0x7f then line ++ [Char.ofNat byte.toNat]
  else line

def inked (bytes : List UInt8) : List Char :=
  bytes.foldl ink []

/-- All lines that bytes make, the oldest first. -/
def page (bytes : List UInt8) : List (List Char) :=
  (bytes.splitOn 0x0a).map inked

/-! ## Single lines -/

/-- A character that shows: printable ASCII, or the mark of a control code. -/
def Shown (c : Char) : Prop :=
  c = mark ∨ 0x20 ≤ c.toNat ∧ c.toNat ≤ 0x7e

theorem shown_ofNat {byte : UInt8} (low : ¬ byte < 0x20) (high : byte < 0x7f) :
    Shown (Char.ofNat byte.toNat) := by
  have hlow : 0x20 ≤ byte.toNat := UInt8.le_iff_toNat_le.1 (UInt8.not_lt.1 low)
  have hhigh : byte.toNat < 0x7f := UInt8.lt_iff_toNat_lt.1 high
  have code : (Char.ofNat byte.toNat).toNat = byte.toNat := by
    rw [Char.ofNat, dif_pos (.inl (by omega))]
    rfl
  refine .inr ?_
  omega

theorem shown_of_mem_ink {line : List Char} {byte : UInt8} (before : ∀ c ∈ line, Shown c) :
    ∀ c ∈ ink line byte, Shown c := by
  have appended {c : Char} (shown : Shown c) : ∀ d ∈ line ++ [c], Shown d :=
    List.forall_mem_append.2 ⟨before, List.forall_mem_singleton.2 shown⟩
  unfold ink
  split
  · exact fun c member => before c (List.mem_of_mem_dropLast member)
  · split
    · exact appended (.inl rfl)
    · next low =>
        split
        · next high => exact appended (shown_ofNat low high)
        · exact before

theorem shown_of_mem_inked {bytes : List UInt8} : ∀ c ∈ inked bytes, Shown c := by
  induction bytes using List.reverseRecOn with
  | nil => exact nofun
  | append_singleton bytes byte ih =>
      rw [inked, List.foldl_concat]
      exact shown_of_mem_ink ih

/-- There are some lines, and another byte belongs to the last of them. -/
theorem exists_page_concat (bytes : List UInt8) :
    ∃ older line, page bytes = older ++ [line] ∧
      ∀ byte, byte ≠ 0x0a → page (bytes ++ [byte]) = older ++ [ink line byte] := by
  -- What follows the last line feed, if there is one, has no other in it.
  obtain ⟨front, last, closed, split⟩ : ∃ front last, 0x0a ∉ last ∧
      ∀ more, 0x0a ∉ more → (bytes ++ more).splitOn 0x0a = front ++ [last ++ more] := by
    by_cases fed : 0x0a ∈ bytes
    · obtain ⟨last, front, reversed, closed⟩ := List.eq_append_cons_of_mem (List.mem_reverse.2 fed)
      have split : bytes = front.reverse ++ 0x0a :: last.reverse := by
        rw [← List.reverse_reverse bytes, reversed]
        simp
      refine ⟨front.reverse.splitOn 0x0a, last.reverse, by simpa using closed, ?_⟩
      intro more plain
      have closed' : 0x0a ∉ last.reverse ++ more := by simp [closed, plain]
      rw [split, List.append_assoc, List.cons_append, List.splitOn_append_cons_self,
        List.splitOn_eq_singleton closed']
    · refine ⟨[], bytes, fed, fun more plain => ?_⟩
      exact List.splitOn_eq_singleton (by simp [fed, plain])
  have page_append (more : List UInt8) (plain : 0x0a ∉ more) :
      page (bytes ++ more) = front.map inked ++ [inked (last ++ more)] := by
    rw [page, split more plain, List.map_append, List.map_singleton]
  refine ⟨front.map inked, inked last, by simpa using page_append [] nofun, ?_⟩
  intro byte plain
  rw [page_append [byte] (by simpa using Ne.symm plain), inked, List.foldl_concat]
  rfl

theorem page_lineFeed (bytes : List UInt8) : page (bytes ++ [0x0a]) = page bytes ++ [[]] := by
  rw [page, List.splitOn_append_cons_self, List.splitOn_nil, List.map_append]
  rfl

/-! ## Rows -/

theorem rows_foldl_put (bytes : List UInt8) (screen : Screen) :
    (bytes.foldl put screen).rows = bytes.foldl putByte screen.rows := by
  induction bytes generalizing screen with
  | nil => rfl
  | cons byte rest ih => exact ih (screen.put byte)

theorem putByte_cons {byte : UInt8} (plain : byte ≠ 0x0a) (line : List Char)
    (older : List (List Char)) :
    putByte (line.reverse :: older) byte = (ink line byte).reverse :: older := by
  unfold putByte ink
  rw [if_neg plain]
  split_ifs <;> simp [erase, append]

theorem rows_eq_take (bytes : List UInt8) :
    (bytes.foldl put empty).rows = ((page bytes).map List.reverse).reverse.take scrollback := by
  rw [rows_foldl_put]
  induction bytes using List.reverseRecOn with
  | nil => rfl
  | append_singleton bytes byte ih =>
      rw [List.foldl_concat, ih]
      by_cases feed : byte = 0x0a
      · subst feed
        rw [page_lineFeed, List.map_append, List.reverse_append]
        show ([] :: List.take 500 _).take 500 = ([] :: _).take 500
        rw [List.take_succ_cons, List.take_succ_cons, List.take_take]
        rfl
      · obtain ⟨older, line, before, after⟩ := exists_page_concat bytes
        rw [before, after byte feed]
        simp only [List.map_append, List.map_singleton, List.reverse_append,
          List.reverse_singleton, List.singleton_append]
        exact putByte_cons feed line _

theorem lines_foldl_put (bytes : List UInt8) :
    (bytes.foldl put empty).lines = (page bytes).rtake scrollback := by
  rw [lines, rows_eq_take, List.rtake_eq_reverse_take_reverse, List.map_take, List.map_reverse,
    List.map_map, List.reverse_involutive.comp_self, List.map_id]

/-- The newest line is always kept, and all that an erasing byte does is done to it. -/
theorem exists_erased (bytes : List UInt8) :
    ∃ older line, (bytes.foldl put empty).lines = older ++ [line] ∧
      ∀ byte, byte = 0x08 ∨ byte = 0x7f →
        ((bytes ++ [byte]).foldl put empty).lines = older ++ [line.dropLast] := by
  obtain ⟨older, line, before, after⟩ := exists_page_concat bytes
  refine ⟨older.rtake 499, line, ?_, fun byte erases => ?_⟩
  · rw [lines_foldl_put, before]
    exact List.rtake_concat_succ older 499 line
  · have plain : byte ≠ 0x0a := by rcases erases with rfl | rfl <;> decide
    rw [lines_foldl_put, after byte plain, ink, if_pos erases]
    exact List.rtake_concat_succ older 499 line.dropLast

/--
The lines of a screen are what the bytes between line feeds make of empty lines, each for itself,
and of these the last 500 or all. So there is always a line and there are never more than 500, no
line has a control code in it, and erasing stays within the newest line.
-/
theorem shows_newest_lines (bytes : List UInt8) :
    (bytes.foldl put empty).lines = ((bytes.splitOn 0x0a).map inked).rtake 500 ∧
    0 < (bytes.foldl put empty).lines.length ∧ (bytes.foldl put empty).lines.length ≤ 500 ∧
    (∀ line ∈ (bytes.foldl put empty).lines, ∀ c ∈ line,
      c = '\ufffd' ∨ 0x20 ≤ c.toNat ∧ c.toNat ≤ 0x7e) ∧
    ∃ older line, (bytes.foldl put empty).lines = older ++ [line] ∧
      ∀ byte, byte = 0x08 ∨ byte = 0x7f →
        ((bytes ++ [byte]).foldl put empty).lines = older ++ [line.dropLast] := by
  have newest := lines_foldl_put bytes
  refine ⟨newest, ?_, ?_, fun line member => ?_, exists_erased bytes⟩
  · obtain ⟨older, line, split, -⟩ := exists_erased bytes
    rw [split, List.length_append]
    exact Nat.succ_pos _
  · rw [newest, List.rtake, List.length_drop, scrollback]
    omega
  · rw [newest] at member
    obtain ⟨segment, -, rfl⟩ := List.mem_map.1 (List.mem_of_mem_drop member)
    exact shown_of_mem_inked

/-- Erasing in an empty line leaves the line before it alone. -/
example : (([0x61, 0x0a, 0x08, 0x7f, 0x1b, 0xc3] : List UInt8).foldl put empty).lines =
    [['a'], ['\ufffd']] := by
  decide

end Screen

end Redstone

import Redstone.Proofs.Terminal.History
import Redstone.Terminal.Window

/-!
# What is seen of a waiting program

The middle box of the window has the last lines of the viewed terminal, one in a row, cut off where
the box ends. While the program waits there a mark follows the newest line. It is cut off like any
other character, so it is seen if and only if the line leaves a column free.
-/

namespace Redstone

/-!
## Layout

The layout of the window is not the program's own. What is taken from it are three facts, which the
proofs below use in place of the drawing: how high the areas are, that each row of a box has one of
its lines, and that a line is cut off at the right side.
-/

namespace Frame

variable {frame : Frame}

/-- A list that is cut off and filled up has the filler where the list itself has nothing. -/
theorem getElem?_rightpad_take {α : Type} (list : List α) (filler : α) {n k : Nat}
    (inside : k < n) :
    ((list.take n).rightpad n filler)[k]? = some (list[k]?.getD filler) := by
  rw [List.rightpad]
  by_cases here : k < list.length
  · have kept : k < (list.take n).length := by
      rw [List.length_take]
      omega
    rw [List.getElem?_append_left kept, List.getElem?_take_of_lt inside,
      List.getElem?_eq_getElem here, Option.getD_some]
  · have behind : (list.take n).length ≤ k := by
      rw [List.length_take]
      omega
    rw [List.getElem?_append_right behind, List.getElem?_eq_none (Nat.le_of_not_lt here),
      Option.getD_none, List.getElem?_replicate_of_lt (by omega)]

/-- A line in a row of a box: blanks behind its end, and nothing of it from the right side on. -/
theorem getElem?_side (content : Row) (x : Nat) :
    (frame.side content)[x + 1]? =
      if x < frame.innerWidth then some (content[x]?.getD (Cell.blank frame.inside))
      else if x = frame.innerWidth then some (Cell.ofChar frame.border '│')
      else none := by
  have hfit : (content.fit frame.innerWidth frame.inside).length = frame.innerWidth :=
    Row.length_fit _ _ _
  unfold side
  rw [List.getElem?_cons_succ]
  rcases Nat.lt_trichotomy x frame.innerWidth with hlt | rfl | hgt
  · rw [if_pos hlt, List.getElem?_append_left (by rwa [hfit])]
    exact getElem?_rightpad_take content _ hlt
  · rw [if_neg (Nat.lt_irrefl _), if_pos rfl, List.getElem?_append_right (by rw [hfit]), hfit,
      Nat.sub_self, List.getElem?_cons_zero]
  · rw [if_neg (by omega), if_neg (by omega), List.getElem?_eq_none]
    rwa [List.length_append, hfit, List.length_singleton]

/-- The rows of a box have a line each, from the top, and empty lines where these end. -/
theorem getElem?_draw (lines : List Row) {k : Nat} (inside : k < frame.innerHeight) :
    (frame.draw lines)[k + 1]? = some (frame.side (lines[k]?.getD [])) := by
  have found := getElem?_rightpad_take lines [] inside
  unfold draw
  rw [List.getElem?_cons_succ, List.getElem?_append_left, List.getElem?_map, found, Option.map_some]
  obtain ⟨below, -⟩ := List.getElem?_eq_some_iff.1 found
  rwa [List.length_map]

theorem length_draw (tall : 2 ≤ frame.height) (lines : List Row) :
    (frame.draw lines).length = frame.height := by
  simp only [draw, List.length_cons, List.length_append, List.length_map, List.length_rightpad,
    List.length_take, List.length_nil, innerHeight]
  omega

end Frame

namespace Window

def cell? (rows : List Row) (x y : Nat) : Option Cell :=
  rows[y]?.bind (·[x]?)

def pending : Cell :=
  ⟨['_'], ⟨.white, .reset, false, true⟩⟩

variable {board : Board} {width height : Nat}

@[simp] theorem width_screenFrame : (screenFrame board width height).width = width := by
  unfold screenFrame
  split <;> rfl

@[simp] theorem height_screenFrame : (screenFrame board width height).height = height := by
  unfold screenFrame
  split <;> rfl

/-- Three rows are for the ports and three for the message, and all others for the terminal. -/
theorem length_boxes (high : 8 ≤ height) :
    (portsBox board width).length = 3 ∧
      (screenBox board width (height - 6)).length = height - 6 ∧
      (statusBox board width).length = 3 := by
  refine ⟨Frame.length_draw (Nat.le_succ 2) _, ?_, Frame.length_draw (Nat.le_succ 2) _⟩
  rw [screenBox, Frame.length_draw] <;> rw [height_screenFrame]
  omega

/-- The rows inside the middle box have the visible lines. -/
theorem getElem?_draw {k : Nat} (above : k < height - 8) :
    (draw board width height)[k + 4]? = some ((screenFrame board width (height - 6)).side
      ((visibleRows board (screenFrame board width (height - 6)))[k]?.getD [])) := by
  obtain ⟨hports, hscreen, -⟩ := @length_boxes board width height (by omega)
  have inside : k < (screenFrame board width (height - 6)).innerHeight := by
    rw [Frame.innerHeight, height_screenFrame]
    omega
  rw [draw, List.append_assoc, List.getElem?_append_right (by omega), hports,
    List.getElem?_append_left (by omega)]
  exact Frame.getElem?_draw _ inside

/-- Inside the middle box of a window stand the visible rows, and blanks around them. -/
theorem cell?_draw {x k : Nat} (inside : x < width - 2) (above : k < height - 8) :
    cell? (draw board width height) (x + 1) (k + 4) =
      some (((visibleRows board (screenFrame board width (height - 6)))[k]?.getD [])[x]?.getD
        (Cell.blank (screenFrame board width (height - 6)).inside)) := by
  rw [cell?, getElem?_draw above, Option.bind_some, Frame.getElem?_side, if_pos]
  rwa [Frame.innerWidth, width_screenFrame]

/-- Whatever the lines are, the box ends with its right side. -/
theorem cell?_draw_right {k : Nat} (wide : 2 ≤ width) (above : k < height - 8) :
    cell? (draw board width height) (width - 1) (k + 4) =
      some (Cell.ofChar (screenFrame board width (height - 6)).border '│') := by
  have last : width - 1 = (screenFrame board width (height - 6)).innerWidth + 1 := by
    rw [Frame.innerWidth, width_screenFrame]
    omega
  rw [cell?, getElem?_draw above, Option.bind_some, last, Frame.getElem?_side,
    if_neg (Nat.lt_irrefl _), if_pos rfl]

/-! ## A waiting program -/

theorem mark_concat (cell : Cell) (rows : List Row) (last : Row) :
    mark cell (rows ++ [last]) = rows ++ [last ++ [cell]] := by
  induction rows with
  | nil => rfl
  | cons row rest ih =>
      cases rest with
      | nil => rfl
      | cons next rest => exact congrArg (row :: ·) ih

def pendingCell (older : List (List Char)) (newest : List Char) (x k : Nat) : Cell :=
  if k = older.length ∧ x = newest.length then pending
  else Cell.ofChar (.coloured .white) ((((older ++ [newest])[k]?.getD [])[x]?).getD ' ')

theorem visibleRows_of_waiting (running : board.finished = false)
    (waits : board.isWaiting board.viewed = true) {frame : Frame} {older : List (List Char)}
    {newest : List Char}
    (shown : (board.screen board.viewed).lines.rtake frame.innerHeight = older ++ [newest]) :
    visibleRows board frame = older.map (Row.styled frame.inside) ++
      [Row.styled frame.inside newest ++
        [Cell.ofChar { frame.inside with blink := true } '_']] := by
  unfold List.rtake at shown
  simp only [visibleRows, running, waits, shown, Bool.not_false, Bool.and_self, if_true,
    List.map_append, List.map_singleton, mark_concat]

theorem getElem?_styled (style : Style) (cs : List Char) (x : Nat) :
    (Row.styled style cs)[x]?.getD (Cell.blank style) = Cell.ofChar style (cs[x]?.getD ' ') := by
  rw [Row.styled, List.getElem?_map]
  cases cs[x]? <;> rfl

theorem getElem?_styled_concat (style : Style) (cs : List Char) (cell : Cell) (x : Nat) :
    (Row.styled style cs ++ [cell])[x]?.getD (Cell.blank style) =
      if x = cs.length then cell else Cell.ofChar style (cs[x]?.getD ' ') := by
  have hlength : (Row.styled style cs).length = cs.length := List.length_map _
  rcases Nat.lt_trichotomy x cs.length with hlt | rfl | hgt
  · rw [if_neg (Nat.ne_of_lt hlt), List.getElem?_append_left (by rwa [hlength])]
    exact getElem?_styled style cs x
  · rw [if_pos rfl, ← hlength, List.getElem?_concat_length, Option.getD_some]
  · rw [if_neg (Nat.ne_of_gt hgt), List.getElem?_eq_none (Nat.le_of_lt hgt),
      List.getElem?_eq_none (by rwa [List.length_append, hlength])]
    rfl

/-- The whole middle box while the program waits at the viewed terminal. -/
theorem cell?_draw_of_waiting (running : board.finished = false)
    (waits : board.isWaiting board.viewed = true) {older : List (List Char)} {newest : List Char}
    (shown : (board.screen board.viewed).lines.rtake (height - 8) = older ++ [newest])
    {x k : Nat} (inside : x < width - 2) (above : k < height - 8) :
    cell? (draw board width height) (x + 1) (k + 4) = some (pendingCell older newest x k) := by
  have hframe : (screenFrame board width (height - 6)).inside = .coloured .white := by
    simp [screenFrame, running]
  have hrows : (screenFrame board width (height - 6)).innerHeight = height - 8 := by
    simp only [screenFrame, running, Frame.innerHeight]
    rfl
  rw [← hrows] at shown
  rw [cell?_draw inside above, visibleRows_of_waiting running waits shown, hframe, pendingCell]
  congr 1
  rcases Nat.lt_trichotomy k older.length with hlt | rfl | hgt
  · rw [if_neg (by omega), List.getElem?_append_left (by rwa [List.length_map]),
      List.getElem?_append_left hlt, List.getElem?_map, List.getElem?_eq_getElem hlt]
    exact getElem?_styled _ _ x
  · rw [List.getElem?_append_right (by rw [List.length_map]), List.length_map, Nat.sub_self,
      List.getElem?_concat_length]
    rw [List.getElem?_cons_zero, Option.getD_some, Option.getD_some, getElem?_styled_concat]
    simp only [true_and]
    rfl
  · have none {α : Type} (front : List α) (last : α) (hfront : front.length = older.length) :
        (front ++ [last])[k]? = none := by
      refine List.getElem?_eq_none ?_
      rw [List.length_append, hfront]
      exact hgt
    rw [if_neg (by omega), none older newest rfl, none _ _ (List.length_map _)]
    rfl

theorem exists_shown (events : List Board.Event) (rows : Nat) :
    ∃ older newest, ((Board.behind events).screen (Board.behind events).viewed).lines.rtake
      (rows + 1) = older ++ [newest] := by
  obtain ⟨older, newest, hlines, -⟩ :=
    Screen.exists_erased (Board.sentTo (Board.behind events).viewed events)
  refine ⟨older.rtake rows, newest, ?_⟩
  rw [← List.rtake_concat_succ, ← hlines, Screen.lines, Board.rows_behind]
  rfl

theorem pendingCell_eq_pending_iff {older : List (List Char)} {newest : List Char} {x k : Nat} :
    pendingCell older newest x k = pending ↔ k = older.length ∧ x = newest.length := by
  unfold pendingCell
  split
  · next here => exact iff_of_true rfl here
  · next elsewhere =>
      refine iff_of_false (fun same => ?_) elsewhere
      have blinks := congrArg (·.style.blink) same
      cases blinks

/--
While the program waits at the viewed terminal, the middle box of the window has the last lines of
this terminal, as many as it has rows, of which the newest is always one. The mark stands behind
the newest line and nowhere else in the box. It stands there if and only if the line is shorter than
the box is wide; a longer line leaves no column for it.
-/
theorem draw_waiting {events : List Board.Event} {width height : Nat}
    (running : (Board.behind events).finished = false)
    (waits : (Board.behind events).isWaiting (Board.behind events).viewed = true)
    (high : 11 ≤ height) :
    let board := Board.behind events
    let window := draw board width height
    ∃ older newest, (board.screen board.viewed).lines.rtake (height - 8) = older ++ [newest] ∧
      (∀ x k, x < width - 2 → k < height - 8 →
        cell? window (x + 1) (k + 4) = some (pendingCell older newest x k)) ∧
      (newest.length < width - 2 →
        cell? window (newest.length + 1) (older.length + 4) = some pending) ∧
      ((∃ x k, x < width - 2 ∧ k < height - 8 ∧
        cell? window (x + 1) (k + 4) = some pending) ↔ newest.length < width - 2) := by
  intro board window
  obtain ⟨older, newest, shown⟩ := exists_shown events (height - 9)
  rw [show height - 9 + 1 = height - 8 by omega] at shown
  have inside (x k : Nat) (hx : x < width - 2) (hk : k < height - 8) :=
    cell?_draw_of_waiting running waits shown hx hk
  have room : older.length < height - 8 := by
    have kept := congrArg List.length shown
    rw [List.rtake, List.length_drop, List.length_append, List.length_singleton] at kept
    omega
  have marked (free : newest.length < width - 2) :
      cell? window (newest.length + 1) (older.length + 4) = some pending := by
    rw [inside _ _ free room, pendingCell_eq_pending_iff.2 ⟨rfl, rfl⟩]
  refine ⟨older, newest, shown, inside, marked, ?_, fun free => ⟨_, _, free, room, marked free⟩⟩
  rintro ⟨x, k, hx, hk, found⟩
  rw [inside x k hx hk] at found
  obtain ⟨-, rfl⟩ := pendingCell_eq_pending_iff.1 (Option.some.inj found)
  exact hx

/-- The program asks the first port behind one character. -/
theorem draw_waiting_behind_prompt :
    let board := Board.behind [.get 0 .pending, .output 0 0x3e]
    board.finished = false ∧ board.isWaiting board.viewed = true ∧
      cell? (draw board 80 11) 2 4 = some pending := by
  intro board
  have running : board.finished = false := by decide
  have waits : board.isWaiting board.viewed = true := by decide
  have hlines : (board.screen board.viewed).lines = [['>']] := by decide
  obtain ⟨older, newest, shown, -, marked, -⟩ :=
    @draw_waiting _ 80 11 running waits (Nat.le_refl 11)
  have split : [] ++ [['>']] = older ++ [newest] := by
    rw [← shown, hlines]
    rfl
  obtain ⟨rfl, hnewest⟩ := List.append_inj' split rfl
  cases hnewest
  exact ⟨running, waits, marked (by decide)⟩

/-- Characters that fill a line of a window of 80 columns, and then a get. -/
def askBehindFullLine : List Board.Event :=
  .get 0 .pending :: List.replicate 78 (.output 0 0x61)

/-- A line that is as long as the box is wide leaves no column for the mark. -/
theorem no_mark_behind_full_line :
    let board := Board.behind askBehindFullLine
    board.finished = false ∧ board.isWaiting board.viewed = true ∧
      (board.screen board.viewed).lines = [List.replicate 78 'a'] ∧
      (∀ x k, x < 78 → k < 3 → cell? (draw board 80 11) (x + 1) (k + 4) ≠ some pending) ∧
      cell? (draw board 80 11) 79 4 = some (Cell.ofChar (.coloured .green) '│') := by
  intro board
  have running : board.finished = false := by decide
  have waits : board.isWaiting board.viewed = true := by decide
  have hlines : (board.screen board.viewed).lines = [List.replicate 78 'a'] := by
    decide +kernel
  have hside : cell? (draw board 80 11) 79 4 = some (Cell.ofChar (.coloured .green) '│') := by
    rw [cell?_draw_right (by decide) (by decide : 0 < 11 - 8), screenFrame, running]
    rfl
  have shown : (board.screen board.viewed).lines.rtake (11 - 8) =
      [] ++ [List.replicate 78 'a'] := by
    rw [hlines]
    rfl
  refine ⟨running, waits, hlines, fun x k inside above found => ?_, hside⟩
  rw [cell?_draw_of_waiting running waits shown inside above] at found
  obtain ⟨-, hlength⟩ := pendingCell_eq_pending_iff.1 (Option.some.inj found)
  rw [List.length_replicate] at hlength
  omega

end Window

end Redstone

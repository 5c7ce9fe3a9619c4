import Redstone.Proofs.Terminal.Scrollback
import Redstone.Proofs.Terminal.Typing

/-!
# What the terminals show

Whatever happens at the board, the lines of a terminal are what the bytes sent to it make of an
empty screen, one after the other, and its mark says whether some of them came in since it was last
viewed. The other terminals, and where the user looks, have no part in the lines.
-/

namespace Redstone

namespace Board

/-! ## One screen among eight -/

section

variable (board : Board) (i : Fin 8)

@[simp] theorem screen_setScreen_self (screen : Screen) :
    (board.setScreen i screen).screen i = screen := by
  simp [Board.screen, setScreen]

theorem screen_setScreen_of_ne (screen : Screen) {j : Fin 8} (hne : i ≠ j) :
    (board.setScreen i screen).screen j = board.screen j := by
  have hval : i.val ≠ j.val := fun h => hne (Fin.ext h)
  simp [Board.screen, setScreen, hval]

theorem screen_output_self (port value : UInt8) (here : terminal port.toNat = i) :
    (board.output port value).screen i =
      ⟨Screen.putByte (board.screen i).rows value,
        (board.screen i).unread || i != board.viewed⟩ := by
  subst here
  exact board.screen_setScreen_self _ _

theorem screen_output_of_ne (port value : UInt8) (elsewhere : terminal port.toNat ≠ i) :
    (board.output port value).screen i = board.screen i :=
  board.screen_setScreen_of_ne _ _ elsewhere

theorem screen_view_self : (board.view i).screen i = ⟨(board.screen i).rows, false⟩ :=
  board.screen_setScreen_self i _

theorem screen_view_of_ne {j : Fin 8} (hne : j ≠ i) :
    (board.view j).screen i = board.screen i :=
  board.screen_setScreen_of_ne j _ hne

@[simp] theorem rows_view (j : Fin 8) : ((board.view j).screen i).rows = (board.screen i).rows := by
  by_cases hj : j = i
  · rw [hj, screen_view_self]
  · rw [screen_view_of_ne board i hj]

theorem terminal_eq_iff {port : UInt8} {i : Fin 8} :
    terminal port.toNat = i ↔ port.toNat % 8 = i.val :=
  Fin.ext_iff

end

/-! ## What one event does -/

namespace Event

/-- The byte that an event sends to terminal `i`, if it sends one there. -/
def sent? (i : Fin 8) : Event → Option UInt8
  | output port value => if port.toNat % 8 = i.val then some value else none
  | _ => none

/-- An event sends a byte, looks at a terminal, or leaves all screens and the view alone. -/
theorem act_cases (board : Board) (event : Event) :
    (∃ port value, event = output port value) ∨
    (∃ j, event.act board = board.view j ∧ ∀ i, event.sent? i = none) ∨
    ((event.act board).screens = board.screens ∧ (event.act board).viewed = board.viewed ∧
      ∀ i, event.sent? i = none) := by
  cases event with
  | output port value => exact .inl ⟨port, value, rfl⟩
  | select index =>
      by_cases inside : index < 8
      · exact .inr (.inl ⟨⟨index, inside⟩, dif_pos inside, fun _ => rfl⟩)
      · have same : (select index).act board = board := dif_neg inside
        rw [same]
        exact .inr (.inr ⟨rfl, rfl, fun _ => rfl⟩)
  | next => exact .inr (.inl ⟨_, rfl, fun _ => rfl⟩)
  | previous => exact .inr (.inl ⟨_, rfl, fun _ => rfl⟩)
  | type c taken =>
      exact .inr (.inr ⟨board.screens_offer c, board.viewed_offer c, fun _ => rfl⟩)
  | get | wake | ring | finish | shut => exact .inr (.inr ⟨rfl, rfl, fun _ => rfl⟩)

/-- The lines of a terminal change by the byte that is sent to it, and by nothing else. -/
theorem rows_act (board : Board) (event : Event) (i : Fin 8) :
    ((event.act board).screen i).rows =
      (event.sent? i).toList.foldl Screen.putByte (board.screen i).rows := by
  rcases act_cases board event with ⟨port, value, rfl⟩ | ⟨j, look, silent⟩ | ⟨same, -, silent⟩
  · show ((board.output port value).screen i).rows = _
    by_cases here : terminal port.toNat = i
    · rw [board.screen_output_self i port value here, sent?, if_pos (terminal_eq_iff.1 here)]
      rfl
    · rw [board.screen_output_of_ne i port value here, sent?,
        if_neg (mt terminal_eq_iff.2 here)]
      rfl
  · rw [look, board.rows_view, silent]
    rfl
  · rw [Board.screen, same, silent]
    rfl

/-- If the viewed terminal has been read, what is unread then was sent now or was unread before. -/
theorem unread_act {board : Board} (read : (board.screen board.viewed).unread = false)
    (event : Event) (i : Fin 8) :
    ((event.act board).screen i).unread = true ↔
      (event.act board).viewed ≠ i ∧
        ((event.sent? i).isSome = true ∨ (board.screen i).unread = true) := by
  have before : (board.screen i).unread = true → board.viewed ≠ i := by
    rintro unread rfl
    rw [read] at unread
    cases unread
  rcases act_cases board event with ⟨port, value, rfl⟩ | ⟨j, look, silent⟩ | ⟨same, viewed, silent⟩
  · show ((board.output port value).screen i).unread = true ↔ board.viewed ≠ i ∧ _
    by_cases here : terminal port.toNat = i
    · rw [board.screen_output_self i port value here, sent?, if_pos (terminal_eq_iff.1 here)]
      simp only [Bool.or_eq_true, bne_iff_ne, Option.isSome_some, true_or, and_true]
      exact ⟨fun h => h.elim before Ne.symm, fun h => .inr h.symm⟩
    · rw [board.screen_output_of_ne i port value here, sent?,
        if_neg (mt terminal_eq_iff.2 here)]
      simpa using before
  · rw [look, silent]
    show _ ↔ j ≠ i ∧ _
    by_cases hj : j = i
    · rw [hj, screen_view_self]
      simp
    · rw [screen_view_of_ne board i hj]
      simp [hj]
  · rw [Board.screen, same, viewed, silent]
    simpa [Board.screen] using before

end Event

/-! ## Histories -/

/-- The bytes that were sent to terminal `i`, the oldest first. -/
def sentTo (i : Fin 8) (events : List Event) : List UInt8 :=
  events.reverse.filterMap (Event.sent? i)

/--
Something was sent to terminal `i` after the last moment at which it was viewed. The moments of a
history are what had happened until then.
-/
def Missed (i : Fin 8) (events : List Event) : Prop :=
  ∃ later port value past, events = later ++ .output port value :: past ∧
    port.toNat % 8 = i.val ∧
    ∀ moment, moment <:+ events → viewedAfter moment = i → moment <:+ past

theorem Event.isSome_sent?_iff {i : Fin 8} {event : Event} :
    (event.sent? i).isSome = true ↔
      ∃ port value, event = .output port value ∧ port.toNat % 8 = i.val := by
  cases event with
  | output port value => by_cases here : port.toNat % 8 = i.val <;> simp [sent?, here]
  | _ => simp [sent?]

theorem sentTo_cons (i : Fin 8) (event : Event) (past : List Event) :
    sentTo i (event :: past) = sentTo i past ++ (event.sent? i).toList := by
  rw [sentTo, List.reverse_cons, List.filterMap_append, sentTo]
  cases h : event.sent? i <;> simp [h]

theorem rows_behind (i : Fin 8) (events : List Event) :
    ((behind events).screen i).rows = ((sentTo i events).foldl Screen.put Screen.empty).rows := by
  induction events with
  | nil => simp [behind, Board.screen, initial, sentTo]
  | cons event past ih =>
      rw [behind, Event.rows_act, ih, sentTo_cons, List.foldl_append, Screen.rows_foldl_put,
        Screen.rows_foldl_put, Screen.rows_foldl_put]

theorem not_missed_viewed {i : Fin 8} {events : List Event} (viewed : viewedAfter events = i) :
    ¬ Missed i events := by
  rintro ⟨later, port, value, past, hevents, -, viewedBefore⟩
  have shorter := (viewedBefore events List.suffix_rfl viewed).length_le
  rw [hevents, List.length_append, List.length_cons] at shorter
  omega

/-- A terminal out of view has missed what is sent to it now or what it had missed before. -/
theorem missed_cons_iff {i : Fin 8} {event : Event} {past : List Event} :
    Missed i (event :: past) ↔
      viewedAfter (event :: past) ≠ i ∧ ((event.sent? i).isSome = true ∨ Missed i past) := by
  constructor
  · intro missed
    refine ⟨fun viewed => not_missed_viewed viewed missed, ?_⟩
    obtain ⟨later, port, value, earlier, hevents, here, viewedBefore⟩ := missed
    cases later with
    | nil =>
        injection hevents with hevent hpast
        exact .inl (Event.isSome_sent?_iff.2 ⟨port, value, hevent, here⟩)
    | cons newest later =>
        injection hevents with hevent hpast
        exact .inr ⟨later, port, value, earlier, hpast, here, fun moment suffix =>
          viewedBefore moment (suffix.trans (List.suffix_cons event past))⟩
  · rintro ⟨unviewed, sent⟩
    have before : ∀ moment, moment <:+ event :: past → viewedAfter moment = i → moment <:+ past := by
      intro moment suffix viewed
      rcases List.suffix_cons_iff.1 suffix with rfl | suffix
      · exact absurd viewed unviewed
      · exact suffix
    rcases sent with now | ⟨later, port, value, earlier, rfl, here, viewedBefore⟩
    · obtain ⟨port, value, rfl, here⟩ := Event.isSome_sent?_iff.1 now
      exact ⟨[], port, value, past, rfl, here, before⟩
    · exact ⟨event :: later, port, value, earlier, rfl, here, fun moment suffix viewed =>
        viewedBefore moment (before moment suffix viewed) viewed⟩

theorem unread_behind_iff (i : Fin 8) (events : List Event) :
    ((behind events).screen i).unread = true ↔ Missed i events := by
  induction events generalizing i with
  | nil =>
      have unread : ((behind []).screen i).unread = false := by
        simp [behind, Board.screen, initial, Screen.empty]
      simp [unread, Missed]
  | cons event past ih =>
      have read : ((behind past).screen (behind past).viewed).unread = false := by
        rw [← Bool.not_eq_true, ih]
        exact not_missed_viewed (viewed_behind past).symm
      rw [behind, Event.unread_act read, ih, missed_cons_iff, Event.viewed_act (viewed_behind past)]

/--
Behind every history there are eight terminals, of which the one is viewed that was selected or
reached last. The lines of a terminal are what the bytes sent to its ports make of an empty screen,
in their order. It is marked as unread if and only if some of them were sent after the last moment
at which it was viewed, so the mark is never on the viewed terminal.
-/
theorem behind_shows (events : List Event) :
    (behind events).viewed = viewedAfter events ∧ (behind events).viewed.val < 8 ∧
    (behind events).screens.toList.length = 8 ∧
    (∀ i, ((behind events).screen i).rows =
      ((sentTo i events).foldl Screen.put Screen.empty).rows) ∧
    (∀ i, ((behind events).screen i).unread = true ↔ Missed i events) ∧
    ((behind events).screen (behind events).viewed).unread = false := by
  refine ⟨viewed_behind events, (behind events).viewed.isLt, Vector.length_toList,
    fun i => rows_behind i events, fun i => unread_behind_iff i events, ?_⟩
  rw [← Bool.not_eq_true, unread_behind_iff]
  exact not_missed_viewed (viewed_behind events).symm

/-- The third terminal is viewed between two bytes that come in for it, at ports 2 and 10. -/
example : (behind [.output 10 0x62, .previous, .select 8, .select 2, .output 2 0x61]).screen 2 =
    ⟨[['b', 'a']], true⟩ := by
  decide

end Board

end Redstone

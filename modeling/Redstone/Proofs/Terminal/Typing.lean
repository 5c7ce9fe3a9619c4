import Mathlib.Logic.Function.Basic
import Redstone.Proofs.Ports.Delivery
import Redstone.Terminal.Board

/-!
# Where typed characters go

At the board the program asks and wakes up, sends output, rings and finishes, and the user changes
the view, types and closes ports, in any order. Seen from one terminal this is a history of its
handoff, to which a typed character belongs only while the terminal is viewed. So a character is
taken by the get that waits at the viewed terminal, which comes back with it, or nothing at all
happens.
-/

namespace Redstone

namespace Board

/-! ## One handoff among eight -/

theorem typedByte?_eq_some_iff {c : Char} {byte : UInt8} :
    typedByte? c = some byte ↔
      (0x20 ≤ c.toNat ∧ c.toNat ≤ 0x7e) ∧ byte = UInt8.ofNat c.toNat := by
  unfold typedByte?
  split
  · next printable => simp [printable, eq_comm]
  · next unprintable => simp [unprintable]

theorem typedByte?_eq_none_iff {c : Char} :
    typedByte? c = none ↔ ¬ (0x20 ≤ c.toNat ∧ c.toNat ≤ 0x7e) := by
  unfold typedByte?
  split
  · next printable => simp [printable]
  · next unprintable => simp only [unprintable, not_false_eq_true]

section

variable (board : Board) (i : Fin 8)

@[simp] theorem handoff_setHandoff_self (handoff : Handoff) :
    (board.setHandoff i handoff).handoff i = handoff := by
  simp [Board.handoff, setHandoff]

theorem handoff_setHandoff_of_ne (handoff : Handoff) {j : Fin 8} (hne : i ≠ j) :
    (board.setHandoff i handoff).handoff j = board.handoff j := by
  have hval : i.val ≠ j.val := fun h => hne (Fin.ext h)
  simp [Board.handoff, setHandoff, hval]

@[simp] theorem setHandoff_handoff : board.setHandoff i (board.handoff i) = board := by
  simp [Board.handoff, setHandoff]

@[simp] theorem handoff_select (index : Nat) :
    (board.select index).handoff i = board.handoff i := by
  unfold select
  split <;> rfl

@[simp] theorem screens_offer (c : Char) : (board.offer c).2.screens = board.screens := by
  unfold offer
  split <;> rfl

theorem handoff_offer_of_ne (c : Char) (hne : board.viewed ≠ i) :
    (board.offer c).2.handoff i = board.handoff i := by
  unfold offer
  split
  · rfl
  · exact board.handoff_setHandoff_of_ne _ _ hne

theorem offer_of_refused {c : Char} (refused : (board.offer c).1 = false) :
    (board.offer c).2 = board := by
  unfold offer at refused ⊢
  cases typed : typedByte? c with
  | none => rfl
  | some byte =>
      simp only [typed] at refused ⊢
      have same : ((board.handoff board.viewed).give byte).2 = board.handoff board.viewed := by
        unfold Handoff.give at refused ⊢
        split at refused
        · next full => rw [if_pos full]
        · cases refused
      rw [same, setHandoff_handoff]

@[simp] theorem viewed_offer (c : Char) : (board.offer c).2.viewed = board.viewed := by
  unfold offer
  split <;> rfl

theorem terminal_succ : terminal (i.val + 1) = i + 1 := rfl

theorem terminal_pred : terminal (i.val + 7) = i - 1 := by
  revert i
  decide

end

/-! ## Histories -/

/-- What happens at the board, with the answer that is given. -/
inductive Event where
  /-- The program starts a get at a port. -/
  | get (port : Nat) (reply : Handoff.Reply)
  /-- The get that waits at a terminal wakes up. -/
  | wake (i : Fin 8) (reply : Handoff.Reply)
  | output (port value : UInt8)
  | ring
  | finish (result : Except String StopReason)
  | select (index : Nat)
  | next
  | previous
  | type (c : Char) (taken : Bool)
  | shut (i : Fin 8)

/--
What can happen, the newest event first, with the board that it leads to and the terminals at which
the program is inside a get then. Only outside can it start one, and only inside can it wake up.
-/
inductive Happens : List Event → Board → (Fin 8 → Bool) → Prop where
  | start : Happens [] initial fun _ => false
  | get {past : List Event} {board : Board} {inside : Fin 8 → Bool} (port : Nat)
      (outside : inside (terminal port) = false) (before : Happens past board inside) :
      Happens (.get port (board.ask port).1 :: past) (board.ask port).2
        (Function.update inside (terminal port) ((board.ask port).1 = .pending))
  | wake {past : List Event} {board : Board} {inside : Fin 8 → Bool} (i : Fin 8)
      (waits : inside i = true) (before : Happens past board inside) :
      Happens (.wake i (board.wake i).1 :: past) (board.wake i).2
        (Function.update inside i ((board.wake i).1 = .pending))
  | output {past : List Event} {board : Board} {inside : Fin 8 → Bool} (port value : UInt8)
      (before : Happens past board inside) :
      Happens (.output port value :: past) (board.output port value) inside
  | ring {past : List Event} {board : Board} {inside : Fin 8 → Bool}
      (before : Happens past board inside) : Happens (.ring :: past) board.ring inside
  | finish {past : List Event} {board : Board} {inside : Fin 8 → Bool}
      (result : Except String StopReason) (before : Happens past board inside) :
      Happens (.finish result :: past) (board.finish result) inside
  | select {past : List Event} {board : Board} {inside : Fin 8 → Bool} (index : Nat)
      (before : Happens past board inside) :
      Happens (.select index :: past) (board.select index) inside
  | next {past : List Event} {board : Board} {inside : Fin 8 → Bool}
      (before : Happens past board inside) : Happens (.next :: past) board.next inside
  | previous {past : List Event} {board : Board} {inside : Fin 8 → Bool}
      (before : Happens past board inside) : Happens (.previous :: past) board.previous inside
  | type {past : List Event} {board : Board} {inside : Fin 8 → Bool} (c : Char)
      (before : Happens past board inside) :
      Happens (.type c (board.offer c).1 :: past) (board.offer c).2 inside
  | shut {past : List Event} {board : Board} {inside : Fin 8 → Bool} (i : Fin 8)
      (before : Happens past board inside) : Happens (.shut i :: past) (board.shut i) inside

def viewedAfter : List Event → Fin 8
  | [] => 0
  | .select index :: past => if h : index < 8 then ⟨index, h⟩ else viewedAfter past
  | .next :: past => viewedAfter past + 1
  | .previous :: past => viewedAfter past - 1
  | _ :: past => viewedAfter past

/-- The board after an event. The answer in an event is the board's own, so it does not count. -/
def Event.act (board : Board) : Event → Board
  | get port _ => (board.ask port).2
  | wake i _ => (board.wake i).2
  | output port value => board.output port value
  | ring => board.ring
  | finish result => board.finish result
  | select index => board.select index
  | next => board.next
  | previous => board.previous
  | type c _ => (board.offer c).2
  | shut i => board.shut i

/-- The board behind a history, which has its newest event first. -/
def behind : List Event → Board
  | [] => initial
  | event :: past => event.act (behind past)

/-- What is viewed after an event depends on the event and on what was viewed before. -/
theorem Event.viewed_act {board : Board} {past : List Event} (viewed : board.viewed = viewedAfter past)
    (event : Event) : (event.act board).viewed = viewedAfter (event :: past) := by
  cases event with
  | select index =>
      show (board.select index).viewed = if h : index < 8 then ⟨index, h⟩ else viewedAfter past
      unfold Board.select
      split
      · rfl
      · exact viewed
  | next =>
      show terminal (board.viewed.val + 1) = viewedAfter past + 1
      rw [terminal_succ, viewed]
  | previous =>
      show terminal (board.viewed.val + 7) = viewedAfter past - 1
      rw [terminal_pred, viewed]
  | type c taken =>
      show (board.offer c).2.viewed = viewedAfter past
      rw [viewed_offer, viewed]
  | get | wake | output | ring | finish | shut => exact viewed

theorem viewed_behind (events : List Event) : (behind events).viewed = viewedAfter events := by
  induction events with
  | nil => rfl
  | cons event past ih => exact Event.viewed_act ih event

/-- What an event is for the handoff of terminal `i` while another one may be viewed. -/
def Event.at? (i viewed : Fin 8) : Event → Option Handoff.Event
  | get port reply => if terminal port = i then some (.get reply) else none
  | wake j reply => if j = i then some (.wake reply) else none
  | type c taken => if viewed = i then (typedByte? c).map (.give · taken) else none
  | shut j => if j = i then some .close else none
  | output .. | ring | finish _ | select _ | next | previous => none

def happenedAt (i : Fin 8) : List Event → List Handoff.Event
  | [] => []
  | event :: past => (event.at? i (viewedAfter past)).toList ++ happenedAt i past

/-- A get has started at a terminal and has not come back, and no character was taken for it. -/
def Asks (past : List Event) (i : Fin 8) : Prop :=
  ∃ since, Handoff.Waits (happenedAt i past) since ∧ Handoff.accepted since = []

theorem Event.eq_wake_of_at? {i viewed : Fin 8} {event : Event} {reply : Handoff.Reply}
    (seen : event.at? i viewed = some (.wake reply)) : event = .wake i reply := by
  cases event with
  | wake j reply' =>
      by_cases hj : j = i
      · simp_all [at?]
      · simp [at?, hj] at seen
  | _ => simp [at?] at seen

theorem Event.viewed_eq_of_at? {i viewed : Fin 8} {event : Event} {value : UInt8} {taken : Bool}
    (seen : event.at? i viewed = some (.give value taken)) : viewed = i := by
  cases event with
  | type c taken' =>
      by_contra hviewed
      simp [at?, hviewed] at seen
  | _ => simp [at?] at seen

theorem close_mem_happenedAt_iff (i : Fin 8) (events : List Event) :
    .close ∈ happenedAt i events ↔ .shut i ∈ events := by
  induction events with
  | nil => simp [happenedAt]
  | cons event past ih =>
      rw [happenedAt, List.mem_append, ih, List.mem_cons]
      refine or_congr_left ?_
      cases event with
      | get port reply => simp [Event.at?]
      | wake j reply => simp [Event.at?]
      | type c taken => simp [Event.at?]
      | shut j => simp [Event.at?, eq_comm]
      | _ => simp [Event.at?]

/-- What happens at a handoff behind a history comes from what happens at the board. -/
theorem exists_happenedAt_append (i : Fin 8) (later past : List Event) :
    ∃ seen, happenedAt i (later ++ past) = seen ++ happenedAt i past ∧
      ∀ event ∈ seen, ∃ source ∈ later, ∃ before, before <:+ later ∧
        source.at? i (viewedAfter (before ++ past)) = some event := by
  induction later with
  | nil => exact ⟨[], rfl, nofun⟩
  | cons event later ih =>
      obtain ⟨seen, hseen, origin⟩ := ih
      refine ⟨(event.at? i (viewedAfter (later ++ past))).toList ++ seen, ?_, ?_⟩
      · rw [List.cons_append, happenedAt, hseen, List.append_assoc]
      · intro other member
        rcases List.mem_append.1 member with here | before
        · exact ⟨event, List.mem_cons_self, later, List.suffix_cons event later,
            by simpa using here⟩
        · obtain ⟨source, inside, before, suffix, hsource⟩ := origin other before
          exact ⟨source, List.mem_cons_of_mem event inside, before,
            suffix.trans (List.suffix_cons event later), hsource⟩

namespace Happens

variable {events past later : List Event} {board : Board} {inside : Fin 8 → Bool}

/-- What happens at the board leads to the board behind it. -/
theorem eq_behind (happens : Happens events board inside) : board = behind events := by
  induction happens with
  | start => rfl
  | get _ _ _ ih | wake _ _ _ ih | output _ _ _ ih | ring _ ih | finish _ _ ih | select _ _ ih
  | next _ ih | previous _ ih | type _ _ ih | shut _ _ ih =>
      rw [behind, ← ih]
      rfl

theorem viewed_eq (happens : Happens events board inside) : board.viewed = viewedAfter events := by
  rw [happens.eq_behind, viewed_behind]

/-- What happens at one handoff adds to its own history and to no other. -/
theorem happens_setHandoff {seen : List Handoff.Event} {event : Handoff.Event} {handoff : Handoff}
    {i j : Fin 8} {waited waits : Bool}
    (before : Handoff.Happens seen (board.handoff i) waited)
    (here : j = i → Handoff.Happens (event :: seen) handoff waits)
    (elsewhere : j ≠ i → waits = waited) :
    Handoff.Happens ((if j = i then some event else none).toList ++ seen)
      ((board.setHandoff j handoff).handoff i) waits := by
  by_cases hj : j = i
  · subst hj
    rw [if_pos rfl, handoff_setHandoff_self]
    exact here rfl
  · rw [if_neg hj, handoff_setHandoff_of_ne _ _ _ hj, elsewhere hj]
    exact before

/-- Seen from one terminal, what happens at the board is what happens at its handoff. -/
theorem happens_handoff (happens : Happens events board inside) (i : Fin 8) :
    Handoff.Happens (happenedAt i events) (board.handoff i) (inside i) := by
  induction happens with
  | start =>
      have hstart : initial.handoff i = Handoff.initial := by
        simp [Board.handoff, initial]
      rw [hstart]
      exact .start
  | output | ring | finish | next | previous => assumption
  | select index before ih =>
      rw [handoff_select]
      exact ih
  | get port outside before ih =>
      refine happens_setHandoff ih ?_ fun hne => Function.update_of_ne (Ne.symm hne) ..
      rintro rfl
      rw [outside] at ih
      rw [Function.update_self]
      exact ih.get
  | wake j waits before ih =>
      refine happens_setHandoff ih ?_ fun hne => Function.update_of_ne (Ne.symm hne) ..
      rintro rfl
      rw [waits] at ih
      rw [Function.update_self]
      exact ih.wake
  | @type past board inside c before ih =>
      rw [happenedAt, Event.at?, ← before.viewed_eq]
      unfold offer
      cases typedByte? c with
      | none =>
          rw [Option.map_none, ite_self]
          exact ih
      | some byte =>
          refine happens_setHandoff ih ?_ fun _ => rfl
          rintro rfl
          exact ih.give byte
  | shut j before ih =>
      refine happens_setHandoff ih ?_ fun _ => rfl
      rintro rfl
      exact ih.close

/-- What has happened at any time could happen until then. -/
theorem exists_of_append (happens : Happens (later ++ past) board inside) :
    ∃ board inside, Happens past board inside := by
  induction later generalizing board inside with
  | nil => exact ⟨board, inside, happens⟩
  | cons event later ih =>
      cases happens with
      | get _ _ before | wake _ _ before | output _ _ before | ring before | finish _ before
      | select _ before | next before | previous before | type _ before | shut _ before =>
          exact ih before

/-- A typed character was offered to the viewed terminal of the board before. -/
theorem exists_of_type {c : Char} {taken : Bool}
    (happens : Happens (.type c taken :: past) board inside) :
    ∃ before, Happens past before inside ∧ before.offer c = (taken, board) := by
  generalize hevents : Event.type c taken :: past = events at happens
  cases happens with
  | start | get | wake | output | ring | finish | select | next | previous | shut => cases hevents
  | @type _ before _ c' happens =>
      injection hevents with hevent hpast
      injection hevent with hc htaken
      subst hc hpast htaken
      exact ⟨before, happens, rfl⟩

/-- What happens behind a character that is refused would happen without it. -/
theorem of_refused {c : Char} (happens : Happens (later ++ .type c false :: past) board inside) :
    Happens (later ++ past) board inside := by
  induction later generalizing board inside with
  | nil =>
      obtain ⟨before, happens', offered⟩ := happens.exists_of_type
      have same := before.offer_of_refused (congrArg Prod.fst offered)
      rw [offered] at same
      cases same
      exact happens'
  | cons event later ih =>
      cases happens with
      | get port outside before => exact .get port outside (ih before)
      | wake i waits before => exact .wake i waits (ih before)
      | output port value before => exact .output port value (ih before)
      | ring before => exact .ring (ih before)
      | finish result before => exact .finish result (ih before)
      | select index before => exact .select index (ih before)
      | next before => exact .next (ih before)
      | previous before => exact .previous (ih before)
      | type c before => exact .type c (ih before)
      | shut i before => exact .shut i (ih before)

/-- A character is taken if it is printable and an open get waits for one at the viewed terminal. -/
theorem taken_iff {c : Char} {taken : Bool}
    (happens : Happens (.type c taken :: past) board inside) :
    taken = true ↔ (0x20 ≤ c.toNat ∧ c.toNat ≤ 0x7e) ∧ Asks past (viewedAfter past) ∧
      .shut (viewedAfter past) ∉ past := by
  obtain ⟨before, happens', offered⟩ := happens.exists_of_type
  have viewed := happens'.viewed_eq
  unfold offer at offered
  cases typed : typedByte? c with
  | none =>
      rw [typed] at offered
      cases offered
      simp [typedByte?_eq_none_iff.1 typed]
  | some byte =>
      simp only [typed, viewed] at offered
      have answer : ((before.handoff (viewedAfter past)).give byte).1 = true ↔
          Asks past (viewedAfter past) ∧ .close ∉ happenedAt (viewedAfter past) past :=
        ((happens'.happens_handoff (viewedAfter past)).give byte).answers
      rw [close_mem_happenedAt_iff] at answer
      cases offered
      rw [answer, and_iff_right (typedByte?_eq_some_iff.1 typed).1]

/-- The get that a character was taken for waits until it wakes up with it. -/
theorem wake_of_taken {c : Char} (happens : Happens (later ++ .type c true :: past) board inside)
    (asleep : ∀ reply, .wake (viewedAfter past) reply ∉ later) :
    inside (viewedAfter past) = true ∧
      (board.wake (viewedAfter past)).1 = .received (some (UInt8.ofNat c.toNat)) := by
  obtain ⟨_, _, happens'⟩ := happens.exists_of_append
  have typed : typedByte? c = some (UInt8.ofNat c.toNat) :=
    typedByte?_eq_some_iff.2 ⟨(happens'.taken_iff.1 rfl).1, rfl⟩
  have projected := happens.happens_handoff (viewedAfter past)
  obtain ⟨later', hlater, origin⟩ := exists_happenedAt_append (viewedAfter past) later
    (.type c true :: past)
  rw [hlater, happenedAt, Event.at?, if_pos rfl, typed] at projected
  have asleep' : ∀ reply, .wake reply ∉ later' := by
    intro reply member
    obtain ⟨source, inside, _, _, hsource⟩ := origin _ member
    rw [Event.eq_wake_of_at? hsource] at inside
    exact asleep reply inside
  obtain ⟨waits, held⟩ := Handoff.Happens.value_eq_of_taken projected asleep'
  refine ⟨waits, ?_⟩
  simp [Board.wake, Handoff.wake, held]

/-- A get that waits where nobody looks comes back only if the terminal is closed. -/
theorem shut_mem_of_not_viewed {i : Fin 8} {result : Option UInt8}
    (happens : Happens (.wake i (.received result) :: (later ++ past)) board inside)
    (asks : Asks past i)
    (unviewed : ∀ before, before <:+ later → viewedAfter (before ++ past) ≠ i) :
    result = none ∧ .shut i ∈ later ++ past := by
  have projected := happens.happens_handoff i
  rw [happenedAt, Event.at?, if_pos rfl] at projected
  have answer : Handoff.Answers (happenedAt i (later ++ past)) (.wake (.received result)) :=
    Handoff.Happens.answers projected
  obtain ⟨since, waits, served, closed⟩ := answer
  obtain ⟨seen, hseen, origin⟩ := exists_happenedAt_append i later past
  rw [hseen] at waits
  have nothing : ∀ value, .give value true ∉ seen := by
    intro value member
    obtain ⟨source, _, before, suffix, hsource⟩ := origin _ member
    exact unviewed before suffix (Event.viewed_eq_of_at? hsource)
  obtain ⟨first, waits', unserved⟩ := asks
  have unserved' := waits.accepted_eq_nil
    (fun other waits'' => by rw [waits''.unique waits', unserved]) nothing
  rw [unserved'] at served
  cases result with
  | some value => cases served
  | none => exact ⟨rfl, (close_mem_happenedAt_iff i _).1 (closed rfl)⟩

end Happens

/--
A typed character is taken if it is printable and the get that waits at the viewed terminal is open
and has none yet. That get then waits until it wakes up with this character, and at each terminal
gets come back with what was typed while it was viewed, in that order. A character that is refused
might as well not have been typed, and none changes what is shown. A get whose terminal is not
viewed comes back only when the terminal is closed.
-/
theorem typing_reaches_viewed {events : List Event} {board : Board} {inside : Fin 8 → Bool}
    (happens : Happens events board inside) :
    board.viewed = viewedAfter events ∧
    (∀ later c taken past, events = later ++ .type c taken :: past →
      (taken = true ↔ (0x20 ≤ c.toNat ∧ c.toNat ≤ 0x7e) ∧ Asks past (viewedAfter past) ∧
        .shut (viewedAfter past) ∉ past)) ∧
    (∀ later c past, events = later ++ .type c true :: past →
      (∀ reply, .wake (viewedAfter past) reply ∉ later) →
      inside (viewedAfter past) = true ∧
        (board.wake (viewedAfter past)).1 = .received (some (UInt8.ofNat c.toNat))) ∧
    (∀ i, ∃ rest, Handoff.accepted (happenedAt i events) =
        rest ++ Handoff.received (happenedAt i events) ∧
      rest.length ≤ 1 ∧ (rest ≠ [] → inside i = true)) ∧
    (∀ later c past, events = later ++ .type c false :: past →
      Happens (later ++ past) board inside) ∧
    (∀ c, (board.offer c).2.screens = board.screens ∧ (board.offer c).2.viewed = board.viewed ∧
      (∀ i, board.viewed ≠ i → (board.offer c).2.handoff i = board.handoff i) ∧
      ((board.offer c).1 = false → (board.offer c).2 = board)) ∧
    ∀ later i result between past,
      events = later ++ .wake i (.received result) :: (between ++ past) → Asks past i →
      (∀ before, before <:+ between → viewedAfter (before ++ past) ≠ i) →
      result = none ∧ .shut i ∈ between ++ past := by
  refine ⟨happens.viewed_eq, ?_, ?_, ?_, ?_, ?_, ?_⟩
  · rintro later c taken past rfl
    obtain ⟨_, _, before⟩ := happens.exists_of_append
    exact before.taken_iff
  · rintro later c past rfl asleep
    exact happens.wake_of_taken asleep
  · exact fun i => (happens.happens_handoff i).mirrors.exists_accepted_eq
  · rintro later c past rfl
    exact happens.of_refused
  · exact fun c => ⟨board.screens_offer c, board.viewed_offer c,
      fun i hne => board.handoff_offer_of_ne i c hne, board.offer_of_refused⟩
  · rintro later i result between past rfl asks unviewed
    obtain ⟨_, _, before⟩ := happens.exists_of_append
    exact before.shut_mem_of_not_viewed asks unviewed

/-- The program asks the third port; of three characters the one that is typed there arrives. -/
theorem typing_reaches_viewed_third :
    ∃ board inside,
      Happens [.type 'y' false, .next, .type 'x' true, .select 2, .type 'a' false,
        .get 10 .pending] board inside ∧
      board.viewed = 3 ∧ inside 2 = true ∧ (board.wake 2).1 = .received (some 0x78) := by
  have happens : Happens [.type 'y' false, .next, .type 'x' true, .select 2, .type 'a' false,
      .get 10 .pending] _ _ :=
    .type 'y' (.next (.type 'x' (.select 2 (.type 'a' (.get 10 rfl .start)))))
  obtain ⟨viewed, -, served, -⟩ := typing_reaches_viewed happens
  obtain ⟨waits, answer⟩ := served [.type 'y' false, .next] 'x'
    [.select 2, .type 'a' false, .get 10 .pending] rfl (by simp)
  exact ⟨_, _, happens, viewed, waits, answer⟩

end Board

end Redstone

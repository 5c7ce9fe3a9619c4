import Redstone.Ports.Handoff

/-!
# Every byte is delivered once

One consumer, any number of producers and anybody who closes a handoff may act in any order, and
the waiting consumer may wake up for nothing as often as it likes. What each of them is answered
can be told from what has happened before: the handoff holds nothing that the history does not
say. So a byte that is taken is what the waiting get comes back with, and no other byte is.
-/

namespace Redstone

namespace Handoff

/-- What happens at a handoff, with the answer that is given. -/
inductive Event where
  /-- A get starts. -/
  | get (reply : Reply)
  /-- The get that waits wakes up. -/
  | wake (reply : Reply)
  /-- A producer offers a byte. -/
  | give (value : UInt8) (taken : Bool)
  | close
  deriving DecidableEq, Repr

/-- The bytes that were taken, the newest first. -/
def accepted (events : List Event) : List UInt8 :=
  events.filterMap fun
    | .give value true => some value
    | _ => none

def received (events : List Event) : List UInt8 :=
  events.filterMap fun
    | .get (.received value) | .wake (.received value) => value
    | _ => none

/--
What can happen, the newest event first, with the handoff that it leads to and whether the consumer
is inside a get then. Only outside can it start one, and only inside can it wake up.
-/
inductive Happens : List Event → Handoff → Bool → Prop where
  | start : Happens [] initial false
  | get {past : List Event} {handoff : Handoff} (before : Happens past handoff false) :
      Happens (.get handoff.ask.1 :: past) handoff.ask.2 (handoff.ask.1 = .pending)
  | wake {past : List Event} {handoff : Handoff} (before : Happens past handoff true) :
      Happens (.wake handoff.wake.1 :: past) handoff.wake.2 (handoff.wake.1 = .pending)
  | give {past : List Event} {handoff : Handoff} {inside : Bool} (value : UInt8)
      (before : Happens past handoff inside) :
      Happens (.give value (handoff.give value).1 :: past) (handoff.give value).2 inside
  | close {past : List Event} {handoff : Handoff} {inside : Bool}
      (before : Happens past handoff inside) : Happens (.close :: past) handoff.close inside

/-- A get has started and has not come back, and these events have happened since. -/
inductive Waits : List Event → List Event → Prop where
  | start (past : List Event) : Waits (.get .pending :: past) []
  | wake {past since : List Event} (waits : Waits past since) :
      Waits (.wake .pending :: past) (.wake .pending :: since)
  | give {past since : List Event} (value : UInt8) (taken : Bool) (waits : Waits past since) :
      Waits (.give value taken :: past) (.give value taken :: since)
  | close {past since : List Event} (waits : Waits past since) :
      Waits (.close :: past) (.close :: since)

theorem Waits.unique {past since other : List Event} (waits : Waits past since)
    (waits' : Waits past other) : since = other := by
  induction waits generalizing other with
  | start past =>
      cases waits'
      rfl
  | wake _ ih =>
      cases waits' with
      | wake rest => rw [ih rest]
  | give _ _ _ ih =>
      cases waits' with
      | give _ _ rest => rw [ih rest]
  | close _ ih =>
      cases waits' with
      | close rest => rw [ih rest]

/-- A get that has taken nothing goes on so while nothing is taken. -/
theorem Waits.accepted_eq_nil {later past since : List Event} (waits : Waits (later ++ past) since)
    (unserved : ∀ since, Waits past since → accepted since = [])
    (nothing : ∀ value, .give value true ∉ later) : accepted since = [] := by
  induction later generalizing since with
  | nil => exact unserved since waits
  | cons event later ih =>
      have nothing' (value : UInt8) : .give value true ∉ later := fun member =>
        nothing value (List.mem_cons_of_mem event member)
      cases waits with
      | start => rfl
      | wake rest | close rest =>
          have unserved' := ih rest nothing'
          exact unserved'
      | give value taken rest =>
          have unserved' := ih rest nothing'
          cases taken with
          | true => exact absurd List.mem_cons_self (nothing value)
          | false => exact unserved'

/-- Between gets nothing is held; during a get at most what was taken for it. -/
inductive Stage (past : List Event) : Bool → Option UInt8 → Bool → Prop where
  | idle (nobody : ∀ since, ¬ Waits past since) (settled : accepted past = received past) :
      Stage past false none false
  | waiting {since : List Event} {value : Option UInt8} (waits : Waits past since)
      (served : accepted since = value.toList)
      (ahead : accepted past = value.toList ++ received past) : Stage past true value true

/-- A handoff holds what the history says, and nothing else. -/
structure Mirrors (past : List Event) (handoff : Handoff) (inside : Bool) : Prop where
  closed_iff : handoff.closed = true ↔ .close ∈ past
  stage : Stage past handoff.waiting handoff.value inside

namespace Mirrors

variable {past : List Event} {handoff : Handoff} {inside : Bool}

theorem get (mirrors : Mirrors past handoff false) :
    Mirrors (.get handoff.ask.1 :: past) handoff.ask.2 (handoff.ask.1 = .pending) := by
  obtain ⟨waiting, value, closed⟩ := handoff
  obtain ⟨closed_iff, stage⟩ := mirrors
  cases stage with
  | idle nobody settled =>
      cases closed with
      | true => exact ⟨by simpa [ask] using closed_iff, .idle nofun settled⟩
      | false => exact ⟨by simpa [ask] using closed_iff, .waiting (.start past) rfl settled⟩

/-- A get that was served comes back, also behind a close; one that was not waits for the close. -/
theorem wake (mirrors : Mirrors past handoff true) :
    Mirrors (.wake handoff.wake.1 :: past) handoff.wake.2 (handoff.wake.1 = .pending) := by
  obtain ⟨waiting, value, closed⟩ := handoff
  obtain ⟨closed_iff, stage⟩ := mirrors
  cases stage with
  | waiting waits served ahead =>
      cases value with
      | some value =>
          exact ⟨by simpa [Handoff.wake] using closed_iff, .idle nofun ahead⟩
      | none =>
          cases closed with
          | true => exact ⟨by simpa [Handoff.wake] using closed_iff, .idle nofun ahead⟩
          | false =>
              exact ⟨by simpa [Handoff.wake] using closed_iff, .waiting waits.wake served ahead⟩

/-- A byte that is taken is the first since the get has started. -/
theorem give (mirrors : Mirrors past handoff inside) (value : UInt8) :
    Mirrors (.give value (handoff.give value).1 :: past) (handoff.give value).2 inside := by
  obtain ⟨waiting, held, closed⟩ := handoff
  obtain ⟨closed_iff, stage⟩ := mirrors
  cases stage with
  | idle nobody settled =>
      refine ⟨by simpa [Handoff.give] using closed_iff, .idle (fun since waits => ?_) settled⟩
      cases waits with
      | give _ _ rest => exact nobody _ rest
  | waiting waits served ahead =>
      cases closed with
      | true =>
          exact ⟨by simpa [Handoff.give] using closed_iff,
            .waiting (waits.give value false) served ahead⟩
      | false =>
          cases held with
          | some other =>
              exact ⟨by simpa [Handoff.give] using closed_iff,
                .waiting (waits.give value false) served ahead⟩
          | none =>
              exact ⟨by simpa [Handoff.give] using closed_iff,
                .waiting (waits.give value true) (congrArg (value :: ·) served)
                  (congrArg (value :: ·) ahead)⟩

theorem close (mirrors : Mirrors past handoff inside) :
    Mirrors (.close :: past) handoff.close inside := by
  obtain ⟨waiting, value, closed⟩ := handoff
  obtain ⟨closed_iff, stage⟩ := mirrors
  refine ⟨by simp [Handoff.close], ?_⟩
  cases stage with
  | idle nobody settled =>
      refine .idle (fun since waits => ?_) settled
      cases waits with
      | close rest => exact nobody _ rest
  | waiting waits served ahead => exact .waiting waits.close served ahead

/-- All that was taken has been received, but for one byte during a get. -/
theorem exists_accepted_eq (mirrors : Mirrors past handoff inside) :
    ∃ rest, accepted past = rest ++ received past ∧ rest.length ≤ 1 ∧
      (rest ≠ [] → inside = true) := by
  obtain ⟨waiting, value, closed⟩ := handoff
  obtain ⟨closed_iff, stage⟩ := mirrors
  cases stage with
  | idle nobody settled => exact ⟨[], settled, Nat.zero_le 1, fun some => absurd rfl some⟩
  | waiting waits served ahead =>
      refine ⟨value.toList, ahead, ?_, fun _ => rfl⟩
      cases value <;> simp

end Mirrors

theorem Happens.mirrors {past : List Event} {handoff : Handoff} {inside : Bool}
    (happens : Happens past handoff inside) : Mirrors past handoff inside := by
  induction happens with
  | start => exact ⟨by simp [initial], .idle nofun rfl⟩
  | get _ ih => exact ih.get
  | wake _ ih => exact ih.wake
  | give value _ ih => exact ih.give value
  | close _ ih => exact ih.close

/--
The answer that an event gets after what has happened before. A byte is taken if a get waits that
has taken none, and nobody has closed the handoff. A get that starts comes back at once, with
nothing, if the handoff is closed. The get that waits comes back with the byte that was taken for
it, or with nothing if there is none and the handoff is closed; otherwise it goes on waiting.
-/
def Answers (past : List Event) : Event → Prop
  | .give _ taken =>
      taken = true ↔ (∃ since, Waits past since ∧ accepted since = []) ∧ .close ∉ past
  | .get reply =>
      (∀ since, ¬ Waits past since) ∧
        reply = if .close ∈ past then .received none else .pending
  | .wake .pending => ∃ since, Waits past since ∧ accepted since = [] ∧ .close ∉ past
  | .wake (.received result) =>
      ∃ since, Waits past since ∧ accepted since = result.toList ∧
        (result = none → .close ∈ past)
  | .close => True

namespace Mirrors

variable {past : List Event} {handoff : Handoff} {inside : Bool}

theorem answers_get (mirrors : Mirrors past handoff false) :
    Answers past (.get handoff.ask.1) := by
  obtain ⟨waiting, value, closed⟩ := handoff
  obtain ⟨closed_iff, stage⟩ := mirrors
  cases stage with
  | idle nobody settled =>
      refine ⟨nobody, ?_⟩
      by_cases shut : .close ∈ past
      · rw [if_pos shut, ask, if_pos (closed_iff.2 shut)]
      · rw [if_neg shut, ask, if_neg (mt closed_iff.1 shut)]

theorem answers_wake (mirrors : Mirrors past handoff true) :
    Answers past (.wake handoff.wake.1) := by
  obtain ⟨waiting, value, closed⟩ := handoff
  obtain ⟨closed_iff, stage⟩ := mirrors
  cases stage with
  | @waiting since _ waits served ahead =>
      cases value with
      | some value => exact ⟨since, waits, served, nofun⟩
      | none =>
          cases closed with
          | true => exact ⟨since, waits, served, fun _ => closed_iff.1 rfl⟩
          | false => exact ⟨since, waits, served, mt closed_iff.2 Bool.false_ne_true⟩

theorem answers_give (mirrors : Mirrors past handoff inside) (value : UInt8) :
    Answers past (.give value (handoff.give value).1) := by
  have taken_iff := handoff.give_taken_iff value
  rw [Answers, taken_iff, ← mirrors.closed_iff, Bool.not_eq_true]
  refine and_congr_left' ?_
  obtain ⟨waiting, held, closed⟩ := handoff
  obtain ⟨closed_iff, stage⟩ := mirrors
  cases stage with
  | idle nobody settled => exact ⟨nofun, fun ⟨since, waits, _⟩ => absurd waits (nobody since)⟩
  | @waiting since _ waits served ahead =>
      cases held with
      | none => exact ⟨fun _ => ⟨since, waits, served⟩, fun _ => rfl⟩
      | some other =>
          refine ⟨nofun, fun ⟨since', waits', unserved⟩ => ?_⟩
          rw [waits.unique waits', unserved] at served
          cases served

end Mirrors

namespace Happens

variable {events past : List Event} {handoff : Handoff} {inside : Bool}

theorem answers {event : Event} (happens : Happens (event :: past) handoff inside) :
    Answers past event := by
  cases happens with
  | get before => exact before.mirrors.answers_get
  | wake before => exact before.mirrors.answers_wake
  | give value before => exact before.mirrors.answers_give value
  | close before => trivial

/-- What has happened at any time could happen until then. -/
theorem exists_of_append {later : List Event} (happens : Happens (later ++ past) handoff inside) :
    ∃ handoff inside, Happens past handoff inside := by
  induction later generalizing handoff inside with
  | nil => exact ⟨handoff, inside, happens⟩
  | cons event later ih =>
      cases happens with
      | get before | wake before | give _ before | close before => exact ih before

/-- A byte that was taken is held until the get wakes up. -/
theorem value_eq_of_taken {later : List Event} {value : UInt8}
    (happens : Happens (later ++ .give value true :: past) handoff inside)
    (asleep : ∀ reply, .wake reply ∉ later) : inside = true ∧ handoff.value = some value := by
  induction later generalizing handoff inside with
  | nil =>
      generalize hevents : [] ++ Event.give value true :: past = events at happens
      cases happens with
      | start | get | wake | close => cases hevents
      | @give _ handoff _ value' before =>
          injection hevents with hevent _
          injection hevent with hvalue taken
          subst hvalue
          obtain ⟨unserved, hopen⟩ := (handoff.give_taken_iff value).1 taken.symm
          have stage := before.mirrors.stage
          obtain ⟨waiting, held, closed⟩ := handoff
          obtain rfl : closed = false := hopen
          cases stage with
          | idle => cases unserved
          | waiting =>
              cases held with
              | some other => cases unserved
              | none => exact ⟨rfl, rfl⟩
  | cons event later ih =>
      have asleep' (reply : Reply) : .wake reply ∉ later := fun member =>
        asleep reply (List.mem_cons_of_mem event member)
      cases happens with
      | get before => cases (ih before asleep').1
      | wake => exact absurd List.mem_cons_self (asleep _)
      | @give _ handoff _ other before =>
          obtain ⟨hinside, held⟩ := ih before asleep'
          refine ⟨hinside, ?_⟩
          simp [Handoff.give, held]
      | close before =>
          have held := ih before asleep'
          exact held

theorem exists_received (happens : Happens events handoff true) (closed : .close ∈ events) :
    ∃ result after, Happens (.wake (.received result) :: events) after false := by
  have goes := happens.wake
  have answer := goes.answers
  cases reply : handoff.wake.1 with
  | pending =>
      rw [reply] at answer
      obtain ⟨_, _, _, open_⟩ := answer
      exact absurd closed open_
  | received result =>
      refine ⟨result, handoff.wake.2, ?_⟩
      simpa [reply] using goes

end Happens

/--
However the calls interleave, each gets the answer that belongs to what has happened before; the
bytes that gets came back with are the bytes that were taken, in the same order, but for one that
was taken for the get that still waits; outside of gets nobody waits and nothing is held; and a
get that waits when the handoff is closed comes back as soon as it wakes up.
-/
theorem delivers_exactly_once {events : List Event} {handoff : Handoff} {inside : Bool}
    (happens : Happens events handoff inside) :
    (∀ later event past, events = later ++ event :: past → Answers past event) ∧
    (∃ rest, accepted events = rest ++ received events ∧ rest.length ≤ 1 ∧
      (rest ≠ [] → ∃ since, Waits events since ∧ accepted since = rest)) ∧
    (inside = false →
      handoff.waiting = false ∧ handoff.value = none ∧ ∀ since, ¬ Waits events since) ∧
    (inside = true → .close ∈ events →
      ∃ result after, Happens (.wake (.received result) :: events) after false) := by
  obtain ⟨closed_iff, stage⟩ := happens.mirrors
  refine ⟨?_, ?_, ?_, ?_⟩
  · rintro later event past rfl
    obtain ⟨_, _, before⟩ := happens.exists_of_append
    exact before.answers
  · obtain ⟨waiting, value, closed⟩ := handoff
    cases stage with
    | idle nobody settled => exact ⟨[], settled, Nat.zero_le 1, fun some => absurd rfl some⟩
    | @waiting since _ waits served ahead =>
        refine ⟨value.toList, ahead, ?_, fun _ => ⟨since, waits, served⟩⟩
        cases value <;> simp
  · rintro rfl
    obtain ⟨waiting, value, closed⟩ := handoff
    cases stage with
    | idle nobody settled => exact ⟨rfl, rfl, nobody⟩
  · rintro rfl closed
    exact happens.exists_received closed

/-- A get is served, woken for nothing before and closed behind; what nobody waits for is refused. -/
theorem delivers_exactly_once_behind_close :
    ∃ handoff, Happens
        [.get (.received none), .give 5 false, .wake (.received (some 7)), .close, .give 8 false,
          .give 7 true, .wake .pending, .get .pending, .give 9 false] handoff false ∧
      handoff.value = none ∧
      ∃ since, Waits
        [.close, .give 8 false, .give 7 true, .wake .pending, .get .pending, .give 9 false] since ∧
        accepted since = [7] := by
  have happens : Happens
      [.get (.received none), .give 5 false, .wake (.received (some 7)), .close, .give 8 false,
        .give 7 true, .wake .pending, .get .pending, .give 9 false] ⟨false, none, true⟩ false :=
    .get (.give 5 (.wake (.close (.give 8 (.give 7 (.wake (.get (.give 9 .start))))))))
  obtain ⟨answers, -, nothing, -⟩ := delivers_exactly_once happens
  obtain ⟨since, waits, taken, -⟩ :=
    answers [.get (.received none), .give 5 false] (.wake (.received (some 7))) _ rfl
  exact ⟨_, happens, (nothing rfl).2.1, since, waits, taken⟩

end Handoff

end Redstone

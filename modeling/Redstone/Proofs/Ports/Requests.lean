import Redstone.Proofs.Ports.Console

/-!
# Requests and the lines of the input

A request at the console reads the input up to the line that settles it, a whole line each time.
Bytes that are no text settle it with an error, and so does the end of the input. What a request
leaves are bytes again that fall into lines, so that one request after the other is answered by
the lines that decide something, in their order, whatever lies between them.
-/

namespace Redstone

namespace Text

theorem ofBytes?_eq_some_iff {bytes : List UInt8} {text : String} :
    ofBytes? bytes = some text ↔ toBytes text = bytes := by
  constructor
  · exact toBytes_of_ofBytes?
  · rintro rfl
    exact ofBytes?_toBytes text

theorem ofBytes?_eq_none_iff {bytes : List UInt8} :
    ofBytes? bytes = none ↔ ∀ text, toBytes text ≠ bytes := by
  rw [Option.eq_none_iff_forall_ne_some]
  exact forall_congr' fun text => not_congr ofBytes?_eq_some_iff

end Text

namespace Console

/-! ## Single lines -/

/-- What a line decides: bytes that are no text cannot be read, and a text may say a byte. -/
inductive Decides (line : List UInt8) : Except PortError UInt8 → Prop where
  | unreadable (untold : ∀ text, Text.toBytes text ≠ line) : Decides line (.error .invalidText)
  | byte {text : String} {value : UInt8} (written : Text.toBytes text = line)
      (reading : Says text value) : Decides line (.ok value)

def decision? (line : List UInt8) : Option (Except PortError UInt8) :=
  match Text.ofBytes? line with
  | none => some (.error .invalidText)
  | some text => (lineByte? text).map .ok

theorem decision?_eq_some_iff {line : List UInt8} {answer : Except PortError UInt8} :
    decision? line = some answer ↔ Decides line answer := by
  unfold decision?
  cases hline : Text.ofBytes? line with
  | none =>
      have untold := Text.ofBytes?_eq_none_iff.1 hline
      constructor
      · rintro ⟨⟩
        exact .unreadable untold
      · intro decides
        cases decides with
        | unreadable => rfl
        | byte written => exact absurd written (untold _)
  | some text =>
      have written := Text.ofBytes?_eq_some_iff.1 hline
      constructor
      · intro decided
        obtain ⟨value, hvalue, rfl⟩ := Option.map_eq_some_iff.1 decided
        exact .byte written (lineByte?_eq_some_iff.1 hvalue)
      · intro decides
        cases decides with
        | unreadable untold => exact absurd written (untold text)
        | byte written' reading =>
            obtain rfl := Option.some.inj (hline.symm.trans (Text.ofBytes?_eq_some_iff.2 written'))
            show (lineByte? text).map Except.ok = _
            rw [lineByte?_eq_some_iff.2 reading, Option.map_some]

theorem ask_cons (port : UInt8) (written : String) (line : List UInt8)
    (lines : List (List UInt8)) :
    ask port written (line :: lines) = match decision? line with
      | some answer => (answer, ⟨lines, written ++ prompt port, false⟩)
      | none => ask port (written ++ prompt port ++ rejection) lines := by
  rw [ask, decision?]
  cases Text.ofBytes? line with
  | none => rfl
  | some text => cases h : lineByte? text <;> simp [h]

/-! ## One request -/

/-- What settles a request: a line that decides, or that no lines are left. -/
inductive Settles (port : UInt8) :
    Option (List UInt8) → List (List UInt8) → Except PortError UInt8 → Prop where
  | line {line : List UInt8} {rest : List (List UInt8)} {answer : Except PortError UInt8}
      (decides : Decides line answer) : Settles port (some line) rest answer
  | ended : Settles port none [] (.error (.inputClosed port))

/-- What is written while so many lines are turned down. -/
def refusals (port : UInt8) (count : Nat) : String :=
  String.join (List.replicate count (turnedDown port))

/-- A request turns down the lines that decide nothing and takes the one that settles it. -/
theorem exists_ask_lines_eq (port : UInt8) (written : String) (lines : List (List UInt8)) :
    ∃ rejected settling rest answer, lines = rejected ++ settling.toList ++ rest ∧
      (∀ line ∈ rejected, decision? line = none) ∧ Settles port settling rest answer ∧
      ask port written lines = (answer, ⟨rest, written ++ refusals port rejected.length ++
        ("Input for port " ++ toString port ++ ": "), false⟩) := by
  induction lines generalizing written with
  | nil =>
      refine ⟨[], none, [], _, rfl, nofun, .ended, ?_⟩
      simp [ask, refusals, prompt_eq]
  | cons line lines ih =>
      cases hline : decision? line with
      | some answer =>
          refine ⟨[], some line, lines, answer, rfl, nofun,
            .line (decision?_eq_some_iff.1 hline), ?_⟩
          rw [ask_cons, hline]
          simp [refusals, prompt_eq]
      | none =>
          obtain ⟨rejected, settling, rest, answer, rfl, hrejected, settles, hask⟩ :=
            ih (written ++ prompt port ++ rejection)
          refine ⟨line :: rejected, settling, rest, answer, rfl,
            List.forall_mem_cons.2 ⟨hline, hrejected⟩, settles, ?_⟩
          rw [ask_cons, hline]
          show ask port _ _ = _
          rw [hask]
          simp [refusals, List.replicate_succ, String.append_assoc, ← prompt_append_rejection]

theorem input_eq_ask (port : UInt8) (lines : List (List UInt8)) (written : String) :
    Ports.input (⟨lines, written, false⟩ : Console) port = ask port written lines := rfl

/-! ## One request after the other -/

def answers (console : Console) : List UInt8 → List (Except PortError UInt8)
  | [] => []
  | port :: ports =>
      (Ports.input console port).1 :: answers (Ports.input console port).2 ports

/-- Requests are answered by the lines that decide, and behind these by the end of the input. -/
theorem answers_eq (ports : List UInt8) (written : String) (lines : List (List UInt8)) :
    answers ⟨lines, written, false⟩ ports =
      (lines.filterMap decision?).take ports.length ++
        (ports.drop (lines.filterMap decision?).length).map fun port =>
          .error (.inputClosed port) := by
  induction ports generalizing written lines with
  | nil => simp [answers]
  | cons port ports ih =>
      obtain ⟨rejected, settling, rest, answer, rfl, hrejected, settles, hask⟩ :=
        exists_ask_lines_eq port written lines
      have silent : rejected.filterMap decision? = [] := List.filterMap_eq_nil_iff.2 hrejected
      rw [answers, input_eq_ask, hask, ih, List.filterMap_append, List.filterMap_append, silent]
      cases settles with
      | line decides => simp [decision?_eq_some_iff.2 decides]
      | ended => simp

/--
Bytes of the input fall into lines, of which some decide an answer. A request at a working console
reads whole lines, those that decide nothing and then the one that does, or all if there is none;
it leaves the bytes behind these and has prompted once more than it has turned a line down. At a
broken console it fails and leaves everything. So requests, at whatever ports, get the answers of
the deciding lines one by one and in order, and then only learn that the input is closed; the bytes
that they get are those of the lines that say one.
-/
theorem requests_read_lines (bytes : List UInt8) (written : String) :
    Text.FallInto bytes (Text.byteLines bytes) ∧
    (∀ line answer, decision? line = some answer ↔ Decides line answer) ∧
    (PortError.invalidText.kind = .invalidData ∧ ∀ port,
      (PortError.inputClosed port).kind = .unexpectedEnd ∧ (PortError.inputClosed port).message =
        String.join ["input closed while port ", toString port, " was waiting"]) ∧
    (∀ port, ∃ rejected settling rest answer,
      Text.byteLines bytes = rejected ++ settling.toList ++ Text.byteLines rest ∧
      bytes = rejected.flatten ++ settling.getD [] ++ rest ∧
      (∀ line ∈ rejected, decision? line = none) ∧
      Settles port settling (Text.byteLines rest) answer ∧
      Ports.input (⟨Text.byteLines bytes, written, false⟩ : Console) port = (answer,
        ⟨Text.byteLines rest, written ++ refusals port rejected.length ++
          ("Input for port " ++ toString port ++ ": "), false⟩)) ∧
    (∀ lines port, Ports.input (⟨lines, written, true⟩ : Console) port =
      (.error .writerClosed, ⟨lines, written, true⟩)) ∧
    ∀ ports, let decided := (Text.byteLines bytes).filterMap decision?
      let given := answers ⟨Text.byteLines bytes, written, false⟩ ports
      given = decided.take ports.length ++
          ((ports.drop decided.length).map fun port => .error (.inputClosed port)) ∧
        given.filterMap Except.toOption <+: decided.filterMap Except.toOption ∧
        (decided.length ≤ ports.length →
          given.filterMap Except.toOption = decided.filterMap Except.toOption) := by
  refine ⟨Text.fallInto_byteLines bytes, fun line answer => decision?_eq_some_iff, ⟨rfl, fun port =>
    ⟨rfl, rfl⟩⟩, fun port => ?_, fun lines port => rfl, fun ports => ?_⟩
  · obtain ⟨rejected, settling, lines, answer, hlines, hrejected, settles, hask⟩ :=
      exists_ask_lines_eq port written (Text.byteLines bytes)
    obtain ⟨rest, hbytes, rfl⟩ := Text.exists_of_byteLines_eq_append hlines
    refine ⟨rejected, settling, rest, answer, hlines, ?_, hrejected, settles, hask⟩
    rw [hbytes]
    cases settling <;> simp
  · intro decided given
    have hgiven : given = decided.take ports.length ++
        (ports.drop decided.length).map fun port => .error (.inputClosed port) :=
      answers_eq ports written (Text.byteLines bytes)
    have closed : ((ports.drop decided.length).map fun port =>
        (.error (.inputClosed port) : Except PortError UInt8)).filterMap Except.toOption = [] := by
      rw [List.filterMap_map]
      exact List.filterMap_eq_nil_iff.2 fun _ _ => rfl
    have hbytes : given.filterMap Except.toOption =
        (decided.take ports.length).filterMap Except.toOption := by
      rw [hgiven, List.filterMap_append, closed, List.append_nil]
    refine ⟨hgiven, ?_, fun enough => ?_⟩
    · rw [hbytes]
      exact (List.take_prefix _ _).filterMap _
    · rw [hbytes, List.take_of_length_le enough]

/-- The first line is no text; of the others the third is the first that says a byte. -/
example :
    let input := 0xff :: 10 :: Text.toBytes "hello\n300\n 42 \n7"
    (answers (ofBytes input false) [3, 3, 0, 1]).map Except.toOption =
      [none, some 42, some 7, none] := by
  decide +kernel

/-- What is on the console once the third line has answered. -/
example :
    (Ports.input (ofBytes (Text.toBytes "hello\n300\n 42 \n7") false) 3).2.written =
      String.join ["Input for port 3: Invalid input! Enter a decimal byte (0-255).\n",
        "Input for port 3: Invalid input! Enter a decimal byte (0-255).\n",
        "Input for port 3: "] := by
  decide +kernel

end Console

end Redstone

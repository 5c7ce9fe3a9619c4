import Redstone.Proofs.Machine.Calls
import Redstone.Proofs.Ports.Console

/-!
# A machine at the console

A machine at the console does what it does with a script of the bytes that its input says, and
what is on the console is told by its calls alone. Every call of a device is recorded on both
sides: on the console as text, in the script as an output, a ring of the bell or an input less.
-/

namespace Redstone

/-! ## Calls of a device -/

inductive PortCall where
  | input (port : UInt8)
  | output (port value : UInt8)
  | bell
  deriving DecidableEq, Repr

namespace PortCall

/-- What a call puts on the console if the lines to come say these bytes. -/
def shown (readings : List (Option UInt8)) : PortCall → String
  | input port => Console.dialogue port readings
  | output port value => "Port " ++ toString port ++ ": " ++ toString value ++ "\n"
  | bell => "\u0007"

/-- The lines that a call leaves. -/
def left (readings : List (Option UInt8)) : PortCall → List (Option UInt8)
  | input _ => Console.behindAnswer readings
  | output .. | bell => readings

def sent? : PortCall → Option (UInt8 × UInt8)
  | output port value => some (port, value)
  | input _ | bell => none

def transcript : List (Option UInt8) → List PortCall → String
  | _, [] => ""
  | readings, call :: calls => call.shown readings ++ transcript (call.left readings) calls

theorem transcript_concat (readings : List (Option UInt8)) (calls : List PortCall)
    (call : PortCall) :
    transcript readings (calls ++ [call]) =
      transcript readings calls ++ call.shown (calls.foldl left readings) := by
  induction calls generalizing readings with
  | nil => simp [transcript]
  | cons first calls ih => simp [transcript, ih, String.append_assoc]

end PortCall

def Machine.callOf (machine : Machine) : Request → PortCall
  | .input port _ => .input port
  | .output c port => .output port (machine.registers.read c)
  | .bell => .bell

def Machine.call? (machine : Machine) : Option PortCall :=
  if machine.state = .halted then none
  else match machine.current with
    | .error _ => none
    | .ok instruction => instruction.request?.map machine.callOf

def Machine.calls {δ : Type} [Ports δ] (machine : Machine) (device : δ) (n : Nat) :
    List PortCall :=
  (List.range n).filterMap fun k => (machine.after device k).1.call?

/-- The same result, except that there are two ways to say that the input is at its end. -/
inductive SameResult {α : Type} : Except Fault α → Except Fault α → Prop where
  | done (value : α) : SameResult (.ok value) (.ok value)
  | failed {fault : Fault} (inside : ∀ e, fault ≠ .port e) :
      SameResult (.error fault) (.error fault)
  | ended {e e' : PortError} (kind : e.kind = .unexpectedEnd) (kind' : e'.kind = .unexpectedEnd) :
      SameResult (.error (.port e)) (.error (.port e'))

/-! ## Two devices with the same calls -/

/-- A console and a script, each after the same calls, for input lines that say these bytes. -/
structure Recorded (readings : List (Option UInt8)) (calls : List PortCall) (console : Console)
    (script : Script) : Prop where
  works : console.broken = false
  unread : ∃ lines : List String, console.unread = lines.map Text.toBytes ∧
    lines.map Console.lineByte? = calls.foldl PortCall.left readings
  written : console.written = PortCall.transcript readings calls
  inputs : script.inputs = (calls.foldl PortCall.left readings).reduceOption
  outputs : script.outputs.toList = calls.filterMap PortCall.sent?
  bells : script.bells = calls.count .bell

namespace Recorded

variable {readings : List (Option UInt8)} {calls : List PortCall} {console : Console}
  {script : Script}

theorem initial (text : String) :
    Recorded ((Text.lines text).map Console.lineByte?) []
      (Console.ofBytes (Text.toBytes text) false)
      (Script.ofInputs ((Text.lines text).map Console.lineByte?).reduceOption) where
  works := rfl
  unread := by
    obtain ⟨texts, hbytes, htrim⟩ := Text.exists_byteLines_toBytes_eq text
    exact ⟨texts, hbytes, Console.map_lineByte?_congr htrim⟩
  written := rfl
  inputs := rfl
  outputs := rfl
  bells := rfl

/-- One more call is recorded if each side has noticed it. -/
theorem concat (recorded : Recorded readings calls console script) (call : PortCall)
    {console' : Console} {script' : Script} (works : console'.broken = false)
    (unread : ∃ lines : List String, console'.unread = lines.map Text.toBytes ∧
      lines.map Console.lineByte? = call.left (calls.foldl PortCall.left readings))
    (written : console'.written =
      console.written ++ call.shown (calls.foldl PortCall.left readings))
    (inputs : script'.inputs = (call.left (calls.foldl PortCall.left readings)).reduceOption)
    (outputs : script'.outputs.toList = script.outputs.toList ++ [call].filterMap PortCall.sent?)
    (bells : script'.bells = script.bells + [call].count .bell) :
    Recorded readings (calls ++ [call]) console' script' where
  works := works
  unread := by rwa [List.foldl_concat]
  written := by rw [written, recorded.written, PortCall.transcript_concat]
  inputs := by rwa [List.foldl_concat]
  outputs := by rw [outputs, recorded.outputs, List.filterMap_append]
  bells := by rw [bells, recorded.bells, List.count_append]

theorem write_eq (recorded : Recorded readings calls console script) (text : String) :
    console.write text = (.ok (), { console with written := console.written ++ text }) := by
  unfold Console.write
  rw [recorded.works]
  rfl

theorem output (recorded : Recorded readings calls console script) (port value : UInt8) :
    (Ports.output console port value).1 = .ok () ∧
      Recorded readings (calls ++ [.output port value]) (Ports.output console port value).2
        (Ports.output script port value).2 := by
  have hwrite : Ports.output console port value = _ := recorded.write_eq _
  rw [hwrite, Console.outputLine_eq]
  refine ⟨rfl, recorded.concat _ recorded.works recorded.unread rfl recorded.inputs ?_ rfl⟩
  exact Array.toList_push

theorem bell (recorded : Recorded readings calls console script) :
    (Ports.bell console).1 = .ok () ∧
      Recorded readings (calls ++ [.bell]) (Ports.bell console).2 (Ports.bell script).2 := by
  have hwrite : Ports.bell console = _ := recorded.write_eq _
  rw [hwrite]
  refine ⟨rfl, recorded.concat _ recorded.works recorded.unread rfl recorded.inputs ?_ rfl⟩
  exact (List.append_nil _).symm

/-- Both answer with the next byte, or both have none. -/
theorem input (recorded : Recorded readings calls console script) (port : UInt8) :
    ((∃ value, (Ports.input console port).1 = .ok value ∧
        (Ports.input script port).1 = .ok value) ∨
      (Ports.input console port).1 = .error (.inputClosed port) ∧
        (Ports.input script port).1 = .error (.scriptExhausted port)) ∧
      Recorded readings (calls ++ [.input port]) (Ports.input console port).2
        (Ports.input script port).2 := by
  obtain ⟨lines, hunread, hlines⟩ := recorded.unread
  obtain ⟨rest, hrest, hask⟩ := Console.exists_ask_eq port console.written lines
  have hconsole : Ports.input console port = Console.ask port console.written console.unread :=
    if_neg (by simp [recorded.works])
  rw [hunread, hask, hlines, ← recorded.inputs] at hconsole
  rw [hlines] at hrest
  rw [hconsole, Script.input_eq]
  constructor
  · cases script.inputs with
    | nil => exact .inr ⟨rfl, rfl⟩
    | cons value inputs => exact .inl ⟨value, rfl, rfl⟩
  · refine recorded.concat _ rfl ⟨rest, rfl, hrest⟩ rfl ?_ (List.append_nil _).symm rfl
    show script.inputs.tail = _
    rw [recorded.inputs]
    exact (Console.reduceOption_behindAnswer _).symm

end Recorded

/-! ## A step and a run -/

/-- An activity at the console and with the script, after which these calls are recorded. -/
structure Agrees (readings : List (Option UInt8)) (calls : List PortCall) {α : Type}
    (atConsole : Outcome Console α) (withScript : Outcome Script α) : Prop where
  machine : atConsole.machine = withScript.machine
  result : SameResult atConsole.result withScript.result
  recorded : Recorded readings calls atConsole.device withScript.device

section Steps

variable {readings : List (Option UInt8)} {calls : List PortCall} {console : Console}
  {script : Script}

theorem Recorded.perform (recorded : Recorded readings calls console script) (machine : Machine)
    (request : Request) :
    Agrees readings (calls ++ [machine.callOf request]) (machine.perform console request)
      (machine.perform script request) := by
  cases request with
  | input port c =>
      obtain ⟨⟨value, hconsole, hscript⟩ | ⟨hconsole, hscript⟩, after⟩ := recorded.input port
      · simp only [Machine.perform, hconsole, hscript]
        exact ⟨rfl, .done (), after⟩
      · simp only [Machine.perform, hconsole, hscript]
        exact ⟨rfl, .ended rfl rfl, after⟩
  | output c port =>
      obtain ⟨hconsole, after⟩ := recorded.output port (machine.registers.read c)
      simp only [Machine.perform, hconsole]
      exact ⟨rfl, .done (), after⟩
  | bell =>
      obtain ⟨hconsole, after⟩ := recorded.bell
      simp only [Machine.perform, hconsole]
      exact ⟨rfl, .done (), after⟩

theorem Recorded.execute (recorded : Recorded readings calls console script) (machine : Machine)
    (instruction : Instruction) :
    Agrees readings (calls ++ (instruction.request?.map machine.callOf).toList)
      (machine.execute console instruction) (machine.execute script instruction) := by
  unfold Machine.execute
  cases instruction.request? with
  | some request => exact recorded.perform machine request
  | none =>
      refine ⟨rfl, .done (), ?_⟩
      simpa using recorded

theorem Agrees.finish {atConsole : Outcome Console Unit} {withScript : Outcome Script Unit}
    (agrees : Agrees readings calls atConsole withScript) (instruction : Instruction) :
    Agrees readings calls (atConsole.finish instruction) (withScript.finish instruction) := by
  obtain ⟨result, machine, console, events⟩ := atConsole
  obtain ⟨result', machine', script, events'⟩ := withScript
  obtain ⟨same, result, recorded⟩ := agrees
  cases same
  cases result with
  | done value => exact ⟨rfl, .done instruction, recorded⟩
  | failed inside => exact ⟨rfl, .failed inside, recorded⟩
  | ended kind kind' => exact ⟨rfl, .ended kind kind', recorded⟩

theorem Recorded.step (recorded : Recorded readings calls console script) (machine : Machine) :
    Agrees readings (calls ++ machine.call?.toList) (machine.step console)
      (machine.step script) := by
  unfold Machine.call?
  cases hstate : machine.state with
  | halted =>
      rw [if_pos rfl, Machine.step_of_halted hstate, Machine.step_of_halted hstate]
      exact ⟨rfl, .failed nofun, by simpa using recorded⟩
  | running =>
      rw [if_neg (by decide)]
      cases hcurrent : machine.current with
      | error fault =>
          have inside (e : PortError) : fault ≠ .port e := by
            rintro rfl
            exact machine.current_ne_port e hcurrent
          rw [Machine.step_of_current_error hstate hcurrent,
            Machine.step_of_current_error hstate hcurrent]
          exact ⟨rfl, .failed inside, by simpa using recorded⟩
      | ok instruction =>
          rw [Machine.step_of_current_ok hstate hcurrent,
            Machine.step_of_current_ok hstate hcurrent]
          exact (recorded.execute machine instruction).finish instruction

end Steps

namespace Machine

theorem calls_succ {δ : Type} [Ports δ] (machine : Machine) (device : δ) (n : Nat) :
    machine.calls device (n + 1) =
      machine.calls device n ++ (machine.after device n).1.call?.toList := by
  unfold calls
  rw [List.range_succ, List.filterMap_append]
  cases h : (machine.after device n).1.call? <;> simp [h]

theorem after_recorded (machine : Machine) {readings : List (Option UInt8)} {console : Console}
    {script : Script} (recorded : Recorded readings [] console script) (n : Nat) :
    (machine.after console n).1 = (machine.after script n).1 ∧
      Recorded readings (machine.calls script n) (machine.after console n).2
        (machine.after script n).2 := by
  induction n with
  | zero => exact ⟨rfl, recorded⟩
  | succ n ih =>
      obtain ⟨same, before⟩ := ih
      have agrees := before.step (machine.after script n).1
      rw [calls_succ]
      simp only [after, same]
      exact ⟨agrees.machine, agrees.recorded⟩

/--
At a console whose input is a text, a machine goes through the same states as with a script of
the bytes that the lines of the text say, and each step has the same result. The console then
shows what the calls of the script have put there.
-/
theorem console_agrees_with_script (machine : Machine) (text : String) :
    let readings := (Text.lines text).map Console.lineByte?
    let console := machine.after (Console.ofBytes (Text.toBytes text) false)
    let script := machine.after (Script.ofInputs readings.reduceOption)
    let calls := machine.calls (Script.ofInputs readings.reduceOption)
    (∀ line value, Console.lineByte? line = some value ↔ Console.Says line value) ∧
    ∀ n, (console n).1 = (script n).1 ∧
      SameResult ((console n).1.step (console n).2).result
        ((script n).1.step (script n).2).result ∧
      (console n).2.written = PortCall.transcript readings (calls n) ∧
      (script n).2.outputs.toList = (calls n).filterMap PortCall.sent? ∧
      (script n).2.bells = (calls n).count .bell := by
  intro readings console script calls
  refine ⟨fun line value => Console.lineByte?_eq_some_iff, fun n => ?_⟩
  obtain ⟨same, recorded⟩ := machine.after_recorded (Recorded.initial text) n
  refine ⟨same, ?_, recorded.written, recorded.outputs, recorded.bells⟩
  have agrees := recorded.step (script n).1
  rw [show (console n).1 = (script n).1 from same]
  exact agrees.result

/-- A byte asked for twice, sent on, and the bell. -/
example :
    let program := [0x19, 0xb0, 0x78, 0xb8, 0x00, 0xc0]
    let machine := { initial with memory := Memory.empty.poke 0 program }
    (machine.after (Console.ofBytes (Text.toBytes "x\n42\n") false) 3).2.written =
      String.join ["Input for port 3: Invalid input! Enter a decimal byte (0-255).\n",
        "Input for port 3: Port 7: 42\n", "\u0007"] := by
  decide +kernel

end Machine

end Redstone

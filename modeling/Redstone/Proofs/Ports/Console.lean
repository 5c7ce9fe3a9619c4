import Mathlib.Data.List.ReduceOption
import Redstone.Ports.Console
import Redstone.Ports.Script
import Redstone.Proofs.Text.Lines
import Redstone.Proofs.Text.Numeral

/-!
# Asking on the console

Whoever asks on the console gets the byte that the first line says which says one. What is
written meanwhile depends on the lines only through that: each line turned down repeats the
prompt. A list with the byte of each line, or none, is all that has to be known of the input.
-/

namespace Redstone

namespace Console

/-- White space aside, the line is a decimal numeral of the byte, perhaps behind a plus sign. -/
def Says (line : String) (value : UInt8) : Prop :=
  ∃ digits,
    (Text.trimChars line.toList = digits ∨ Text.trimChars line.toList = '+' :: digits) ∧
    digits ≠ [] ∧ (∀ c ∈ digits, c.isDigit = true) ∧
    Nat.ofDigitChars 10 digits 0 = value.toNat

theorem ofNat_eq_some_iff {n : Nat} {value : UInt8} :
    (if n < 256 then some (UInt8.ofNat n) else none) = some value ↔ n = value.toNat := by
  have hlt := value.toNat_lt
  by_cases hn : n < 256
  · rw [if_pos hn, Option.some.injEq, ← UInt8.toNat_inj, UInt8.toNat_ofNat', Nat.mod_eq_of_lt hn]
  · rw [if_neg hn]
    constructor
    · nofun
    · omega

theorem byteOf?_eq_some_iff {numeral : List Char} {value : UInt8} :
    byteOf? numeral = some value ↔
      ∃ digits, (numeral = digits ∨ numeral = '+' :: digits) ∧
        Numeral.value? 10 digits = some value.toNat := by
  constructor
  · intro hbyte
    unfold byteOf? at hbyte
    -- First whether there is a sign, then whether the rest is a number.
    split at hbyte
    · next rest =>
        refine ⟨rest, .inr rfl, ?_⟩
        dsimp only at hbyte
        split at hbyte
        · next n hvalue => rw [hvalue, ofNat_eq_some_iff.1 hbyte]
        · cases hbyte
    · refine ⟨numeral, .inl rfl, ?_⟩
      dsimp only at hbyte
      split at hbyte
      · next n hvalue => rw [hvalue, ofNat_eq_some_iff.1 hbyte]
      · cases hbyte
  · rintro ⟨digits, hsign, hvalue⟩
    have hplus (rest : List Char) : digits ≠ '+' :: rest := by
      rintro rfl
      cases hvalue
    have hbyte := ofNat_eq_some_iff.2 (rfl : value.toNat = value.toNat)
    rcases hsign with rfl | rfl
    · simpa [byteOf?, hvalue] using hbyte
    · simpa [byteOf?, hvalue] using hbyte

theorem lineByte?_eq_some_iff {line : String} {value : UInt8} :
    lineByte? line = some value ↔ Says line value := by
  simp only [lineByte?, byteOf?_eq_some_iff, Numeral.value?_ten_eq_some_iff, Says]

/-- The byte of a line depends only on what trimming leaves of it. -/
theorem map_lineByte?_congr {texts others : List String}
    (same : texts.map (Text.trimChars ·.toList) = others.map (Text.trimChars ·.toList)) :
    texts.map lineByte? = others.map lineByte? := by
  have hmap (lines : List String) :
      lines.map lineByte? = (lines.map (Text.trimChars ·.toList)).map byteOf? := by
    rw [List.map_map]
    rfl
  rw [hmap, hmap, same]

theorem prompt_eq (port : UInt8) : prompt port = "Input for port " ++ toString port ++ ": " := by
  simp [prompt, String.join]

theorem outputLine_eq (port value : UInt8) :
    outputLine port value = "Port " ++ toString port ++ ": " ++ toString value ++ "\n" := by
  simp [outputLine, String.join]

def turnedDown (port : UInt8) : String :=
  "Input for port " ++ toString port ++ ": Invalid input! Enter a decimal byte (0-255).\n"

theorem prompt_append_rejection (port : UInt8) : prompt port ++ rejection = turnedDown port := by
  have joined : ": " ++ rejection = ": Invalid input! Enter a decimal byte (0-255).\n" := by
    decide
  unfold turnedDown
  rw [prompt_eq, String.append_assoc, joined]

/-- What is written for a port: the question, and before it once more for each line turned down. -/
def dialogue (port : UInt8) : List (Option UInt8) → String
  | none :: readings => turnedDown port ++ dialogue port readings
  | _ => "Input for port " ++ toString port ++ ": "

def behindAnswer : List (Option UInt8) → List (Option UInt8)
  | none :: readings => behindAnswer readings
  | some _ :: readings => readings
  | [] => []

theorem reduceOption_behindAnswer (readings : List (Option UInt8)) :
    (behindAnswer readings).reduceOption = readings.reduceOption.tail := by
  induction readings with
  | nil => rfl
  | cons reading readings ih =>
      cases reading with
      | none => exact ih
      | some value => rfl

/-- Asking reads up to the answer, which is the first byte that a line says. -/
theorem exists_ask_eq (port : UInt8) (written : String) (lines : List String) :
    ∃ rest : List String, rest.map lineByte? = behindAnswer (lines.map lineByte?) ∧
      ask port written (lines.map Text.toBytes) =
        ((lines.map lineByte?).reduceOption.head?.elim (.error (.inputClosed port)) .ok,
          ⟨rest.map Text.toBytes, written ++ dialogue port (lines.map lineByte?), false⟩) := by
  induction lines generalizing written with
  | nil => exact ⟨[], rfl, by simp [ask, dialogue, prompt_eq]⟩
  | cons line lines ih =>
      simp only [List.map_cons, ask, Text.ofBytes?_toBytes]
      cases hline : lineByte? line with
      | some value => exact ⟨lines, rfl, by simp [dialogue, prompt_eq]⟩
      | none =>
          obtain ⟨rest, hrest, hask⟩ := ih (written ++ prompt port ++ rejection)
          refine ⟨rest, hrest, ?_⟩
          rw [List.reduceOption_cons_of_none, dialogue, ← prompt_append_rejection]
          simpa only [String.append_assoc] using hask

end Console

theorem Script.input_eq (script : Script) (port : UInt8) :
    Ports.input script port =
      (script.inputs.head?.elim (.error (.scriptExhausted port)) .ok,
        { script with inputs := script.inputs.tail }) := by
  obtain ⟨inputs, outputs, bells⟩ := script
  cases inputs with
  | nil => rfl
  | cons value rest => rfl

end Redstone

import Redstone.Overflow
import Redstone.Text.Numeral

/-!
# Literals and operands

An operand is a number if it reads as one and otherwise the name of an alias.
Numbers are decimal digits, digits in base 16 or 2 behind a mark, or a
printable character between apostrophes.  Numbers have 64 bits and a sign.

The sign in front of a mark is applied last, to a number that may have a sign
of its own.  The least number has no negative, so a literal such as
`-0x-8000000000000000` is neither a number nor a name: reading it overflows.
-/

namespace Redstone

namespace Literal

def inRange (value : Int) : Bool :=
  -0x8000000000000000 ≤ value && value < 0x8000000000000000

/-- The number of digits in a base, behind one sign or none, if it is in range. -/
def signed? (base : Nat) (cs : List Char) : Option Int :=
  let value := match cs with
    | '-' :: digits => (Numeral.value? base digits).map fun n => -(n : Int)
    | '+' :: digits => (Numeral.value? base digits).map Int.ofNat
    | digits => (Numeral.value? base digits).map Int.ofNat
  value.filter inRange

/--
The number behind the sign of a literal.  A mark for base 16 or 2 is binding:
what follows it is not tried as anything else.
-/
def magnitude? : List Char → Option Int
  | '0' :: 'x' :: digits | '0' :: 'X' :: digits => signed? 16 digits
  | '0' :: 'b' :: digits | '0' :: 'B' :: digits => signed? 2 digits
  | digits => ((Numeral.value? 10 digits).map Int.ofNat).filter inRange

def negate (value : Int) : Except Overflow Int :=
  if inRange (-value) then .ok (-value) else .error .negation

def valueOf? : List Char → Except Overflow (Option Int)
  | '-' :: body =>
      match magnitude? body with
      | some value => (negate value).map some
      | none => .ok none
  | body => .ok (magnitude? body)

theorem valueOf?_minus (body : List Char) :
    valueOf? ('-' :: body) = match magnitude? body with
      | some value => (negate value).map some
      | none => .ok none :=
  rfl

theorem valueOf?_of_positive {cs : List Char} (h : cs.head? ≠ some '-') :
    valueOf? cs = .ok (magnitude? cs) := by
  unfold valueOf?
  split
  · exact absurd rfl h
  · rfl

def value? (text : String) : Except Overflow (Option Int) :=
  valueOf? text.toList

/-- The code of a printable ASCII character between apostrophes. -/
def charCode? : List Char → Option Nat
  | ['\'', c, '\''] =>
      if 0x20 ≤ c.toNat ∧ c.toNat ≤ 0x7e then some c.toNat else none
  | _ => none

def character? (text : String) : Option Nat :=
  charCode? text.toList

def isNumeric (name : String) : Bool :=
  !name.toList.isEmpty && name.toList.all Char.isDigit

end Literal

inductive Operand where
  | literal (value : Int)
  | alias (name : String)
  deriving DecidableEq, Repr

namespace Operand

def ofText (text : String) : Except Overflow Operand :=
  match Literal.character? text with
  | some code => .ok (.literal code)
  | none =>
      match Literal.value? text with
      | .ok (some value) => .ok (.literal value)
      | .ok none => .ok (.alias text)
      | .error cause => .error cause

theorem ofText_of_not_character {text : String} (h : Literal.character? text = none) :
    ofText text = match Literal.value? text with
      | .ok (some value) => .ok (.literal value)
      | .ok none => .ok (.alias text)
      | .error cause => .error cause := by
  rw [ofText, h]

example : ofText "'A'" = .ok (.literal 65) := by rfl

example : ofText "-0x+1f" = .ok (.literal (-31)) := by rfl

example : ofText "+5" = .ok (.alias "+5") := by rfl

example : ofText "-0x-8000000000000000" = .error .negation := by rfl

end Operand

end Redstone

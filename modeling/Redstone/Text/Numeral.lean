/-!
# Numerals

Numbers as they stand in listings, images and reports: digits in a base, padded
to a column.  Reading digits is the other direction; a digit of a base is a
decimal digit or a letter, in either case.
-/

namespace Redstone

namespace Numeral

/-- Digits of `n` in `base`, with zeros in front up to `width` digits. -/
def digits (base width n : Nat) : List Char :=
  (Nat.toDigits base n).leftpad width '0'

def decimal (width n : Nat) : String :=
  String.ofList (digits 10 width n)

def binary8 (byte : UInt8) : String :=
  String.ofList (digits 2 8 byte.toNat)

/-- The two bytes of a word in binary, high byte first, a space between them. -/
def binary16 (word : UInt16) : String :=
  binary8 (word >>> 8).toUInt8 ++ " " ++ binary8 word.toUInt8

/-- Hexadecimal numeral with the mark `0x` and at least `width` digits. -/
def hex (width n : Nat) : String :=
  String.ofList ('0' :: 'x' :: digits 16 width n)

def column (width : Nat) (text : String) : String :=
  String.ofList (text.toList.rightpad width ' ')

/-- The number that a digit stands for in `base`, if it is a digit of it. -/
def digitValue? (base : Nat) (c : Char) : Option Nat :=
  let value :=
    if '0' ≤ c ∧ c ≤ '9' then some (c.toNat - '0'.toNat)
    else if 'a' ≤ c ∧ c ≤ 'z' then some (c.toNat - 'a'.toNat + 10)
    else if 'A' ≤ c ∧ c ≤ 'Z' then some (c.toNat - 'A'.toNat + 10)
    else none
  value.filter (· < base)

def valueAfter? (base : Nat) : Nat → List Char → Option Nat
  | high, [] => some high
  | high, c :: cs =>
      match digitValue? base c with
      | some d => valueAfter? base (high * base + d) cs
      | none => none

/-- Value of a digit string.  At least one digit is needed; zeros may lead. -/
def value? (base : Nat) (cs : List Char) : Option Nat :=
  if cs.isEmpty then none else valueAfter? base 0 cs

example : hex 4 0x5a = "0x005a" := by decide

example : value? 16 "5A".toList = some 0x5a := by decide

example : value? 2 "".toList = none := by decide

end Numeral

end Redstone

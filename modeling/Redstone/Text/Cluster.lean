import Redstone.Text.Conjunct
import Redstone.Text.Mark
import Redstone.Text.Pictograph

/-!
# Clusters

What a reader takes for one character can be several: a letter with marks on
it, the parts of a Korean syllable, two letters that name a flag, joined emoji.
A text is split into such clusters from left to right; whether a character goes
on with the cluster before it depends on that cluster alone.
-/

namespace Redstone

namespace Cluster

/-- What matters about a character when clusters are formed. -/
inductive Kind where
  | other
  /-- Controls and format characters, which stand alone. -/
  | control
  | mark
  /-- The zero width joiner. -/
  | joiner
  | spacingMark
  /-- Signs that belong to what comes after them. -/
  | sign
  /-- The letters that name a flag in pairs. -/
  | flagLetter
  /--
  The parts of a Korean syllable and syllables without and with an end.  The
  vowels of Kirat Rai, which also stand in pairs, count as vowel parts.
  -/
  | leadingPart | vowelPart | trailingPart | openSyllable | closedSyllable
  deriving DecidableEq, Repr

/-- Controls, line and paragraph separators and most format characters. -/
def controls : CodeRanges :=
  [(0x0, 0x1f), (0x7f, 0x9f), (0xad, 0xad), (0x61c, 0x61c), (0x180e, 0x180e),
    (0x200b, 0x200b), (0x200e, 0x200f), (0x2028, 0x202e), (0x2060, 0x206f),
    (0xfeff, 0xfeff), (0xfff0, 0xfffb), (0x13430, 0x1343f), (0x1bca0, 0x1bca3),
    (0x1d173, 0x1d17a), (0xe0000, 0xe001f), (0xe0080, 0xe00ff),
    (0xe01f0, 0xe0fff)]

/-- Signs that are written over or before what comes after them. -/
def signs : CodeRanges :=
  [(0x600, 0x605), (0x6dd, 0x6dd), (0x70f, 0x70f), (0x890, 0x891),
    (0x8e2, 0x8e2), (0xd4e, 0xd4e), (0x110bd, 0x110bd), (0x110cd, 0x110cd),
    (0x111c2, 0x111c3), (0x113d1, 0x113d1), (0x1193f, 0x1193f),
    (0x11941, 0x11941), (0x11a84, 0x11a89), (0x11d46, 0x11d46),
    (0x11f02, 0x11f02)]

/-- The part of a syllable that a character is, if it is one. -/
def syllableKind? (code : Nat) : Option Kind :=
  if (0x1100 ≤ code ∧ code ≤ 0x115f) ∨ (0xa960 ≤ code ∧ code ≤ 0xa97c) then
    some .leadingPart
  else if (0x1160 ≤ code ∧ code ≤ 0x11a7) ∨ (0xd7b0 ≤ code ∧ code ≤ 0xd7c6) ∨
      code = 0x16d63 ∨ (0x16d67 ≤ code ∧ code ≤ 0x16d6a) then
    some .vowelPart
  else if (0x11a8 ≤ code ∧ code ≤ 0x11ff) ∨ (0xd7cb ≤ code ∧ code ≤ 0xd7fb) then
    some .trailingPart
  else if 0xac00 ≤ code ∧ code ≤ 0xd7a3 then
    some (if (code - 0xac00) % 28 = 0 then .openSyllable else .closedSyllable)
  else none

def kindOf (c : Char) : Kind :=
  let code := c.toNat
  if 0x20 ≤ code ∧ code < 0x7f then .other
  else if controls.contains code then .control
  else if code = 0x200d then .joiner
  else if Text.marks.contains code then .mark
  else if Text.spacingMarks.contains code then .spacingMark
  else if signs.contains code then .sign
  else if 0x1f1e6 ≤ code ∧ code ≤ 0x1f1ff then .flagLetter
  else (syllableKind? code).getD .other

/-- Whether two parts stand in one syllable, the second right after the first. -/
def inOneSyllable : Kind → Kind → Bool
  | .leadingPart, .leadingPart | .leadingPart, .vowelPart
  | .leadingPart, .openSyllable | .leadingPart, .closedSyllable
  | .openSyllable, .vowelPart | .openSyllable, .trailingPart
  | .vowelPart, .vowelPart | .vowelPart, .trailingPart
  | .closedSyllable, .trailingPart | .trailingPart, .trailingPart => true
  | _, _ => false

/-- Whether a cluster, newest first, ends in a pictograph that a joiner follows. -/
def endsJoined : List Char → Bool
  | '\u200d' :: rest =>
      match rest.dropWhile fun c => kindOf c = .mark with
      | c :: _ => Text.pictographs.contains c.toNat
      | [] => false
  | _ => false

/-- Whether a cluster, newest first, ends in a consonant and a linker after it. -/
def endsLinked (cluster : List Char) : Bool :=
  let follows (c : Char) : Bool :=
    (kindOf c = .mark && c != '\u200c') || c == '\u200d'
  let linked := (cluster.takeWhile follows).any fun c =>
    Text.conjunctLinkers.contains c.toNat
  match cluster.dropWhile follows with
  | c :: _ => linked && Text.conjunctConsonants.contains c.toNat
  | [] => false

/-- Whether a cluster, newest first, ends in one flag letter of a pair. -/
def endsInHalfFlag (cluster : List Char) : Bool :=
  (cluster.takeWhile fun c => kindOf c = .flagLetter).length % 2 == 1

/-- Whether a character goes on with a cluster, whose newest character is first. -/
def goesOn (cluster : List Char) (c : Char) : Bool :=
  match cluster with
  | [] => true
  | last :: _ =>
      let before := kindOf last
      let kind := kindOf c
      if last = '\r' && c = '\n' then true
      else if before = .control || kind = .control then false
      else if kind = .mark || kind = .joiner || kind = .spacingMark then true
      else
        before = .sign || inOneSyllable before kind ||
          (Text.conjunctConsonants.contains c.toNat && endsLinked cluster) ||
          (Text.pictographs.contains c.toNat && endsJoined cluster) ||
          (kind = .flagLetter && endsInHalfFlag cluster)

/-- The clusters of a text, after one that is open and whose newest character is first. -/
def splitFrom (opened : List Char) : List Char → List (List Char)
  | [] => if opened.isEmpty then [] else [opened.reverse]
  | c :: rest =>
      if goesOn opened c then splitFrom (c :: opened) rest
      else opened.reverse :: splitFrom [c] rest

def split (cs : List Char) : List (List Char) :=
  splitFrom [] cs

theorem flatten_splitFrom (opened cs : List Char) :
    (splitFrom opened cs).flatten = opened.reverse ++ cs := by
  induction cs generalizing opened with
  | nil => cases opened <;> simp [splitFrom]
  | cons c rest ih =>
      unfold splitFrom
      split
      · rw [ih]
        simp
      · simp [ih]

theorem flatten_split (cs : List Char) : (split cs).flatten = cs := by
  simp [split, flatten_splitFrom]

example : split "e\u0301x".toList = [['e', '\u0301'], ['x']] := by decide

end Cluster

end Redstone

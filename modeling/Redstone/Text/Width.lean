import Redstone.Text.Column
import Redstone.Text.Pictograph

/-!
# Widths

The number of columns that characters take in a window.  Most take one; the
characters of the East Asian scripts and emoji take two, marks and invisible
characters none.  What stands behind a character can change its width: joined
emoji are as wide as one, and so is an emoji with its modifier.  A text is
therefore measured from its end.
-/

namespace Redstone

namespace Width

/-- What stands behind a character, as far as its width depends on it. -/
inductive Follower where
  | other
  /-- An emoji, which a joiner would make part of the emoji before it. -/
  | emoji
  | modifier
  /-- A joiner and an emoji. -/
  | joined
  /-- The mark of a keycap, with a joiner and an emoji behind it. -/
  | joinedKeycap
  /-- One of the letters that name a flag, with a joiner and an emoji behind it. -/
  | joinedFlagLetter
  /--
  Tags that end the name of a flag, with a joiner and an emoji behind them: so
  many letters, or so many digits and any letters behind those.
  -/
  | joinedLetterTags (count : Nat)
  | joinedDigitTags (count : Nat)
  /-- The selector of the emoji style. -/
  | emojiStyle
  /-- That selector, with a joiner and an emoji behind it. -/
  | joinedEmojiStyle
  /-- The selector of the text style. -/
  | textStyle
  /-- A letter that fits below the one before it. -/
  | lowLetter
  deriving DecidableEq, Repr

/-- Whether a character is one of the letters that name a flag. -/
def isFlagLetter (c : Char) : Bool :=
  0x1f1e6 ≤ c.toNat && c.toNat ≤ 0x1f1ff

/-- Whether a character is a tag that stands for a small letter. -/
def isLetterTag (c : Char) : Bool :=
  0xe0061 ≤ c.toNat && c.toNat ≤ 0xe007a

def isDigitTag (c : Char) : Bool :=
  0xe0030 ≤ c.toNat && c.toNat ≤ 0xe0039

/-- Whether the text style makes a character narrow that is an emoji by itself. -/
def isNarrowed (c : Char) : Bool :=
  Text.styled.contains c.toNat && Text.emoji.contains c.toNat &&
    !(0x1f200 ≤ c.toNat && c.toNat ≤ 0x1f2ff)

def ofChar (c : Char) : Nat :=
  let code := c.toNat
  if code ≤ 0xa0 then 1
  else if code = 0x17a4 then 2
  else if code = 0x17d8 then 3
  else if Text.placeless.contains code then 0
  else if Text.wide.contains code then 2
  else 1

def Follower.ofChar (c : Char) : Follower :=
  if c = '\ufe0f' then emojiStyle
  else if c = '\ufe0e' then textStyle
  else if Text.modifiers.contains c.toNat then modifier
  else if Text.emoji.contains c.toNat then emoji
  else if Text.lowLetters.contains c.toNat then lowLetter
  else other

/-- The width of a character that does not depend on what is behind it. -/
def alone (c : Char) : Int × Follower :=
  (ofChar c, Follower.ofChar c)

/-- The width of a character that a joiner joins to the emoji behind the joiner. -/
def beforeJoined (c : Char) : Int × Follower :=
  if c = '\u20e3' then (0, .joinedKeycap)
  else if c = '\ufe0f' then (0, .joinedEmojiStyle)
  else if c.toNat = 0xe007f then (0, .joinedLetterTags 0)
  else if isFlagLetter c then (1, .joinedFlagLetter)
  else if Text.modifiers.contains c.toNat then (0, .modifier)
  else if Text.emoji.contains c.toNat then (0, .emoji)
  else alone c

/--
The width of a character in front of tags that are letters.  The name of a flag
has three to six of them, or three digits and up to four letters behind those.
-/
def beforeLetterTags (c : Char) (count : Nat) : Int × Follower :=
  if isLetterTag c && count < 6 then (0, .joinedLetterTags (count + 1))
  else if isDigitTag c && count ≤ 4 then (0, .joinedDigitTags 1)
  else if c = '🏴' && 3 ≤ count then (0, .emoji)
  else alone c

/-- The width of a character in front of tags that begin with digits. -/
def beforeDigitTags (c : Char) (count : Nat) : Int × Follower :=
  if isDigitTag c && count < 3 then (0, .joinedDigitTags (count + 1))
  else if c = '🏴' && count = 3 then (0, .emoji)
  else alone c

/--
The width of a character in front of a letter that fits below it.  The sign that
puts the letter there takes back the column that the letter was given.
-/
def beforeLowLetter (c : Char) : Int × Follower :=
  if c = '\u17d2' then (-1, .other)
  else if c = '\u200d' || Text.invisibleMarks.contains c.toNat then
    (0, .lowLetter)
  else alone c

/-- The width of a character in front of others, and what it is to the one before. -/
def before (c : Char) : Follower → Int × Follower
  | .other => alone c
  | .emoji => if c = '\u200d' then (0, .joined) else alone c
  | .modifier =>
      if Text.modifierBases.contains c.toNat then (0, .emoji)
      else if c = '\u200d' then (0, .joined)
      else alone c
  | .joined => beforeJoined c
  | .joinedKeycap =>
      if c = '\ufe0f' then (0, .joinedEmojiStyle) else alone c
  | .joinedFlagLetter => if isFlagLetter c then (-1, .other) else alone c
  | .joinedLetterTags count => beforeLetterTags c count
  | .joinedDigitTags count => beforeDigitTags c count
  | .emojiStyle =>
      if Text.styled.contains c.toNat then (2, .emoji) else alone c
  | .joinedEmojiStyle =>
      if Text.styled.contains c.toNat then (0, .emoji) else alone c
  | .textStyle => if isNarrowed c then (1, .other) else alone c
  | .lowLetter => beforeLowLetter c

/-- The number of columns of characters, with what the first is to others. -/
def measure : List Char → Int × Follower
  | [] => (0, .other)
  | c :: rest =>
      let behind := measure rest
      let own := before c behind.2
      (own.1 + behind.1, own.2)

def ofCluster (cluster : List Char) : Nat :=
  (measure cluster).1.toNat

example : ofCluster ['日'] = 2 := by decide +kernel

example : ofCluster ['e', '\u0301'] = 1 := by decide +kernel

example : ofCluster ['👩', '\u200d', '🚀'] = 2 := by decide +kernel

example : ofCluster ['\u1780', '\u17d2', '\u1780'] = 1 := by decide +kernel

end Width

end Redstone

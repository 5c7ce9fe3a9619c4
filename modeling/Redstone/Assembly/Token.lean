import Redstone.Text.Blank

/-!
# Tokens

A source line is its code part and a comment that starts at a semicolon.  The
code part is split at blanks and commas.  A character between apostrophes is
one token whatever the character is, so that blanks, commas and semicolons can
be written as characters.
-/

namespace Redstone

structure Span where
  start : Nat
  length : Nat
  deriving DecidableEq, Repr

/-- A piece of a line, with the byte offset at which it starts. -/
structure Token where
  text : String
  column : Nat
  deriving DecidableEq, Repr

namespace Token

def span (token : Token) : Span :=
  ⟨token.column, token.text.utf8ByteSize⟩

def isAscii (c : Char) : Bool :=
  c.toNat < 128

def isSeparator (c : Char) : Bool :=
  Text.isAsciiBlank c || c == ','

/--
The number of characters in front of a comment, after `kept` others.  A
semicolon between apostrophes does not start one.
-/
def codeLength (kept : Nat) : List Char → Nat
  | [] => kept
  | '\'' :: c :: '\'' :: rest =>
      if isAscii c then codeLength (kept + 3) rest
      else codeLength (kept + 1) (c :: '\'' :: rest)
  | c :: rest => if c = ';' then kept else codeLength (kept + 1) rest

def codeChars (line : List Char) : List Char :=
  line.take (codeLength 0 line)

def code (line : String) : String :=
  String.ofList (codeChars line.toList)

def quoted (c : Char) : List Char :=
  ['\'', c, '\'']

/-- Tokens, newest first, after a word that began at `start` has ended. -/
def close (start : Nat) (word : List Char) (found : List Token) :
    List Token :=
  if word.isEmpty then found else ⟨String.ofList word.reverse, start⟩ :: found

/--
Goes through code from a column on.  The open word, backwards, began at
`start`, which is the column as long as the word is empty; `found` holds the
tokens before it, newest first.
-/
def scan (start column : Nat) (word : List Char) (found : List Token) :
    List Char → List Token
  | [] => (close start word found).reverse
  | '\'' :: c :: '\'' :: rest =>
      if word.isEmpty && isAscii c then
        scan (column + 3) (column + 3) []
          (⟨String.ofList (quoted c), column⟩ :: found) rest
      else scan start (column + 1) ('\'' :: word) found (c :: '\'' :: rest)
  | c :: rest =>
      if isSeparator c then
        scan (column + 1) (column + 1) [] (close start word found) rest
      else scan start (column + c.utf8Size) (c :: word) found rest

def ofChars (line : List Char) : List Token :=
  scan 0 0 [] [] (codeChars line)

def ofLine (line : String) : List Token :=
  ofChars line.toList

example : ofLine "é:LDI r1,';' ; c" =
    [⟨"é:LDI", 0⟩, ⟨"r1", 7⟩, ⟨"';'", 10⟩] := by decide

end Token

end Redstone

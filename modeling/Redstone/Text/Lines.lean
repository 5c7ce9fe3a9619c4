/-!
# Lines of a text

A line ends at a line feed, and a carriage return directly before that line
feed belongs to the line end.  A carriage return anywhere else is part of its
line.  A text that ends in a line feed has no empty line after it.
-/

namespace Redstone

namespace Text

/--
The pieces of a text between its line feeds.  There is always one piece more
than there are line feeds; the last piece is what follows the last line feed.
-/
def segments (cs : List Char) : List (List Char) :=
  cs.foldr
    (fun c pieces =>
      if c = '\n' then [] :: pieces
      else match pieces with
        | [] => [[c]]
        | piece :: rest => (c :: piece) :: rest)
    [[]]

theorem segments_nil : segments [] = [[]] := rfl

theorem segments_lineFeed (cs : List Char) :
    segments ('\n' :: cs) = [] :: segments cs := rfl

theorem segments_ne_nil (cs : List Char) : segments cs ≠ [] := by
  cases cs with
  | nil => simp [segments]
  | cons c rest =>
      simp only [segments, List.foldr_cons]
      split
      · simp
      · split <;> simp

/-- Removes one carriage return from the end of a line. -/
def dropReturn (line : List Char) : List Char :=
  if line.getLast? = some '\r' then line.dropLast else line

def lineChars (cs : List Char) : List (List Char) :=
  let pieces := segments cs
  let ended := pieces.dropLast.map dropReturn
  match pieces.getLast? with
  | some (c :: last) => ended ++ [c :: last]
  | _ => ended

def lines (s : String) : List String :=
  (lineChars s.toList).map String.ofList

example : lines "a\r\nb\rc\n\nd\r" = ["a", "b\rc", "", "d\r"] := by decide

end Text

end Redstone

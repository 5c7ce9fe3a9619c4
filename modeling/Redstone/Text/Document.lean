/-!
# Documents

Nested data in JSON notation, as far as a machine state needs it: numbers,
words of letters, truth values, lists, and records with named fields in a fixed
order.  A document is written on one line or spread over indented lines.
-/

namespace Redstone

/-- Nested data.  The words and names are letters only. -/
inductive Document where
  | number (value : Nat)
  | word (letters : String)
  | truth (value : Bool)
  | list (items : List Document)
  | record (fields : List (String × Document))

namespace Document

def quoted (letters : String) : String :=
  "\"" ++ letters ++ "\""

mutual

def compact : Document → String
  | number value => toString value
  | word letters => quoted letters
  | truth value => toString value
  | list items => "[" ++ ",".intercalate (compactItems items) ++ "]"
  | record fields =>
      "\x7b" ++ ",".intercalate (compactFields fields) ++ "\x7d"

def compactItems : List Document → List String
  | [] => []
  | item :: rest => item.compact :: compactItems rest

def compactFields : List (String × Document) → List String
  | [] => []
  | (name, value) :: rest =>
      (quoted name ++ ":" ++ value.compact) :: compactFields rest

end

/-- A line break and the indentation of a depth, two spaces for each level. -/
def lineBreak (depth : Nat) : String :=
  String.ofList ('\n' :: List.replicate (2 * depth) ' ')

def block (opening closing : String) (depth : Nat) (items : List String) :
    String :=
  if items.isEmpty then opening ++ closing
  else
    let separator := "," ++ lineBreak (depth + 1)
    opening ++ lineBreak (depth + 1) ++ separator.intercalate items ++
      lineBreak depth ++ closing

mutual

/-- A document with one item or field on each line, below a depth. -/
def indented (depth : Nat) : Document → String
  | number value => toString value
  | word letters => quoted letters
  | truth value => toString value
  | list items => block "[" "]" depth (indentedItems (depth + 1) items)
  | record fields =>
      block "\x7b" "\x7d" depth (indentedFields (depth + 1) fields)

def indentedItems (depth : Nat) : List Document → List String
  | [] => []
  | item :: rest => item.indented depth :: indentedItems depth rest

def indentedFields (depth : Nat) : List (String × Document) → List String
  | [] => []
  | (name, value) :: rest =>
      (quoted name ++ ": " ++ value.indented depth) ::
        indentedFields depth rest

end

end Document

end Redstone

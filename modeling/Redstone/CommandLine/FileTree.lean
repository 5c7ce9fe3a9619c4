/-!
# File trees

The files below one directory.  A directory is there when a file is in it.
Paths lead from that directory downwards; what lies outside cannot be reached.
-/

namespace Redstone

/-- Where a file is: the names of its directories and its own. -/
abbrev Location := List String

/-- The files below a directory, each with its contents. -/
structure FileTree where
  files : List (Location × List UInt8)
  deriving DecidableEq, Repr

namespace PathName

/-- The names in a path, with what stands between any two slashes. -/
def parts (path : String) : List String :=
  (path.toList.splitOn '/').map String.ofList

def maxNameSize : Nat :=
  255

def maxSize : Nat :=
  4095

/-- Whether a path, or a name in it, has too many bytes to lead anywhere. -/
def isTooLong (path : String) : Bool :=
  maxSize < path.utf8ByteSize ||
    (parts path).any fun name => maxNameSize < name.utf8ByteSize

def splitName (path : String) : List Char × List Char :=
  let backwards := path.toList.reverse
  ((backwards.dropWhile (· != '/')).reverse,
    (backwards.takeWhile (· != '/')).reverse)

/--
A file name up to its last dot, and what is behind the dot.  A dot in front of
the name does not count.
-/
def splitDot (name : List Char) : List Char × Option (List Char) :=
  let backwards := name.reverse
  match backwards.dropWhile (· != '.') with
  | [] | ['.'] => (name, none)
  | _ :: stem =>
      if name = ['.', '.'] then (name, none)
      else (stem.reverse, some (backwards.takeWhile (· != '.')).reverse)

def extension? (path : String) : Option String :=
  (splitDot (splitName path).2).2.map String.ofList

/--
A path with another extension, or with one if it has none.  The old one is taken
away first: if the path then leads to a directory, it stays like that.
-/
def withExtension (path extension : String) : String :=
  let (directories, name) := splitName path
  let (stem, old) := splitDot name
  let bare := if old.isSome then stem ++ ['.'] else stem
  if bare = [] ∨ bare = ['.'] ∨ bare = ['.', '.'] then
    String.ofList (directories ++ bare)
  else
    String.ofList (directories ++ stem ++ ['.']) ++ extension

example : withExtension "d.x/a.b.asm" "bin" = "d.x/a.b.bin" := by decide

example : withExtension ".asm" "bin" = ".asm.bin" := by decide

example : withExtension "d/..asm" "bin" = "d/.." := by decide

end PathName

namespace FileTree

def ofFiles (files : List (String × List UInt8)) : FileTree where
  files := files.map fun (path, contents) => (PathName.parts path, contents)

def file? (tree : FileTree) (location : Location) : Option (List UInt8) :=
  tree.files.lookup location

def isDirectory (tree : FileTree) (location : Location) : Bool :=
  location.isEmpty || tree.files.any fun (other, _) =>
    location.isPrefixOf other && other != location

/-- Follows names from a location on; only directories lead further. -/
def follow (tree : FileTree) (location : Location) :
    List String → Option Location
  | [] => some location
  | name :: rest =>
      if !tree.isDirectory location then none
      else if name = "" ∨ name = "." then follow tree location rest
      else if name = ".." then
        if location.isEmpty then none else follow tree location.dropLast rest
      else follow tree (location ++ [name]) rest

def locate (tree : FileTree) (path : String) : Option Location :=
  if path.toList.head? = some '/' ∨ PathName.isTooLong path then none
  else tree.follow [] (PathName.parts path)

def read? (tree : FileTree) (path : String) : Option (List UInt8) :=
  (tree.locate path).bind tree.file?

def put (tree : FileTree) (location : Location) (contents : List UInt8) :
    FileTree where
  files :=
    if (tree.file? location).isSome then
      tree.files.map fun (other, old) =>
        (other, if other = location then contents else old)
    else tree.files ++ [(location, contents)]

/-- Writes the file that a path leads to; a directory cannot be written. -/
def write? (tree : FileTree) (path : String) (contents : List UInt8) :
    Option FileTree :=
  match tree.locate path with
  | none => none
  | some location =>
      if tree.isDirectory location then none
      else some (tree.put location contents)

/-- The files of a tree that another one does not have with these contents. -/
def changes (before after : FileTree) : List (String × List UInt8) :=
  (after.files.filter fun (location, contents) =>
    before.file? location != some contents).map fun (location, contents) =>
      ("/".intercalate location, contents)

end FileTree

end Redstone

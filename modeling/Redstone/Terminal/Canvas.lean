import Redstone.Text.Cluster
import Redstone.Text.Width

/-!
# Canvas

Rows of styled cells and framed boxes of them.  A cell has one column and holds
a character, or all the characters of a cluster.  A wide cluster is in the first
of its cells, and those behind it are blank.
-/

namespace Redstone

/-- The colours in use; `reset` is the default of the window. -/
inductive Colour where
  | reset | black | cyan | yellow | green | white | darkGray
  deriving DecidableEq, Repr

structure Style where
  foreground : Colour
  background : Colour
  bold : Bool
  blink : Bool
  deriving DecidableEq, Repr

namespace Style

def coloured (colour : Colour) : Style where
  foreground := colour
  background := .reset
  bold := false
  blink := false

def plain : Style :=
  coloured .reset

end Style

/-- A column of a row: a character, or a cluster that is drawn as one. -/
structure Cell where
  glyph : List Char
  style : Style
  deriving DecidableEq, Repr

namespace Cell

def ofChar (style : Style) (c : Char) : Cell where
  glyph := [c]
  style := style

def blank (style : Style) : Cell :=
  ofChar style ' '

end Cell

abbrev Row := List Cell

namespace Row

def styled (style : Style) (cs : List Char) : Row :=
  cs.map (Cell.ofChar style)

def text (row : Row) : String :=
  String.ofList (row.flatMap Cell.glyph)

/--
The cells of a cluster.  A wide cluster covers the cell after its own, which
stays as it was before anything was drawn; further ones are filled.
-/
def ofCluster (style : Style) (cluster : List Char) : Row :=
  match Width.ofCluster cluster with
  | 0 => []
  | 1 => [⟨cluster, style⟩]
  | beyond + 2 =>
      ⟨cluster, style⟩ :: Cell.blank .plain ::
        List.replicate beyond (Cell.blank style)

theorem length_ofCluster (style : Style) (cluster : List Char) :
    (ofCluster style cluster).length = Width.ofCluster cluster := by
  unfold ofCluster
  split <;> simp_all

/-- The clusters in front of the first one that finds no room in `width` columns. -/
def fitting (width : Nat) : List (List Char) → List (List Char)
  | [] => []
  | cluster :: rest =>
      let columns := Width.ofCluster cluster
      if columns ≤ width then cluster :: fitting (width - columns) rest else []

theorem length_flatMap_fitting_le (style : Style) (width : Nat)
    (clusters : List (List Char)) :
    ((fitting width clusters).flatMap (ofCluster style)).length ≤ width := by
  induction clusters generalizing width with
  | nil => simp [fitting]
  | cons cluster rest ih =>
      simp only [fitting]
      split
      · have room := ih (width - Width.ofCluster cluster)
        simp only [List.flatMap_cons, List.length_append, length_ofCluster]
        omega
      · simp

/--
The part of a text that has room in `width` columns.  Clusters wider than the
whole room are left out; any other that finds no room ends the row.
-/
def ofText (width : Nat) (style : Style) (cs : List Char) : Row :=
  let clusters := (Cluster.split cs).filter (Width.ofCluster · ≤ width)
  (fitting width clusters).flatMap (ofCluster style)

theorem length_ofText_le (width : Nat) (style : Style) (cs : List Char) :
    (ofText width style cs).length ≤ width :=
  length_flatMap_fitting_le style width _

/-- A row of exactly `width` cells: cut off, or filled up with spaces. -/
def fit (width : Nat) (filler : Style) (row : Row) : Row :=
  (row.take width).rightpad width (Cell.blank filler)

theorem length_fit (width : Nat) (filler : Style) (row : Row) :
    (row.fit width filler).length = width := by
  simp only [fit, List.length_rightpad, List.length_take]
  omega

end Row

/-- How a box is drawn: its outer size, its title and its two styles. -/
structure Frame where
  width : Nat
  height : Nat
  title : String
  border : Style
  inside : Style
  deriving DecidableEq, Repr

namespace Frame

def innerWidth (frame : Frame) : Nat :=
  frame.width - 2

def innerHeight (frame : Frame) : Nat :=
  frame.height - 2

def edge (frame : Frame) (left right : Char) (title : List Char) : Row :=
  let line := (title.take frame.innerWidth).rightpad frame.innerWidth '─'
  Row.styled frame.border (left :: (line ++ [right]))

def side (frame : Frame) (content : Row) : Row :=
  let bar := Cell.ofChar frame.border '│'
  bar :: (content.fit frame.innerWidth frame.inside ++ [bar])

def draw (frame : Frame) (contents : List Row) : List Row :=
  let rows := (contents.take frame.innerHeight).rightpad frame.innerHeight []
  frame.edge '┌' '┐' frame.title.toList ::
    (rows.map frame.side ++ [frame.edge '└' '┘' []])

end Frame

end Redstone

import Reckon.Error

/-! From records to columns. The first record names the columns, no two of which end up
with one name; the others are brought to one width. -/

namespace Reckon.Columns

/-- A free name made from `name` by a number, the least one not below `count`. -/
def freeName (header : List String) (name : String) (count : Nat) : String × Nat :=
  let numbers := List.range' count (header.length + 1)
  let number := (numbers.find? fun n => !header.contains s!"{name}.{n}").getD count
  (s!"{name}.{number}", number + 1)

/-- Gives the columns at `places` their final names, where `counts` says how often each
name was met. The first column of a name keeps it. -/
def distinguish (counts : List (String × Nat)) (header : List String) :
    List Nat → List String
  | [] => header
  | place :: places =>
    let name := header.getD place ""
    match counts.lookup name with
    | none => distinguish ((name, 1) :: counts) header places
    | some count =>
      let (free, next) := freeName header name count
      distinguish ((free, 1) :: (name, next) :: counts) (header.set place free) places

/-- The names of the columns. A column without one is named for its place, after all
that have one. -/
def names (header : List String) : List String :=
  let places := List.range header.length
  let (unnamed, named) := places.partition fun place => header.getD place "" == ""
  let filled := header.mapIdx fun place name => if name == "" then s!"Unnamed: {place}" else name
  distinguish [] filled (named ++ unnamed)

def pad (width : Nat) (row : List String) : List String :=
  row ++ List.replicate (width - row.length) ""

/-- The rows behind the first one may be shorter than it, but not longer. -/
def align (width : Nat) : List (List String) → Except Failure (List (List String))
  | [] => .ok []
  | row :: rest =>
    if width < row.length then .error .brokenTable else (pad width row :: ·) <$> align width rest

/-- The first row sets the width, which is at least that of the header. -/
def rowWidth (header : List String) (rows : List (List String)) : Nat :=
  max header.length ((rows.head?.map List.length).getD 0)

/-- The cells of one column, from the top. Where the rows are longer than the header,
the fields in front of the first column label the rows. -/
def column (wanted : String) (table : List (List String)) : Except Failure (List String) :=
  match table with
  | [] => .error .emptyTable
  | header :: rows => do
    let width := rowWidth header rows
    let aligned ← align width rows
    match (names header).idxOf? wanted with
    | none => .error (.refused (.missingColumn wanted))
    | some place =>
      return aligned.map fun row => row.getD (width - header.length + place) ""

end Reckon.Columns

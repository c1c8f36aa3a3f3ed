import Reckon.Error

/-! Files and the paths that lead to them. A place is given by the names that lead there
from the current directory; an absolute one begins with the name of the root. -/

namespace Reckon.Files

inductive Item where
  | directory
  | file (text : String)
deriving DecidableEq, Repr

abbrev Place := List String

/-- What stands at each place. -/
abbrev Tree := Place → Option Item

def root : String := "/"

def isAbsolute (path : String) : Bool :=
  path.toList.head? == some '/'

/-- The names in a path, from left to right. -/
def names (path : String) : List String :=
  (if isAbsolute path then [root] else []) ++
    ((path.toList.splitOn '/').map String.ofList).filter (· != "")

/-- One name further. Above the current directory every step up is kept. -/
def enter (place : Place) (name : String) : Place :=
  if name = "." then place
  else if name = ".." then
    if place = [root] then place
    else if place = [] ∨ place.getLast? = some ".." then place ++ [name]
    else place.dropLast
  else place ++ [name]

/-- The place of a path, whether anything stands there or not. -/
def placeOf (path : String) : Place :=
  (names path).foldl enter []

def pathOf (place : Place) : String :=
  match place with
  | [] => "."
  | first :: rest =>
    if first = root then root ++ "/".intercalate rest else "/".intercalate place

/-- A path whose first name is a tilde begins at the home directory. -/
def fromHome (home path : String) : String :=
  if path = "~" then home
  else if path.startsWith "~/" then home ++ path.drop 1
  else path

/-- The greatest count of bytes in a name, and one more than that in a path. -/
def nameLimit : Nat := 255

def pathLimit : Nat := 4096

def usableName (name : String) : Bool :=
  name.utf8ByteSize ≤ nameLimit

/-- A step along a path, which only a directory allows. -/
def step (tree : Tree) (place : Place) (name : String) : Except Failure Place :=
  match if name = root then some Item.directory else tree place with
  | none => .error .missingFile
  | some (.file _) => .error .notDirectory
  | some .directory => if usableName name then .ok (enter place name) else .error .unusablePath

def walk (tree : Tree) (names : List String) : Except Failure Place :=
  names.foldlM (step tree) []

theorem walk_append (tree : Tree) (first second : List String) :
    walk tree (first ++ second) = walk tree first >>= second.foldlM (step tree) := by
  simp [walk]

/-- What is asked of the text of any path. -/
def checkText (path : String) : Except Failure Unit :=
  if path = "" then .error .missingFile
  else if path.toList.contains '\x00' then .error (.refused .nullInPath)
  else if pathLimit ≤ path.utf8ByteSize then .error .unusablePath
  else .ok ()

/-- The text of the file that a path leads to. A path that ends in a slash leads to no
file. -/
def read (tree : Tree) (path : String) : Except Failure String := do
  checkText path
  let place ← walk tree (names path)
  match tree place with
  | none => .error .missingFile
  | some .directory => .error .isDirectory
  | some (.file text) => if path.endsWith "/" then .error .notDirectory else .ok text

/-- Whether a directory stands in front of the last name of a path. -/
def hasParent (tree : Tree) (path : String) : Bool :=
  let inner := ((names path).filter (· != ".")).dropLast
  let inner := if isAbsolute path && inner.isEmpty then [root] else inner
  match walk tree inner with
  | .ok place => tree place == some .directory
  | .error _ => false

/-- The place of a file that is about to be created or written over. Whether its name can
be used is asked last. -/
def target (tree : Tree) (path : String) : Except Failure Place := do
  if !hasParent tree path then .error .unusablePath
  checkText path
  let parent ← walk tree ((names path).dropLast ++ ["."])
  let ending := (names path).getLast?.getD "."
  if path.endsWith "/" || ending == "." || ending == ".." then .error .isDirectory
  let place ← step tree parent ending
  if tree place == some .directory then .error .isDirectory else .ok place

end Reckon.Files

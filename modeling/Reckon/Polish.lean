import Reckon.Error

/-! Reverse Polish order: every operator stands behind its operands. A row of items is
put into that order by the role that each item plays, with a stack of those that wait. -/

namespace Reckon.Polish

inductive Role where
  /-- Complete in itself, or acts on the operand just before it. -/
  | operand
  /-- Waits for the closing of the parentheses that follow it. -/
  | function
  /-- Stands before its operand, which is still to come. -/
  | leading (level : Rat)
  | binary (level : Rat)
  | opening
  | closing
  /-- Waits without taking operands and leaves with whatever waits above it. -/
  | idle
deriving DecidableEq

/-- How tightly a waiting operator holds the operand on its right. -/
def Role.level? : Role → Option Rat
  | leading level | binary level => some level
  | _ => none

variable {α : Type} (role : α → Role)

/-- A waiting operator acts before an arriving one that does not bind tighter, so a
chain on one level is taken from the left. -/
def actsBefore (level : Rat) (waiting : α) : Bool :=
  (role waiting).level?.any (level ≤ ·)

def isOpening (waiting : α) : Bool :=
  role waiting == .opening

/-- What leaves when parentheses close, and what keeps waiting: everything above the
opening one goes, and the function in front of it. -/
def close? (stack : List α) : Option (List α × List α) :=
  let inside := stack.takeWhile (!isOpening role ·)
  match stack.dropWhile (!isOpening role ·) with
  | [] => none
  | _ :: [] => some (inside, [])
  | _ :: below :: rest =>
    if role below = .function then some (inside ++ [below], rest)
    else some (inside, below :: rest)

/-- Everything that leaves from here on, while the items of `stack` wait. -/
def arrange : List α → List α → Except Cause (List α)
  | stack, [] => if stack.any (isOpening role) then .error .unmatchedOpening else .ok stack
  | stack, item :: rest =>
    match role item with
    | .operand => (item :: ·) <$> arrange stack rest
    | .function | .leading _ | .opening | .idle => arrange (item :: stack) rest
    | .binary level =>
      (stack.takeWhile (actsBefore role level) ++ ·) <$>
        arrange (item :: stack.dropWhile (actsBefore role level)) rest
    | .closing =>
      match close? role stack with
      | none => .error .unmatchedClosing
      | some (leaving, waiting) => (leaving ++ ·) <$> arrange waiting rest

def reorder (items : List α) : Except Cause (List α) :=
  arrange role [] items

end Reckon.Polish

import Mathlib.Data.List.Basic
import Reckon.Files
import Reckon.Proofs.LexerSteps

/-! A file that is written and read again. Writing it takes no directory away, so that its path
still leads to it. -/

namespace Reckon.Proofs.WrittenFile
open Files

def put (tree : Tree) (place : Place) (text : String) : Tree :=
  fun other => if other = place then some (.file text) else tree other

variable {tree : Tree} {place found : Place} {path text : String}

/-- A path without a slash is the name of what it leads to. -/
theorem names_of_single (filled : path ≠ "") (single : '/' ∉ path.toList) : names path = [path] := by
  have relative : isAbsolute path = false := by
    rw [isAbsolute, beq_eq_false_iff_ne]
    exact fun slash => single (List.mem_of_mem_head? slash)
  have whole : path.toList.splitOn '/' = [path.toList] := List.splitOn_eq_singleton single
  rw [names, relative, whole]
  simp [filled]

private theorem put_same : put tree place text place = some (.file text) :=
  if_pos rfl

/-- A step that a directory allowed is still allowed when something else was written over. -/
theorem step_put (noDirectory : tree place ≠ some .directory) {start next : Place} {name : String}
    (stepped : step tree start name = .ok next) : step (put tree place text) start name = .ok next := by
  by_cases atRoot : name = root
  · simp only [step, if_pos atRoot] at stepped ⊢
    exact stepped
  · simp only [step, if_neg atRoot] at stepped ⊢
    cases item : tree start with
    | none => rw [item] at stepped; cases stepped
    | some kind =>
      cases kind with
      | file _ => rw [item] at stepped; cases stepped
      | directory =>
        have other : start ≠ place := by
          rintro rfl
          exact noDirectory item
        rw [put, if_neg other, item]
        rw [item] at stepped
        exact stepped

private theorem walk_put (noDirectory : tree place ≠ some .directory) {names : List String} {start : Place}
    (walked : names.foldlM (step tree) start = .ok found) :
    names.foldlM (step (put tree place text)) start = .ok found := by
  induction names generalizing start with
  | nil => exact walked
  | cons name names ih =>
    rw [List.foldlM_cons] at walked ⊢
    obtain ⟨next, stepped, walked⟩ := Lexer.bind_ok walked
    rw [step_put noDirectory stepped]
    exact ih walked

/-- A step by a dot stays where it is, in a directory. -/
theorem step_dot {start next : Place} (stepped : step tree start "." = .ok next) : next = start := by
  have noRoot : "." ≠ root := by decide
  simp only [step, if_neg noRoot] at stepped
  split at stepped
  · cases stepped
  · cases stepped
  · have usable : usableName "." = true := by decide
    rw [if_pos usable, enter, if_pos rfl] at stepped
    exact (Except.ok.inj stepped).symm

/-- What a path fulfils at which a file can be written. -/
structure Leads (tree : Tree) (path : String) (place : Place) : Prop where
  checked : checkText path = .ok ()
  walked : walk tree (names path) = .ok place
  noSlash : path.endsWith "/" = false
  noDirectory : tree place ≠ some .directory

/-- The walk to the directory and the step to the name are the walk along the whole path. -/
theorem walk_names {parent : Place} (walked : walk tree ((names path).dropLast ++ ["."]) = .ok parent)
    (named : (names path).getLast?.getD "." ≠ ".")
    (stepped : step tree parent ((names path).getLast?.getD ".") = .ok place) :
    walk tree (names path) = .ok place := by
  rw [walk_append] at walked
  obtain ⟨inner, walked, stayed⟩ := Lexer.bind_ok walked
  obtain ⟨next, dot, last⟩ := Lexer.bind_ok stayed
  have same : parent = inner := (Except.ok.inj last).symm.trans (step_dot dot)
  cases final : (names path).getLast? with
  | none => exact absurd (by rw [final]; rfl) named
  | some ending =>
    rw [final, Option.getD_some, same] at stepped
    rw [← List.dropLast_append_getLast? ending final, walk_append, walked]
    exact congrArg (· >>= pure) stepped

private theorem leads_of_target (found : target tree path = .ok place) : Leads tree path place := by
  simp only [target] at found
  split at found
  · cases found
  · obtain ⟨_, checked, found⟩ := Lexer.bind_ok found
    obtain ⟨parent, walked, found⟩ := Lexer.bind_ok found
    split at found
    · cases found
    · next named =>
      simp only [Bool.or_eq_true, beq_iff_eq, not_or, Bool.not_eq_true] at named
      obtain ⟨next, stepped, found⟩ := Lexer.bind_ok found
      split at found
      · cases found
      · next noDirectory =>
        cases found
        exact ⟨checked, walk_names walked named.1.2 stepped, named.1.1, by simpa using noDirectory⟩

/-- What was written at a path is read at it. -/
theorem read_put (found : target tree path = .ok place) (text : String) :
    Files.read (put tree place text) path = .ok text := by
  have leads := leads_of_target found
  have walked : walk (put tree place text) (names path) = .ok place :=
    walk_put leads.noDirectory leads.walked
  simp only [Files.read, leads.checked, walked, bind, Except.bind, put_same, leads.noSlash]
  rfl

end Reckon.Proofs.WrittenFile

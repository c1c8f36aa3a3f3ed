import Reckon.Proofs.LatestQueries

/-! What a request does to an evaluator. It finds its query, or its evaluation fails, or there
is no room for its value, or the value is kept, and what is then too much is given up one entry
after another. In none of these ways does the memory itself fail. -/

namespace Reckon.Proofs.EvaluatorEffects
open Evaluator LatestQueries Transparency

section Entries

variable {κ ν : Type} {size : Int} {entries after : List (κ × ν)}

/-- The least recent entry is given up as long as there are more entries than the size. From an
empty memory there is nothing to give up. -/
inductive GivesUp (size : Int) : List (κ × ν) → List (κ × ν) → Prop
  | enough {entries : List (κ × ν)} (few : entries.length ≤ size) : GivesUp size entries entries
  | oldest {entry : κ × ν} {rest after : List (κ × ν)} (many : size < (entry :: rest).length)
      (others : GivesUp size rest after) : GivesUp size (entry :: rest) after

theorem GivesUp.suffix (gives : GivesUp size entries after) : after <:+ entries := by
  induction gives with
  | enough few => exact List.suffix_refl _
  | oldest many others ih => exact ih.trans (List.suffix_cons ..)

theorem GivesUp.length_le (gives : GivesUp size entries after) : after.length ≤ size := by
  induction gives with
  | enough few => exact few
  | oldest many others ih => exact ih

private theorem givesUp_trim (room : 0 ≤ size) (entries : List (κ × ν)) :
    GivesUp size entries (Recency.trim (min entries.length size.toNat) entries) := by
  induction entries with
  | nil => exact .enough room
  | cons entry rest ih =>
    by_cases few : (entry :: rest).length ≤ size
    · have all : min (entry :: rest).length size.toNat = (entry :: rest).length := by omega
      rw [all, Recency.trim, Nat.sub_self, List.drop_zero]
      exact .enough few
    · have dropped : (entry :: rest).length - min (entry :: rest).length size.toNat =
          rest.length - min rest.length size.toNat + 1 := by
        rw [List.length_cons] at few ⊢
        omega
      rw [Recency.trim, dropped, List.drop_succ_cons]
      exact .oldest (Int.not_le.mp few) ih

variable [DecidableEq κ] {key : κ}

theorem length_put_le (key : κ) (value : ν) (entries : List (κ × ν)) :
    (Recency.put key value entries).length ≤ entries.length + 1 := by
  rw [Recency.put, List.length_append, List.length_singleton]
  exact Nat.succ_le_succ (List.length_filter_le _ _)

/-- A key that is there already only changes its place. -/
theorem length_put_of_mem {known : ν} (member : (key, known) ∈ entries) (value : ν) :
    (Recency.put key value entries).length ≤ entries.length := by
  have shorter : (Recency.erase key entries).length < entries.length :=
    List.length_filter_lt_length_iff_exists.mpr ⟨(key, known), member, by simp⟩
  rw [Recency.put, List.length_append, List.length_singleton]
  exact shorter

end Entries

inductive Effect (config : Config) (evaluator : Evaluator) (size : Int) (text? : Option String)
    (mode? : Option AngleMode) : Except Failure Float × Evaluator → Prop where
  | hit {value : Float}
      (found : evaluator.remembered.lookup (evaluator.query text? mode?) = some value) :
      Effect config evaluator size text? mode? (.ok value, { evaluator with
        remembered := Recency.put (evaluator.query text? mode?) value evaluator.remembered
        hits := evaluator.hits + 1 })
  | failed {failure : Failure}
      (failed : Reckon.evaluate config (mode?.getD evaluator.mode) text? = .error failure) :
      Effect config evaluator size text? mode?
        (.error failure, { evaluator with misses := evaluator.misses + 1 })
  | passed {value : Float} (closed : size ≤ 0) :
      Effect config evaluator size text? mode?
        (.ok value, { evaluator with misses := evaluator.misses + 1 })
  | kept {value : Float} {entries : List (Query × Float)} (room : 0 < size)
      (gives : GivesUp size
        (Recency.put (evaluator.query text? mode?) value evaluator.remembered) entries) :
      Effect config evaluator size text? mode? (.ok value, { evaluator with
        remembered := entries
        misses := evaluator.misses + 1 })

variable {config : Config} {evaluator : Evaluator} {size : Int} {text? : Option String}
  {mode? : Option AngleMode}

/-- A size that is a whole number can be compared, and what was put is there to be given up. -/
theorem remember_cases (capacity : evaluator.capacity = .integer size) (query : Query)
    (value : Float) :
    (size ≤ 0 ∧ evaluator.remember query value = .ok evaluator) ∨
      ∃ entries, 0 < size ∧ GivesUp size (Recency.put query value evaluator.remembered) entries ∧
        evaluator.remember query value = .ok { evaluator with remembered := entries } := by
  rw [remember, capacity, Datum.below?_integer]
  by_cases room : 0 < size
  · rw [decide_eq_true room]
    exact .inr ⟨_, room, givesUp_trim (Int.le_of_lt room) _, rfl⟩
  · rw [decide_eq_false room]
    exact .inl ⟨Int.not_lt.mp room, rfl⟩

theorem evaluate_effect (capacity : evaluator.capacity = .integer size) (config : Config)
    (text? : Option String) (mode? : Option AngleMode) :
    Effect config evaluator size text? mode? (evaluator.evaluate config text? mode?) := by
  rw [Evaluator.evaluate]
  cases found : evaluator.remembered.lookup (evaluator.query text? mode?) with
  | some value => exact .hit found
  | none =>
    have missed : ({ evaluator with misses := evaluator.misses + 1 } : Evaluator).capacity =
        .integer size := capacity
    cases outcome : Reckon.evaluate config (evaluator.query text? mode?).2 text? with
    | error failure => exact .failed outcome
    | ok value =>
      rcases remember_cases missed (evaluator.query text? mode?) value with
        ⟨closed, same⟩ | ⟨entries, room, gives, same⟩
      · simp only [same]
        exact .passed closed
      · simp only [same]
        exact .kept room gives

private theorem capacity_of_remember {query : Query} {value : Float} {after : Evaluator}
    (kept : evaluator.remember query value = .ok after) : after.capacity = evaluator.capacity := by
  rw [remember] at kept
  split at kept
  · cases kept
  · cases kept
    rfl
  · cases kept
    rfl

/-- The capacity is changed by nothing but setting it. -/
theorem capacity_evaluate (config : Config) (evaluator : Evaluator) (text? : Option String)
    (mode? : Option AngleMode) :
    (evaluator.evaluate config text? mode?).2.capacity = evaluator.capacity := by
  rw [Evaluator.evaluate]
  cases evaluator.remembered.lookup (evaluator.query text? mode?) with
  | some value => rfl
  | none =>
    dsimp only
    cases Reckon.evaluate config (evaluator.query text? mode?).2 text? with
    | error failure => rfl
    | ok value =>
      dsimp only
      split
      · rfl
      · rename_i after kept
        have same := capacity_of_remember kept
        exact same

private theorem capacity_tryEvaluate (config : Config) (evaluator : Evaluator) (text? : Option String)
    (mode? : Option AngleMode) :
    (evaluator.tryEvaluate config text? mode?).2.capacity = evaluator.capacity := by
  rw [tryEvaluate_snd, capacity_evaluate]

private theorem capacity_evaluateLines (config : Config) (evaluator : Evaluator) (mode? : Option AngleMode)
    (lines : List (Datum × String)) :
    (evaluator.evaluateLines config mode? lines).2.capacity = evaluator.capacity := by
  induction lines generalizing evaluator with
  | nil => rfl
  | cons line rest ih =>
    have kept := capacity_tryEvaluate config evaluator (some line.2) mode?
    rw [Evaluator.evaluateLines]
    generalize evaluator.tryEvaluate config (some line.2) mode? = outcome at kept
    obtain ⟨outcome, after⟩ := outcome
    cases outcome with
    | error failure => exact kept
    | ok attempt => exact (ih after).trans kept

private theorem capacity_evaluateMany (config : Config) (evaluator : Evaluator) (mode? : Option AngleMode)
    (batch : Series) :
    (evaluator.evaluateMany config mode? batch).2.capacity = evaluator.capacity := by
  rw [Evaluator.evaluateMany]
  cases batch.lines with
  | error failure => rfl
  | ok lines => exact capacity_evaluateLines config evaluator mode? lines

def capacityAfter (capacity : Datum) : Task → Datum
  | .resize set => set
  | .evaluate .. | .attempt .. | .batch .. | .clear => capacity

theorem capacity_perform (config : Config) (evaluator : Evaluator) (task : Task) :
    (evaluator.perform config task).2.capacity = capacityAfter evaluator.capacity task := by
  cases task with
  | evaluate text? mode? => exact capacity_evaluate config evaluator text? mode?
  | attempt text? mode? => exact capacity_tryEvaluate config evaluator text? mode?
  | batch values mode? => exact capacity_evaluateMany config evaluator mode? values
  | clear => rfl
  | resize capacity => rfl

inductive Reaches (config : Config) (mode? : Option AngleMode) :
    Evaluator → List (Datum × String) → Evaluator → String → Prop
  | line {evaluator : Evaluator} {label : Datum} {text : String} {rest : List (Datum × String)} :
      Reaches config mode? evaluator ((label, text) :: rest) evaluator text
  | later {evaluator after found : Evaluator} {label : Datum} {text other : String}
      {rest : List (Datum × String)} {attempt : Float × Option Kind}
      (answered : evaluator.tryEvaluate config (some text) mode? = (.ok attempt, after))
      (reaches : Reaches config mode? after rest found other) :
      Reaches config mode? evaluator ((label, text) :: rest) found other

/-- A task makes a request of the evaluator that it finds when it comes to it. A batch makes one
for each of its lines as long as they have rows. -/
inductive Asks (config : Config) (evaluator : Evaluator) :
    Task → Evaluator → Option String → Option AngleMode → Prop
  | evaluate {text? : Option String} {mode? : Option AngleMode} :
      Asks config evaluator (.evaluate text? mode?) evaluator text? mode?
  | attempt {text? : Option String} {mode? : Option AngleMode} :
      Asks config evaluator (.attempt text? mode?) evaluator text? mode?
  | line {found : Evaluator} {batch : Series} {lines : List (Datum × String)} {text : String}
      {mode? : Option AngleMode} (written : batch.lines = .ok lines)
      (reaches : Reaches config mode? evaluator lines found text) :
      Asks config evaluator (.batch batch mode?) found (some text) mode?

private theorem capacity_of_reaches {lines : List (Datum × String)} {found : Evaluator} {text : String}
    (reaches : Reaches config mode? evaluator lines found text) :
    found.capacity = evaluator.capacity := by
  induction reaches with
  | line => rfl
  | @later evaluator _ _ _ text _ _ _ answered _ ih =>
    have kept := capacity_tryEvaluate config evaluator (some text) mode?
    rw [answered] at kept
    exact ih.trans kept

theorem capacity_of_asks {task : Task} {found : Evaluator}
    (asks : Asks config evaluator task found text? mode?) :
    found.capacity = evaluator.capacity := by
  cases asks with
  | evaluate | attempt => rfl
  | line _ reaches => exact capacity_of_reaches reaches

end Reckon.Proofs.EvaluatorEffects

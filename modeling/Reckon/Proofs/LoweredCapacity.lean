import Reckon.Proofs.BatchRows
import Reckon.Proofs.EvaluatorEffects

/-! How many entries are left when the capacity is lowered. What is too much goes with the next
value that is kept. A capacity of zero keeps none, so that under it older entries stay. -/

namespace Reckon.Proofs.LoweredCapacity
open Evaluator BatchRows EvaluatorEffects

def IsCount (capacity : Datum) : Prop :=
  ∃ size : Nat, capacity = .integer size

def SetsCount : Task → Prop
  | .resize capacity => IsCount capacity
  | .evaluate .. | .attempt .. | .batch .. | .clear => True

variable {config : Config} {evaluator found later : Evaluator} {tasks : List Task} {size : Nat}
  {text? : Option String} {mode? : Option AngleMode} {value : Float}

private theorem isCount_after (count : IsCount evaluator.capacity) (sets : ∀ task ∈ tasks, SetsCount task) :
    IsCount (after config evaluator tasks).capacity := by
  induction tasks generalizing evaluator with
  | nil => exact count
  | cons task rest ih =>
    rw [List.forall_mem_cons] at sets
    refine ih ?_ sets.2
    rw [capacity_perform]
    cases task with
    | resize capacity => exact sets.1
    | _ => exact count

/-- A request that missed and has a value leaves no more entries than there is room for, if
there is room at all. Otherwise it leaves the entries it found. -/
theorem entries_of_missed (capacity : found.capacity = .integer size)
    (answered : found.evaluate config text? mode? = (.ok value, later))
    (missed : later.misses = found.misses + 1) :
    (0 < size ∧ later.remembered.length ≤ size) ∨
      (size = 0 ∧ later.remembered = found.remembered) := by
  have effect := evaluate_effect capacity config text? mode?
  rw [answered] at effect
  cases effect with
  | hit known => exact absurd missed (Nat.ne_of_lt (Nat.lt_succ_self _))
  | passed closed => exact .inr ⟨by omega, rfl⟩
  | kept room gives => exact .inl ⟨Int.natCast_pos.mp room, Int.ofNat_le.mp gives.length_le⟩

/-- In every run, directly behind each request that missed and has a value, a line of a batch
included, the capacity bounds the entries, unless it is zero and some were there before. -/
theorem bounded_behind_miss {config : Config} {capacity? : Option Datum} {mode? : Option AngleMode}
    {tasks : List Task} {task : Task} {found later : Evaluator} {text? : Option String}
    {unit? : Option AngleMode} {value : Float} (count : IsCount (capacity?.getD config.cacheSize))
    (sets : ∀ task ∈ tasks, SetsCount task)
    (asks : Asks config (after config (Evaluator.new config capacity? mode?) tasks) task found
      text? unit?)
    (answered : found.evaluate config text? unit? = (.ok value, later))
    (missed : later.misses = found.misses + 1) :
    ∃ size : Nat, later.capacity = .integer size ∧
      (later.remembered.length ≤ size ↔ 0 < size ∨ found.remembered = []) := by
  have first : IsCount (Evaluator.new config capacity? mode?).capacity := count
  obtain ⟨size, reached⟩ := isCount_after first sets
  have capacity := (capacity_of_asks asks).trans reached
  have kept := capacity_evaluate config found text? unit?
  rw [answered, capacity] at kept
  refine ⟨size, kept, ?_⟩
  rcases entries_of_missed capacity answered missed with ⟨room, few⟩ | ⟨none, same⟩
  · exact iff_of_true few (.inl room)
  · rw [none, same, Nat.le_zero, List.length_eq_zero_iff]
    exact (or_iff_right (Nat.lt_irrefl 0)).symm

theorem bounded_behind_miss_closed :
    let tasks : List Task := [.evaluate (some "1") none, .resize (.integer 0)]
    let found := after {} (Evaluator.new {} (some (.integer 2)) none) tasks
    IsCount (.integer 2) ∧ (∀ task ∈ tasks, SetsCount task) ∧
      ∃ value later, found.evaluate {} (some "2") none = (.ok value, later) ∧
        later.misses = found.misses + 1 ∧ later.capacity = .integer 0 ∧
        ¬ later.remembered.length ≤ 0 := by
  intro tasks found
  have sets : ∀ task ∈ tasks, SetsCount task :=
    List.forall_mem_cons.mpr ⟨trivial, List.forall_mem_singleton.mpr ⟨0, rfl⟩⟩
  have valued : (found.evaluate {} (some "2") none).1.toOption = some 2.0 := by decide +kernel
  have missed : (found.evaluate {} (some "2") none).2.misses = found.misses + 1 := by
    decide +kernel
  have closed : (found.evaluate {} (some "2") none).2.capacity = .integer 0 := by decide +kernel
  have filled : found.remembered.length = 1 := by decide +kernel
  cases known : found.evaluate {} (some "2") none with
  | mk outcome later =>
    rw [known] at valued missed closed
    cases outcome with
    | error failure => cases valued
    | ok value =>
      obtain ⟨size, capacity, exact⟩ := @bounded_behind_miss {} (some (.integer 2)) none tasks
        (.evaluate (some "2") none) found later _ _ value ⟨2, rfl⟩ sets .evaluate known missed
      have zero : 0 = size := Int.ofNat.inj (Datum.integer.inj (closed.symm.trans capacity))
      refine ⟨⟨2, rfl⟩, sets, value, later, rfl, missed, closed, fun few => ?_⟩
      rcases exact.mp (zero ▸ few) with room | empty
      · exact absurd (zero ▸ room) (Nat.lt_irrefl 0)
      · rw [empty] at filled
        cases filled

end Reckon.Proofs.LoweredCapacity

import Reckon.Proofs.Transparency
import Reckon.Session.Desk

/-! Sessions that share an evaluator do not notice each other. What an evaluator remembers
changes no answer, so that a session gets the replies and comes into the states that it gets
and comes into with an evaluator of its own. -/

namespace Reckon.Proofs.SharedEvaluator
open Session Transparency

/-- Two outcomes that differ in their evaluators at most, with nothing wrong in either. -/
structure Alike (config : Config) (mode unit : AngleMode) (first second : Outcome) : Prop where
  reply : first.reply = second.reply
  session : first.session = second.session
  first : Sound config mode first.evaluator
  second : Sound config unit second.evaluator

variable {config : Config} {mode unit : AngleMode} {first second : Evaluator} {session : Session}

theorem Alike.saying {one other : Outcome} (alike : Alike config mode unit one other)
    (say : Reply → Session → String) :
    Alike config mode unit (one.saying say) (other.saying say) := by
  obtain ⟨reply, after, evaluator⟩ := one
  obtain ⟨_, _, _⟩ := other
  obtain ⟨rfl, rfl, one, two⟩ := alike
  cases reply with
  | error failure => exact ⟨rfl, rfl, one, two⟩
  | ok reply => exact ⟨rfl, rfl, one, two⟩

section Operations

variable (one : Sound config mode first) (two : Sound config unit second)

include one two

theorem still (reply : Except Failure Reply) (session : Session) :
    Alike config mode unit ⟨reply, session, first⟩ ⟨reply, session, second⟩ :=
  ⟨rfl, rfl, one, two⟩

private theorem enter_alike (value : Float) (entry : String) :
    Alike config mode unit (session.enter first value entry) (session.enter second value entry) := by
  unfold enter
  split
  · exact still one two _ session
  · exact still one two _ _

private theorem insertConstant_alike (name : String) :
    Alike config mode unit (session.insertConstant name first)
      (session.insertConstant name second) := by
  unfold insertConstant
  split
  · exact still one two _ session
  · exact enter_alike one two _ _

private theorem random_alike :
    Alike config mode unit (session.random first) (session.random second) := by
  unfold random
  split
  · exact still one two _ session
  · exact enter_alike one two _ _

private theorem toggleSign_alike :
    Alike config mode unit (session.toggleSign first) (session.toggleSign second) := by
  unfold toggleSign
  split
  · split
    · exact still one two _ session
    · exact still one two _ _
  · exact still one two _ _

private theorem memoryRecall_alike :
    Alike config mode unit (session.memoryRecall first) (session.memoryRecall second) := by
  unfold memoryRecall
  split
  · exact still one two _ session
  · split
    · exact still one two _ session
    · split
      · exact still one two _ session
      · exact still one two _ _

/-- One question is answered alike, and leaves both evaluators sound. -/
theorem evaluate_alike (text : String) (angle : AngleMode) :
    ∃ answer later last,
      first.evaluate config (some text) (some angle) = (answer, later) ∧
      second.evaluate config (some text) (some angle) = (answer, last) ∧
      Sound config mode later ∧ Sound config unit last := by
  have same := (one.evaluate_in (some text) angle).trans (two.evaluate_in (some text) angle).symm
  have later := (one.evaluate (some text) (some angle)).2
  have last := (two.evaluate (some text) (some angle)).2
  generalize first.evaluate config (some text) (some angle) = answered at same later ⊢
  generalize second.evaluate config (some text) (some angle) = answered' at same last ⊢
  exact ⟨answered.1, answered.2, answered'.2, rfl, Prod.ext same.symm rfl, later, last⟩

private theorem currentValue_alike (session : Session) :
    ∃ answer later last,
      session.currentValue config first = (answer, later) ∧
      session.currentValue config second = (answer, last) ∧
      Sound config mode later ∧ Sound config unit last := by
  unfold currentValue
  split
  · exact ⟨_, _, _, rfl, rfl, one, two⟩
  · exact evaluate_alike one two session.expression session.mode

private theorem evaluateDisplay_alike :
    Alike config mode unit (session.evaluateDisplay config first)
      (session.evaluateDisplay config second) := by
  unfold evaluateDisplay
  split
  · exact still one two _ session
  split
  · exact still one two _ session
  obtain ⟨answer, later, last, asked, asked', one, two⟩ :=
    evaluate_alike one two session.expression session.mode
  rw [asked, asked']
  cases answer with
  | error failure => exact still one two _ session
  | ok value => exact still one two _ _

private theorem apply_alike (name : String) :
    Alike config mode unit (session.apply config name first) (session.apply config name second) := by
  obtain ⟨answer, later, last, asked, asked', one, two⟩ := currentValue_alike one two session
  rw [Session.apply, Session.apply, asked, asked']
  cases answer with
  | error failure => exact still one two _ session
  | ok value =>
    dsimp only
    split
    · exact still one two _ session
    · exact enter_alike one two _ _

private theorem memoryUpdate_alike (combine : Datum → Float → Except Failure Float) :
    Alike config mode unit (session.memoryUpdate config combine first)
      (session.memoryUpdate config combine second) := by
  obtain ⟨answer, later, last, asked, asked', one, two⟩ := currentValue_alike one two session
  rw [memoryUpdate, memoryUpdate, asked, asked']
  cases answer with
  | error failure => exact still one two _ session
  | ok value =>
    dsimp only
    split
    · exact still one two _ session
    · exact still one two _ _

private theorem performMemory_alike (asked : MemoryRequest) :
    Alike config mode unit (performMemory config asked session first)
      (performMemory config asked session second) := by
  match asked with
  | .clear => exact still one two _ _
  | .recall => exact memoryRecall_alike one two
  | .add => exact memoryUpdate_alike one two memorySum
  | .subtract => exact memoryUpdate_alike one two memoryDifference
  | .store => exact memoryUpdate_alike one two fun _ value => .ok value

private theorem performCommand_alike (line : String) :
    Alike config mode unit (performCommand config line session first)
      (performCommand config line session second) := by
  unfold performCommand
  dsimp only
  split
  · exact still one two _ _
  split
  · exact still one two _ _
  split
  · exact still one two _ session
  split
  · exact (performMemory_alike one two _).saying _
  split
  · exact (insertConstant_alike one two _).saying _
  split
  · exact (random_alike one two).saying _
  split
  · exact (apply_alike one two _).saying _
  · exact still one two _ session

/-- A request gets one reply and leads to one state, whichever evaluator the session has. -/
theorem perform_alike (request : Request) (session : Session) :
    Alike config mode unit (session.perform config request first)
      (session.perform config request second) := by
  cases request with
  | setExpression text => exact still one two _ _
  | calculate text? =>
    rw [perform, perform, calculate, calculate]
    exact evaluateDisplay_alike one two
  | currentValue =>
    obtain ⟨answer, later, last, asked, asked', one, two⟩ := currentValue_alike one two session
    rw [perform, perform, asked, asked']
    exact still one two _ session
  | apply name => exact apply_alike one two name
  | constant name => exact insertConstant_alike one two name
  | random => exact random_alike one two
  | toggleSign => exact toggleSign_alike one two
  | memory asked => exact performMemory_alike one two asked
  | setMode mode => exact still one two _ _
  | clear => exact still one two _ _
  | command line => exact performCommand_alike one two line

end Operations

def seen (outcome : Outcome) : Except Failure Reply × Session :=
  (outcome.reply, outcome.session)

def meantFor {α : Type} (place : Nat) (entries : List (Nat × α)) : List α :=
  (entries.filter fun entry => entry.1 == place).map Prod.snd

private theorem meantFor_cons {α : Type} (place asked : Nat) (entry : α) (rest : List (Nat × α)) :
    meantFor place ((asked, entry) :: rest) =
      if asked = place then entry :: meantFor place rest else meantFor place rest := by
  by_cases here : asked = place
  · simp [meantFor, here]
  · simp [meantFor, here]

def outcomesAt (config : Config) (place : Nat) (desk : Desk) (requests : List (Nat × Request)) :
    List (Option Outcome) :=
  meantFor place ((requests.map Prod.fst).zip (desk.run config requests))

/-- The induction is on the requests. The session at the place stays what it is alone, and the
evaluators stay sound, whoever asks. -/
theorem run_alike {sessions : List Session} {place : Nat} (shared : Sound config mode first)
    (own : Sound config unit second) (seated : sessions[place]? = some session)
    (requests : List (Nat × Request)) :
    (outcomesAt config place (.shared sessions first) requests).map (Option.map seen) =
      (session.run config second (meantFor place requests)).map fun outcome =>
        some (seen outcome) := by
  induction requests generalizing sessions session first second with
  | nil => rfl
  | cons request rest ih =>
    obtain ⟨asked, request⟩ := request
    rw [meantFor_cons, outcomesAt, Desk.run]
    cases found : sessions[asked]? with
    | none =>
      have elsewhere : asked ≠ place := by
        intro same
        rw [same, seated] at found
        cases found
      have unanswered : (Desk.shared sessions first).perform config asked request = none := by
        rw [Desk.perform, found]
        rfl
      rw [unanswered]
      dsimp only
      rw [List.map_cons, List.zip_cons_cons, meantFor_cons, if_neg elsewhere, if_neg elsewhere]
      exact ih shared own seated
    | some other =>
      have answered : (Desk.shared sessions first).perform config asked request =
          some (other.perform config request first,
            Desk.shared (sessions.set asked (other.perform config request first).session)
              (other.perform config request first).evaluator) := by
        rw [Desk.perform, found]
        rfl
      rw [answered]
      dsimp only
      rw [List.map_cons, List.zip_cons_cons, meantFor_cons]
      by_cases here : asked = place
      · subst here
        cases seated.symm.trans found
        have alike := perform_alike shared own request session
        have same : seen (session.perform config request first) =
            seen (session.perform config request second) := Prod.ext alike.reply alike.session
        have inside := (List.getElem?_eq_some_iff.mp found).1
        rw [if_pos rfl, if_pos rfl, Session.run, List.map_cons, List.map_cons, ← same,
          ← alike.session]
        exact congrArg (some (seen (session.perform config request first)) :: ·)
          (ih alike.first alike.second (List.getElem?_set_self inside))
      · have kept := (perform_alike shared shared request other).first
        rw [if_neg here, if_neg here]
        exact ih kept own ((List.getElem?_set_ne here).trans seated)

/-- Any number of sessions in any state and any interleaving of their requests: with one
evaluator for all of them, each session gets the replies and comes into the states that it
gets and comes into when its own requests are made to it alone at a desk of its own. -/
theorem shared_as_alone {config : Config} {capacity? ownCapacity? : Option Datum}
    {mode? ownMode? : Option AngleMode} {sessions : List Session} {place : Nat} {session : Session}
    (shared : IsWhole (capacity?.getD config.cacheSize))
    (own : IsWhole (ownCapacity?.getD config.cacheSize))
    (seated : sessions[place]? = some session) (requests : List (Nat × Request)) :
    let desk := Desk.shared sessions (Evaluator.new config capacity? mode?)
    let alone := Desk.separate [(session, Evaluator.new config ownCapacity? ownMode?)]
    (outcomesAt config place desk requests).map (Option.map seen) =
      (alone.run config ((meantFor place requests).map fun request => (0, request))).map
        (Option.map seen) := by
  intro desk alone
  have first : Sound config (mode?.getD config.defaultMode)
      (Evaluator.new config capacity? mode?) := ⟨rfl, shared, nofun⟩
  have second : Sound config (ownMode?.getD config.defaultMode)
      (Evaluator.new config ownCapacity? ownMode?) := ⟨rfl, own, nofun⟩
  rw [run_alike first second seated requests, Desk.run_single, List.map_map]
  rfl

theorem shared_as_alone_interleaved :
    let session (mode : AngleMode) : Session :=
      { memory := .real 0.0, mode, historySize := some 3 }
    let sessions := [session .degrees, session .radians]
    let requests : List (Nat × Request) := [(0, .calculate (some "sin(90)")),
      (1, .calculate (some "sin(90)")), (1, .memory .store), (0, .currentValue),
      (1, .calculate (some "1/0")), (0, .command ":sqrt"), (1, .toggleSign)]
    let desk := Desk.shared sessions (Evaluator.new {} (some (.integer 1)) none)
    let alone := Desk.separate [(session .radians, Evaluator.new {} none (some .radians))]
    IsWhole (.integer 1) ∧ IsWhole (.integer 1000) ∧ sessions[1]? = some (session .radians) ∧
      (meantFor 1 requests).length = 4 ∧
      (outcomesAt {} 1 desk requests).map (Option.map seen) =
        (alone.run {} ((meantFor 1 requests).map fun request => (0, request))).map
          (Option.map seen) := by
  intro session sessions requests desk alone
  refine ⟨⟨1, rfl⟩, ⟨1000, rfl⟩, rfl, rfl, ?_⟩
  exact @shared_as_alone {} (some (.integer 1)) none none (some .radians) sessions 1 _
    ⟨1, rfl⟩ ⟨1000, rfl⟩ rfl requests

end Reckon.Proofs.SharedEvaluator

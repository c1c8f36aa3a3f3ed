import Reckon.Proofs.QuotientSign
import Reckon.Proofs.TurnedSign

/-! The product at the start of a sentence. Turning the sign of its first operand turns the sign
of the whole product, unless a power takes a literal with its sign as its base, and what is
added to the product or taken from it stays. -/

namespace Reckon.Proofs.LeadingProduct
open Grammar Polish Arranging Precedence TurnedSign

variable {items others row rest : List Lexeme} {tree other left right : Expr} {operator : BinaryOp}
  {mode : AngleMode} {layer : Layer} {x y : Float}

/-- The tree has the opposite value, or fails for the same cause. -/
def Negates (tree other : Expr) : Prop :=
  ∀ mode, other.value mode = (fun x => -x) <$> tree.value mode

section Values

private theorem negates_literal (x : Float) : Negates (.literal x) (.literal (-x)) :=
  fun _ => rfl

private theorem negates_negate (tree : Expr) : Negates tree (.negate tree) := by
  intro mode
  rw [Expr.value]
  cases tree.value mode <;> rfl

private theorem negates_operand (tree : Expr) : Negates (.negate tree) tree := by
  intro mode
  rw [Expr.value]
  cases tree.value mode with
  | error cause => rfl
  | ok x => exact congrArg Except.ok (Double.neg_neg x).symm

theorem Negates.percent (negates : Negates tree other) : Negates (.percent tree) (.percent other) := by
  intro mode
  rw [Expr.value, Expr.value, negates mode]
  cases tree.value mode with
  | error cause => rfl
  | ok x => exact congrArg Except.ok (QuotientSign.neg_div x 100.0)

theorem Negates.factor (negates : Negates left other) (level : operator.level = 2) (right : Expr) :
    Negates (.binary operator left right) (.binary operator other right) := by
  have turns (x y : Float) : operator.value (-x) y = -operator.value x y := by
    cases operator with
    | multiply => exact QuotientSign.neg_mul x y
    | divide => exact QuotientSign.neg_div x y
    | add | subtract | power => exact absurd level (by decide)
  intro mode
  rw [Expr.value, Expr.value, negates mode]
  cases left.value mode with
  | error cause => rfl
  | ok x =>
    cases right.value mode with
    | error cause => rfl
    | ok y =>
      show operator.apply (-x) y = (fun x => -x) <$> operator.apply x y
      unfold BinaryOp.apply
      split
      · rfl
      · exact congrArg Except.ok (turns x y)

end Values

section Readings

def signedRow (x : Float) (count : Nat) : List Lexeme :=
  .number x :: List.replicate count .percent

def Glued (items : List Lexeme) : Prop :=
  ∃ x count rest, items = signedRow x count ++ .binary .power :: rest

theorem Glued.append (glued : Glued items) (others : List Lexeme) : Glued (items ++ others) := by
  obtain ⟨x, count, rest, rfl⟩ := glued
  exact ⟨x, count, rest ++ others, by simp⟩

theorem turned_append (turns : turned items = some row) (others : List Lexeme) :
    turned (items ++ others) = some (row ++ others) := by
  unfold turned at turns
  split at turns
  case h_5 => cases turns
  all_goals
    obtain rfl := Option.some.inj turns
    rfl

/-- How a row up to a power begins: it is a literal whose sign can be turned, it is the power of
one, or a sign in front of it is an operator. -/
inductive Begins : List Lexeme → Expr → Prop
  | literal {x : Float} {count : Nat} {tree other : Expr}
      (reading : Reads .suffixed (signedRow (-x) count) other) (negates : Negates tree other) :
      Begins (signedRow x count) tree
  | glued {items : List Lexeme} {tree : Expr} (glued : Glued items) : Begins items tree
  | parted {items : List Lexeme} {tree : Expr} (turns : turned items = some (.negate :: items)) :
      Begins items tree

private theorem begins_suffixed (reading : Reads .suffixed items tree) : Begins items tree := by
  generalize known : Layer.suffixed = layer at reading
  induction reading with
  | bare atom =>
    cases atom with
    | number x => exact @Begins.literal x 0 _ _ (.bare (.number (-x))) (negates_literal x)
    | group | call => exact .parted rfl
  | percent inner ih =>
    cases ih known with
    | @literal x count _ other reading negates =>
      have row (x : Float) : signedRow x count ++ [.percent] = signedRow x (count + 1) := by
        rw [signedRow, signedRow, List.replicate_succ', List.cons_append]
      rw [row]
      exact .literal (row (-x) ▸ reading.percent) negates.percent
    | glued glued => exact .glued (glued.append _)
    | parted turns => exact .parted (turned_append turns _)
  | _ => cases known

private theorem begins_power (reading : Reads .power items tree) : Begins items tree := by
  generalize known : Layer.power = layer at reading
  induction reading with
  | base inner => exact begins_suffixed inner
  | @power items others left right chain exponent ih =>
    cases ih known with
    | @literal x count => exact .glued ⟨x, count, others, rfl⟩
    | glued glued => exact .glued (glued.append _)
    | parted turns => exact .parted (turned_append turns _)
  | _ => cases known

/-- The row has an operand at its start, and with the sign of this operand it turns its own. -/
def TurnsIn (layer : Layer) (items : List Lexeme) (tree : Expr) : Prop :=
  ∃ row other, turned items = some row ∧ Reads layer row other ∧ Negates tree other

private theorem turnsIn_signed (reading : Reads .signed items tree) (free : ¬ Glued items) :
    TurnsIn .signed items tree := by
  cases reading with
  | unsigned inner =>
    cases begins_power inner with
    | literal reading negates => exact ⟨_, _, rfl, .unsigned (.base reading), negates⟩
    | glued glued => exact absurd glued free
    | parted turns => exact ⟨_, _, turns, .negate (.unsigned inner), negates_negate tree⟩
  | negate inner => exact ⟨_, _, rfl, inner, negates_operand _⟩
  | @powerNegate items others left right chain exponent =>
    cases begins_power chain with
    | @literal x count => exact absurd ⟨x, count, _, rfl⟩ free
    | glued glued => exact absurd (glued.append _) free
    | parted turns =>
      exact ⟨_, _, turned_append turns _, .negate (.powerNegate chain exponent), negates_negate _⟩

theorem turnsIn_product (reading : Reads .product items tree) (free : ¬ Glued items) :
    TurnsIn .product items tree := by
  generalize known : Layer.product = layer at reading
  induction reading with
  | factor inner =>
    obtain ⟨row, other, turns, reading, negates⟩ := turnsIn_signed inner free
    exact ⟨row, other, turns, .factor reading, negates⟩
  | @product operator level items others left right first second ih =>
    obtain ⟨row, other, turns, reading, negates⟩ := ih (fun glued => free (glued.append _)) known
    exact ⟨_, _, turned_append turns _, .product operator level reading second,
      negates.factor level right⟩
  | _ => cases known

end Readings

def Loose (rest : List Lexeme) : Prop :=
  ∀ next ∈ rest.head?, ∃ operator : BinaryOp, next = .binary operator ∧ operator.level = 1

/-- A product leaves as a whole before a sum or a difference goes on. -/
theorem reorder_leading (reading : Reads .product items tree) (loose : Loose rest) :
    reorder Lexeme.role (items ++ rest) = (tree.postorder ++ ·) <$> reorder Lexeme.role rest := by
  obtain ⟨sent, kept, whole, leaves⟩ := orders_of_reads reading
  have flushed : arrange Lexeme.role kept rest = (kept ++ ·) <$> arrange Lexeme.role [] rest := by
    cases rest with
    | nil =>
      rw [arrange_nil_eq_ok_iff.mpr ⟨rfl, leaves.noOpening⟩, arrange_nil_eq_ok_iff.mpr ⟨rfl, nofun⟩]
      simp
    | cons next rest =>
      obtain ⟨operator, rfl, level⟩ := loose next rfl
      have role : Lexeme.role (.binary operator) = .binary 1 := by rw [Lexeme.role, level]
      have acts : ∀ waiting ∈ kept, actsBefore Lexeme.role 1 waiting = true :=
        fun waiting member => actsBefore_mono (by decide) (leaves.acts waiting member)
      have first : arrange Lexeme.role kept (.binary operator :: rest) =
          (kept ++ ·) <$> arrange Lexeme.role [.binary operator] rest := by
        simpa using arrange_binary role acts .nil
      have second : arrange Lexeme.role [] (.binary operator :: rest) =
          arrange Lexeme.role [.binary operator] rest := by
        have nothing : ∀ waiting ∈ ([] : List Lexeme), actsBefore Lexeme.role 1 waiting = true := by simp
        simpa using arrange_binary role nothing .nil
      rw [first, second]
  rw [reorder, leaves.arranged [] rest .nil, List.append_nil, flushed, ← whole, reorder]
  cases arrange Lexeme.role [] rest <;> simp [Functor.map, Except.map]

private theorem run_leading (tree : Expr) (later : List Lexeme) :
    Machine.run (Lexeme.action mode) (tree.postorder ++ later) =
      liftCause (tree.value mode) >>= fun x => Machine.run (Lexeme.action mode) (.number x :: later) := by
  rw [Machine.run, Machine.runFrom_postorder, bind_assoc]
  rfl

/-- The value of a product may stand for the product. -/
theorem carryOut_leading (reading : Reads .product items tree) (loose : Loose rest) :
    carryOut mode (items ++ rest) = .ok y ↔
      ∃ x, tree.value mode = .ok x ∧ carryOut mode (.number x :: rest) = .ok y := by
  have literal (x : Float) : reorder Lexeme.role (.number x :: rest) =
      (.number x :: ·) <$> reorder Lexeme.role rest :=
    reorder_leading (.factor (.unsigned (.base (.bare (.number x))))) loose
  simp only [carryOut, reorder_leading reading loose, literal]
  cases reorder Lexeme.role rest with
  | error cause =>
    refine ⟨nofun, ?_⟩
    rintro ⟨x, -, failed⟩
    cases failed
  | ok later =>
    show Machine.run _ (tree.postorder ++ later) = _ ↔ ∃ x, _ ∧ Machine.run _ (.number x :: later) = _
    rw [run_leading]
    cases tree.value mode with
    | error cause =>
      refine ⟨nofun, ?_⟩
      rintro ⟨x, known, -⟩
      cases known
    | ok x =>
      constructor
      · exact fun ran => ⟨x, rfl, ran⟩
      · rintro ⟨_, ⟨⟩, ran⟩
        exact ran

end Reckon.Proofs.LeadingProduct

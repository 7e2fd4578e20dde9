import FusionAtlas.Proofs.BareSyntax
import FusionAtlas.Proofs.ExpressionCompleteness
import Mathlib.Data.List.Induction

/-!
Binary operators and the operands they join. Operands in a row can be grouped in many ways, but in one way only
so that an operator groups with nothing looser on its left and with nothing as loose on its right; and that way
is the one the grammar derives. Main statements: `Grouping.grouped_of` and `Grouping.eq_of_grouped` for the one
grouping there is, and `Grouping.derives`.
-/

set_option autoImplicit false
set_option relaxedAutoImplicit false

namespace FusionAtlas.Template

/-- The binary operators, those that bind loosest first. -/
def loosestFirst : List (List String) :=
  [["||"], ["&&"], ["==", "!="], ["<", "<=", ">", ">="], ["+", "-"], ["*", "/", "%"]]

/-- How tightly a binary operator binds. -/
def rank (operator : String) : Nat := loosestFirst.findIdx (·.contains operator)

/-- A binary operator of some rank. -/
def IsOperator (operator : String) : Prop := operator ∈ loosestFirst.flatten

instance : DecidablePred IsOperator := fun operator =>
  inferInstanceAs (Decidable (operator ∈ loosestFirst.flatten))

/-- Operands grouped by the operators between them. -/
inductive Grouping where
  | operand (e : Expr)
  | operation (left : Grouping) (operator : String) (right : Grouping)

namespace Grouping

variable {g left right : Grouping} {e : Expr} {operator : String} {others : List (String × Expr)} {n : Nat}

/-- The operands and operators in the order in which they are written: the first operand, and every other one
with the operator before it. -/
def inOrder : Grouping → Expr × List (String × Expr)
  | operand e => (e, [])
  | operation left operator right =>
    (left.inOrder.1, left.inOrder.2 ++ (operator, right.inOrder.1) :: right.inOrder.2)

/-- The grouping is an operand alone, or its operator binds at least so tightly. -/
def AtLeast (n : Nat) : Grouping → Prop
  | operand _ => True
  | operation _ operator _ => n ≤ rank operator

/-- On its left no operator has a looser one, and on its right none that does not bind tighter. -/
def Grouped : Grouping → Prop
  | operand _ => True
  | operation left operator right =>
    left.Grouped ∧ right.Grouped ∧ left.AtLeast (rank operator) ∧ right.AtLeast (rank operator + 1)

/-- The expression that the operands make so. -/
def expr : Grouping → Expr
  | operand e => e
  | operation left operator right => .operation nowhere left.expr operator right.expr

section Push

/-- Group one more operator and operand with what is grouped before. -/
def push : Grouping → String × Expr → Grouping
  | operand first, (operator, e) => operation (operand first) operator (operand e)
  | operation left above right, (operator, e) =>
    if rank above < rank operator then operation left above (right.push (operator, e))
    else operation (operation left above right) operator (operand e)

/-- The one grouping of operands and operators in this order. -/
def of (first : Expr) (others : List (String × Expr)) : Grouping := others.foldl push (operand first)

theorem inOrder_push (g : Grouping) (next : String × Expr) :
    (g.push next).inOrder = (g.inOrder.1, g.inOrder.2 ++ [next]) := by
  induction g with
  | operand first => rfl
  | operation left above right _ ih =>
    rw [push]
    split
    · rw [inOrder, ih, inOrder, List.append_assoc, List.cons_append]
    · rfl

theorem inOrder_of (first : Expr) (others : List (String × Expr)) :
    (of first others).inOrder = (first, others) := by
  induction others using List.reverseRecOn with
  | nil => rfl
  | append_singleton others next ih => rw [of, List.foldl_concat, inOrder_push, ← of, ih]

theorem AtLeast.push (bound : g.AtLeast n) {next : String × Expr} (tight : n ≤ rank next.1) :
    (g.push next).AtLeast n := by
  cases g with
  | operand first => exact tight
  | operation left above right =>
    rw [Grouping.push]
    split
    · exact bound
    · exact tight

theorem Grouped.push (grouped : g.Grouped) (next : String × Expr) : (g.push next).Grouped := by
  induction g with
  | operand first => exact ⟨trivial, trivial, trivial, trivial⟩
  | operation left above right _ ih =>
    rw [Grouping.push]
    split
    · next tighter =>
      obtain ⟨onLeft, onRight, looseLeft, tightRight⟩ := grouped
      exact ⟨onLeft, ih onRight, looseLeft, tightRight.push tighter⟩
    · next loose => exact ⟨grouped, trivial, Nat.le_of_not_lt loose, trivial⟩

theorem grouped_of (first : Expr) (others : List (String × Expr)) : (of first others).Grouped := by
  induction others using List.reverseRecOn with
  | nil => trivial
  | append_singleton others next ih =>
    rw [of, List.foldl_concat]
    exact ih.push next

end Push

section Unique

/-- Where the outer operator binds so tightly, all do. -/
theorem Grouped.forall_rank (grouped : g.Grouped) (bound : g.AtLeast n) :
    ∀ next ∈ g.inOrder.2, n ≤ rank next.1 := by
  induction g generalizing n with
  | operand first => exact fun _ member => nomatch member
  | operation left operator right ihLeft ihRight =>
    obtain ⟨onLeft, onRight, looseLeft, tightRight⟩ := grouped
    have bound : n ≤ rank operator := bound
    have before := ihLeft onLeft looseLeft
    have behind := ihRight onRight tightRight
    refine List.forall_mem_append.mpr ⟨fun next member => Nat.le_trans bound (before next member), ?_⟩
    refine List.forall_mem_cons.mpr ⟨bound, fun next member => ?_⟩
    exact Nat.le_trans (Nat.le_succ_of_le bound) (behind next member)

/-- Behind an operator, operands with tighter ones are grouped among themselves. -/
theorem foldl_push_operation (others : List (String × Expr))
    (tighter : ∀ next ∈ others, rank operator + 1 ≤ rank next.1) :
    others.foldl push (operation left operator right) = operation left operator (others.foldl push right) := by
  induction others generalizing right with
  | nil => rfl
  | cons next others ih =>
    obtain ⟨first, behind⟩ := List.forall_mem_cons.mp tighter
    rw [List.foldl_cons, push, if_pos (Nat.lt_of_succ_le first), ih behind, List.foldl_cons]

/-- Behind operators that bind at least as tightly, an operator groups with all of them. -/
theorem push_of_atLeast (bound : g.AtLeast (rank operator)) :
    g.push (operator, e) = operation g operator (operand e) := by
  cases g with
  | operand first => rfl
  | operation left above right => exact if_neg (Nat.not_lt.mpr bound)

/-- A grouping by tightness is the one there is. -/
theorem eq_of_grouped (grouped : g.Grouped) : g = of g.inOrder.1 g.inOrder.2 := by
  induction g with
  | operand first => rfl
  | operation left operator right ihLeft ihRight =>
    obtain ⟨onLeft, onRight, looseLeft, tightRight⟩ := grouped
    have behind := onRight.forall_rank tightRight
    calc operation left operator right
        = operation left operator (of right.inOrder.1 right.inOrder.2) := by rw [← ihRight onRight]
      _ = right.inOrder.2.foldl push (operation left operator (operand right.inOrder.1)) :=
          (foldl_push_operation _ behind).symm
      _ = right.inOrder.2.foldl push (left.push (operator, right.inOrder.1)) := by
          rw [push_of_atLeast looseLeft]
      _ = right.inOrder.2.foldl push ((of left.inOrder.1 left.inOrder.2).push (operator, right.inOrder.1)) := by
          rw [← ihLeft onLeft]
      _ = of (operation left operator right).inOrder.1 (operation left operator right).inOrder.2 := by
          rw [inOrder, of, of, List.foldl_append, List.foldl_cons]

end Unique

section Tokens

variable {source : Source} {ts : List Token}

/-- The tokens write operands and operators in a row. -/
inductive WritesRow (source : Source) : List Token → Expr → List (String × Expr) → Prop
  | last {ts : List Token} {e : Expr} (only : Derives source ts (.unary e)) : WritesRow source ts e.bare []
  | more {ts us : List Token} {t : Token} {e next : Expr} {others : List (String × Expr)}
      (first : Derives source ts (.unary e)) (binds : precedence? t.kind = some (rank t.text + 1))
      (behind : WritesRow source us next others) :
      WritesRow source (ts ++ t :: us) e.bare ((t.text, next) :: others)

/-- A row is written before each of its operators and behind it. -/
theorem WritesRow.split {first next : Expr} {front behind : List (String × Expr)}
    (row : WritesRow source ts first (front ++ (operator, next) :: behind)) :
    ∃ us t vs, ts = us ++ t :: vs ∧ t.text = operator ∧ precedence? t.kind = some (rank operator + 1) ∧
      WritesRow source us first front ∧ WritesRow source vs next behind := by
  generalize whole : front ++ (operator, next) :: behind = others at row
  induction row generalizing front with
  | last only => simp at whole
  | @more ts us t e after others first binds row ih =>
    cases front with
    | nil =>
      obtain ⟨same, rfl⟩ := List.cons.inj whole
      obtain ⟨rfl, rfl⟩ := Prod.mk.inj same
      exact ⟨ts, t, us, rfl, rfl, binds, .last first, row⟩
    | cons head front =>
      obtain ⟨rfl, rest⟩ := List.cons.inj whole
      obtain ⟨vs, mark, ws, rfl, text, binds', before, following⟩ := ih rest
      exact ⟨ts ++ t :: vs, mark, ws, by simp, text, binds', .more first binds before, following⟩

/-- What is written in a row is derived as it is grouped, on every level that the outer operator allows. -/
theorem derives (grouped : g.Grouped) (bound : g.AtLeast n)
    (row : WritesRow source ts g.inOrder.1 g.inOrder.2) :
    ∃ e, e.bare = g.expr ∧ Derives source ts (.binary (n + 1) e) := by
  induction g generalizing ts n with
  | operand first =>
    generalize same : (operand first).inOrder = reading at row
    cases same
    cases row with
    | @last ts e only => exact ⟨e, rfl, .operand only⟩
  | operation left operator right ihLeft ihRight =>
    obtain ⟨onLeft, onRight, looseLeft, tightRight⟩ := grouped
    obtain ⟨us, t, vs, rfl, rfl, binds, before, behind⟩ := row.split
    obtain ⟨first, same, derived⟩ := ihLeft onLeft looseLeft before
    obtain ⟨second, same', derived'⟩ := ihRight onRight tightRight behind
    refine ⟨_, ?_, .operation binds (Nat.succ_le_succ bound) derived derived'⟩
    rw [Expr.bare, same, same', expr]

end Tokens

end Grouping

end FusionAtlas.Template

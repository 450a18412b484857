/-
# The first fault of an expression tree

A tree is evaluated left operand first, then the right one, then the operator.
`Expression.Fails` says which fault is met first on this way, in the terms in
which `Expression.Denotes` says what the value is:

| node | fault | met when |
| --- | --- | --- |
| number | malformed number, with its text | the text is no numeral |
| operator | the fault of the left operand | the left operand has one |
| operator | the fault of the right operand | the left operand has a value |
| `/` | division by zero | both have one, and the right one is zero |
| operator | overflow of this operator | what it yields is not representable |

Every tree either denotes a value or fails, and `value_eq_error_iff` ties the
fault to the evaluation of the tree as `value_eq_ok_iff` ties the value to it.
-/

import Reckoner.Expression.Basic

namespace Reckoner

open Integer

/-- **An operator fails in two ways:** the divisor is zero, or the exact result
exists and is not representable. -/
theorem Operator.apply_eq_error_iff {operator : Operator} {left right : Int} {error : Error} :
    operator.apply left right = .error error ↔
      (¬ operator.Defined right ∧ error = .divisionByZero) ∨
        (operator.Defined right ∧ ¬ Representable (operator.exact left right) ∧
          error = .overflow operator) := by
  unfold apply
  split
  next defined =>
    split
    next representable => simp [defined, representable]
    next unrepresentable => simp [defined, unrepresentable, eq_comm]
  next undefined => simp [undefined, eq_comm]

/-- Only a division by zero has no exact result. -/
theorem Operator.not_defined_iff {operator : Operator} {right : Int} :
    ¬ operator.Defined right ↔ operator = .divide ∧ right = 0 := by
  rw [Defined, Classical.not_imp, Decidable.not_not]

namespace Expression

/-- The first fault that is met when a tree is evaluated. -/
inductive Fails : Expression → Error → Prop
  | number {text : String} {fault : Numeral.Fault} (read : Numeral.read text = .error fault) :
    Fails (.number text) (.malformedNumber text fault)
  | group {inner : Expression} {error : Error} (fails : Fails inner error) :
    Fails (.group inner) error
  | left {operator : Operator} {left right : Expression} {error : Error}
    (left_fails : Fails left error) : Fails (.binary operator left right) error
  | right {operator : Operator} {left right : Expression} {x : Int} {error : Error}
    (left_denotes : Denotes left x) (right_fails : Fails right error) :
    Fails (.binary operator left right) error
  | zeroDivisor {left right : Expression} {x : Int} (left_denotes : Denotes left x)
    (right_denotes : Denotes right 0) : Fails (.binary .divide left right) .divisionByZero
  | overflow {operator : Operator} {left right : Expression} {x y v : Int}
    (left_denotes : Denotes left x) (right_denotes : Denotes right y)
    (yields : operator.Yields x y v) (unrepresentable : ¬ Representable v) :
    Fails (.binary operator left right) (.overflow operator)

theorem value_binary (operator : Operator) (left right : Expression) :
    (binary operator left right).value =
      left.value >>= fun x => right.value >>= fun y => operator.apply x y := rfl

/-- **The fault of a tree is the first one met.** -/
theorem value_eq_error_iff {e : Expression} {error : Error} :
    e.value = .error error ↔ e.Fails error := by
  constructor
  · intro h
    induction e generalizing error with
    | number text =>
      rw [value] at h
      cases read : Numeral.read text with
      | ok v => rw [read] at h; cases h
      | error fault =>
        rw [read] at h
        cases h
        exact .number read
    | group inner ih => exact .group (ih h)
    | binary operator left right ihl ihr =>
      rw [value_binary] at h
      cases hl : left.value with
      | error fault =>
        rw [hl] at h
        cases h
        exact .left (ihl hl)
      | ok x =>
        have denotes := value_eq_ok_iff.1 hl
        cases hr : right.value with
        | error fault =>
          rw [hl, hr] at h
          cases h
          exact .right denotes (ihr hr)
        | ok y =>
          rw [hl, hr] at h
          have denotes' := value_eq_ok_iff.1 hr
          rcases Operator.apply_eq_error_iff.1 h with
            ⟨undefined, rfl⟩ | ⟨defined, unrepresentable, rfl⟩
          · obtain ⟨rfl, rfl⟩ := Operator.not_defined_iff.1 undefined
            exact .zeroDivisor denotes denotes'
          · exact .overflow denotes denotes' (Operator.yields_iff.2 ⟨defined, rfl⟩) unrepresentable
  · intro h
    induction h with
    | number read => rw [value, read]; rfl
    | group _ ih => exact ih
    | left _ ih => rw [value_binary, ih]; rfl
    | right denotes _ ih => rw [value_binary, value_eq_ok_iff.2 denotes, ih]; rfl
    | zeroDivisor denotes denotes' =>
      rw [value_binary, value_eq_ok_iff.2 denotes, value_eq_ok_iff.2 denotes']
      rfl
    | overflow denotes denotes' yields unrepresentable =>
      obtain ⟨defined, rfl⟩ := Operator.yields_iff.1 yields
      rw [value_binary, value_eq_ok_iff.2 denotes, value_eq_ok_iff.2 denotes']
      exact Operator.apply_eq_error_iff.2 (.inr ⟨defined, unrepresentable, rfl⟩)

end Expression
end Reckoner

/-
# Expression trees

The tree of an expression shows which operands an operator has.  A tree is
evaluated from the left: the left operand, the right operand, and then the
operator on their values.  The first fault on this way is the fault of the
tree.

`Expression.Denotes` says the same of values alone: what an operator yields is
said in the terms of unbounded integers (`Operator.Yields`), and every single
result is in range.  `Expression.value_eq_ok_iff` ties the two together.
-/

import Reckoner.Arithmetic

namespace Reckoner

/-- What an operator yields in the integers.  A quotient is rounded toward zero, and
a zero divisor has none. -/
inductive Operator.Yields : Operator → Int → Int → Int → Prop
  | sum (x y : Int) : Yields .add x y (x + y)
  | difference (x y : Int) : Yields .subtract x y (x - y)
  | product (x y : Int) : Yields .multiply x y (x * y)
  | quotient (x : Int) {y : Int} (nonzero : y ≠ 0) : Yields .divide x y (x.tdiv y)

/-- An operator yields its exact result where it is defined, and nothing else. -/
theorem Operator.yields_iff {operator : Operator} {x y v : Int} :
    operator.Yields x y v ↔ operator.Defined y ∧ operator.exact x y = v := by
  constructor
  · intro yields
    cases yields with
    | sum => exact ⟨nofun, rfl⟩
    | difference => exact ⟨nofun, rfl⟩
    | product => exact ⟨nofun, rfl⟩
    | quotient _ nonzero => exact ⟨fun _ => nonzero, rfl⟩
  · rintro ⟨defined, rfl⟩
    cases operator with
    | add => exact .sum x y
    | subtract => exact .difference x y
    | multiply => exact .product x y
    | divide => exact .quotient x (defined rfl)

/-- An expression as a tree. -/
inductive Expression
  /-- A number as it is written. -/
  | number (text : String)
  /-- An expression in parentheses. -/
  | group (inner : Expression)
  /-- An operator between two operands. -/
  | binary (operator : Operator) (left right : Expression)
  deriving DecidableEq, Repr

namespace Expression

/-- The value of a tree, or the first fault in it. -/
def value : Expression → Except Error Int
  | .number text => (Numeral.read text).mapError (Error.malformedNumber text)
  | .group inner => inner.value
  | .binary operator left right => do
    let x ← left.value
    let y ← right.value
    operator.apply x y

/-- How deep groups nest in a tree. -/
def nesting : Expression → Nat
  | .number _ => 0
  | .group inner => inner.nesting + 1
  | .binary _ left right => max left.nesting right.nesting

/-- A tree denotes a value when its numbers are read and what each operator yields
is representable. -/
inductive Denotes : Expression → Int → Prop
  | number {text : String} {v : Int} (read : Numeral.read text = .ok v) :
    Denotes (.number text) v
  | group {inner : Expression} {v : Int} (denotes : Denotes inner v) :
    Denotes (.group inner) v
  | binary {operator : Operator} {left right : Expression} {x y v : Int}
    (left_denotes : Denotes left x) (right_denotes : Denotes right y)
    (yields : operator.Yields x y v) (representable : Integer.Representable v) :
    Denotes (.binary operator left right) v

/-- **A tree has a value exactly when it denotes it.** -/
theorem value_eq_ok_iff {e : Expression} {v : Int} : e.value = .ok v ↔ e.Denotes v := by
  constructor
  · intro h
    induction e generalizing v with
    | number text =>
      rw [value] at h
      cases read : Numeral.read text with
      | ok w =>
        rw [read] at h
        exact .number (read.trans (congrArg _ (Except.ok.inj h)))
      | error fault => rw [read] at h; cases h
    | group inner ih => exact .group (ih h)
    | binary operator left right ihl ihr =>
      rw [value] at h
      cases hl : left.value with
      | error error => rw [hl] at h; cases h
      | ok x =>
        cases hr : right.value with
        | error error => rw [hl, hr] at h; cases h
        | ok y =>
          rw [hl, hr] at h
          obtain ⟨defined, result, representable⟩ := Operator.apply_eq_ok_iff.1 h
          exact .binary (ihl hl) (ihr hr) (Operator.yields_iff.2 ⟨defined, result⟩) representable
  · intro h
    induction h with
    | number read => rw [value, read]; rfl
    | group _ ih => exact ih
    | binary _ _ yields representable ihl ihr =>
      obtain ⟨defined, result⟩ := Operator.yields_iff.1 yields
      rw [value, ihl, ihr]
      exact Operator.apply_eq_ok_iff.2 ⟨defined, result, representable⟩

end Expression
end Reckoner

/-
# The four operators

An operator has an exact result in the integers; `Reckoner.Arithmetic` puts
the bounds on it.  Division drops the fraction, so it goes toward zero:
`-7 / 2 = -3`.
-/

namespace Reckoner

/-- What may stand between two operands. -/
inductive Operator
  | add
  | subtract
  | multiply
  | divide
  deriving DecidableEq, Repr

namespace Operator

/-- The name under which an overflow is reported. -/
def name : Operator → String
  | .add => "Add"
  | .subtract => "Subtract"
  | .multiply => "Multiply"
  | .divide => "Divide"

/-- The result in unbounded integers.  A zero divisor has none, and the value
here is of no account. -/
def exact : Operator → Int → Int → Int
  | .add, left, right => left + right
  | .subtract, left, right => left - right
  | .multiply, left, right => left * right
  | .divide, left, right => left.tdiv right

/-- Whether the operator has a result at all: a divisor is not zero. -/
def Defined (operator : Operator) (right : Int) : Prop := operator = .divide → right ≠ 0

instance (operator : Operator) (right : Int) : Decidable (operator.Defined right) :=
  inferInstanceAs (Decidable (operator = .divide → right ≠ 0))

end Operator
end Reckoner

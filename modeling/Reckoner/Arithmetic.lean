/-
# Checked arithmetic

An operator is applied to two values in two steps: the exact result, and the
test that it is representable.  A zero divisor is a fault of its own and comes
first, so `0 / 0` is a division by zero; `lowest / -1` overflows.
-/

import Reckoner.Error

namespace Reckoner
namespace Operator

open Integer

/-- The exact result if it is representable. -/
def apply (operator : Operator) (left right : Int) : Except Error Int :=
  if operator.Defined right then
    if Representable (operator.exact left right) then .ok (operator.exact left right)
    else .error (.overflow operator)
  else .error .divisionByZero

/-- An operator yields a value exactly when it is defined and its exact result
is that value and representable. -/
theorem apply_eq_ok_iff {operator : Operator} {left right value : Int} :
    operator.apply left right = .ok value ↔
      operator.Defined right ∧ operator.exact left right = value ∧ Representable value := by
  unfold apply
  split
  next defined =>
    split
    next representable =>
      simp only [Except.ok.injEq, defined, true_and]
      exact ⟨fun h => ⟨h, h ▸ representable⟩, And.left⟩
    next unrepresentable =>
      simp only [reduceCtorEq, false_iff, not_and]
      exact fun _ h => h ▸ unrepresentable
  next undefined => simp [undefined]

end Operator
end Reckoner

/-
# The integers that a calculation may hold

Values are mathematical integers throughout.  What bounds them is one test,
made on every number read and on every result of an operator:

| bound | value |
| --- | ---: |
| `lowest` | `-2^63 = -9223372036854775808` |
| `highest` | `2^63 - 1 = 9223372036854775807` |

Nothing wraps: a value outside the bounds is a fault, and which fault it is
depends on where it arose (`Reckoner.Numeral`, `Reckoner.Arithmetic`).
-/

namespace Reckoner
namespace Integer

/-- The least integer that fits in 64 bits with a sign, `-2^63`. -/
abbrev lowest : Int := -9223372036854775808

/-- The greatest integer that fits in 64 bits with a sign, `2^63 - 1`. -/
abbrev highest : Int := 9223372036854775807

/-- A value is representable when it lies between `lowest` and `highest`,
both included. -/
def Representable (value : Int) : Prop := lowest ≤ value ∧ value ≤ highest

instance : DecidablePred Representable := fun value =>
  inferInstanceAs (Decidable (lowest ≤ value ∧ value ≤ highest))

end Integer
end Reckoner

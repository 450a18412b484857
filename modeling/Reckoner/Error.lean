/-
# How a calculation can fail

One constructor per cause, with what its wording needs; `Error.message` is the
only place where the wording stands.

| cause | found by |
| --- | --- |
| an unpaired assignment | `Reckoner.Bindings` |
| an unexpected character | `Reckoner.Token.Lexeme` |
| an unexpected token | `Reckoner.Evaluation` |
| a malformed number | `Reckoner.Evaluation` |
| a division by zero, an overflow | `Reckoner.Arithmetic` |
-/

import Reckoner.Numeral
import Reckoner.Operator

namespace Reckoner

/-- Every way in which one calculation can fail. -/
inductive Error
  /-- A character that no token begins with. -/
  | unexpectedCharacter (char : Char)
  /-- A token that cannot stand where it does.  The position counts the tokens
  read so far, this one included. -/
  | unexpectedToken (text : String) (position : Nat)
  /-- A divisor is zero. -/
  | divisionByZero
  /-- The text of a number token is no numeral of a representable integer. -/
  | malformedNumber (text : String) (fault : Numeral.Fault)
  /-- The items of an assignment list are odd in number. -/
  | unpairedAssignments (count : Nat)
  /-- The exact result of an operator is not representable. -/
  | overflow (operator : Operator)
  deriving DecidableEq, Repr

namespace Error

/-- The wording of each error. -/
def message : Error → String
  | .unexpectedCharacter char => "Unexpected character: " ++ char.toString
  | .unexpectedToken text position =>
    "Unexpected token: " ++ text ++ " at position: " ++ toString position
  | .divisionByZero => "Division by zero"
  | .malformedNumber text fault => "Invalid number '" ++ text ++ "': " ++ fault.message
  | .unpairedAssignments count =>
    "Variable assignments must come in name/value pairs, got " ++ toString count ++ " items"
  | .overflow operator => "Integer overflow in " ++ operator.name

end Error
end Reckoner

/-
# Answering a request

A request is an expression and an assignment list.  It is answered in stages,
each on the result of the one before, and the first error ends it:

| stage | result | error |
| --- | --- | --- |
| `Bindings.ofText` | the bindings | unpaired assignments |
| `Bindings.substitute` | the expression with values for names | none |
| `Token.ofText` | its tokens | an unexpected character |
| `evaluate` | its value | a fault in what the tokens say |

So unpaired assignments are reported whatever the expression is, and a
character that may stand in no expression before any fault of the arithmetic.
-/

import Reckoner.Bindings
import Reckoner.Evaluation
import Reckoner.Token.Lexeme

namespace Reckoner

/-- An expression and the assignments for the names in it. -/
structure Request where
  expression : String
  assignments : String
  deriving DecidableEq, Repr

namespace Request

/-- The value of a request, or the first error. -/
def answer (matching : Matching) (request : Request) : Except Error Int := do
  let bindings ← Bindings.ofText request.assignments
  let tokens ← Token.ofText (bindings.substitute matching request.expression)
  evaluate tokens

/-- The answers to several requests, in their order; each stands alone. -/
def answers (matching : Matching) (requests : List Request) : List (Except Error Int) :=
  requests.map (answer matching)

end Request
end Reckoner

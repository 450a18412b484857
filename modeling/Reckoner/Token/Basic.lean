/-
# Tokens

A token is a kind and the characters it was made of.  The characters matter
for a number, whose value they spell, and for an error, which quotes them.  The
end of an expression is a token too, with no characters.
-/

import Reckoner.Operator

namespace Reckoner

/-- The kinds of token. -/
inductive Token.Kind
  | leftParen
  | rightParen
  | plus
  | minus
  | multiply
  | divide
  | number
  | eof
  deriving DecidableEq, Repr

/-- A kind and the characters of the expression that made it. -/
structure Token where
  kind : Token.Kind
  text : String
  deriving DecidableEq, Repr

namespace Token

/-- The operator that a token of this kind stands for. -/
def Kind.operator? : Kind → Option Operator
  | .plus => some .add
  | .minus => some .subtract
  | .multiply => some .multiply
  | .divide => some .divide
  | _ => none

/-- The end of an expression. -/
def eof : Token := { kind := .eof, text := "" }

/-- The tokens before the first end token. -/
def body (tokens : List Token) : List Token := tokens.takeWhile (·.kind != .eof)

end Token
end Reckoner

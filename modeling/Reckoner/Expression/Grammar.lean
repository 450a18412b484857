/-
# The grammar of expressions

    sum     = product | sum ("+" | "-") product
    product = factor  | product ("*" | "/") factor
    factor  = number  | "(" sum ")"

A derivation is a relation between a sequence of tokens and the tree that it
spells at one of the three levels.  The chains of a level recur on the left, so
operators of one rank associate to the left, and a derivation fixes its tree.
-/

import Reckoner.Evaluation
import Reckoner.Expression.Basic

namespace Reckoner

open Evaluation (Rank)

/-- The three levels of the grammar. -/
inductive Level
  | sum
  | product
  | factor
  deriving DecidableEq, Repr

/-- The tokens spell the tree at a level of the grammar. -/
inductive Derives : Level → List Token → Expression → Prop
  | number {token : Token} (number : token.kind = .number) :
    Derives .factor [token] (.number token.text)
  | group {opening closing : Token} {tokens : List Token} {e : Expression}
    (opens : opening.kind = .leftParen) (inner : Derives .sum tokens e)
    (closes : closing.kind = .rightParen) :
    Derives .factor (opening :: tokens ++ [closing]) (.group e)
  | factor {tokens : List Token} {e : Expression} (alone : Derives .factor tokens e) :
    Derives .product tokens e
  | times {tokens tokens' : List Token} {token : Token} {operator : Operator}
    {e e' : Expression} (left : Derives .product tokens e)
    (mark : Rank.multiplicative.operator? token.kind = some operator)
    (right : Derives .factor tokens' e') :
    Derives .product (tokens ++ token :: tokens') (.binary operator e e')
  | product {tokens : List Token} {e : Expression} (alone : Derives .product tokens e) :
    Derives .sum tokens e
  | plus {tokens tokens' : List Token} {token : Token} {operator : Operator}
    {e e' : Expression} (left : Derives .sum tokens e)
    (mark : Rank.additive.operator? token.kind = some operator)
    (right : Derives .product tokens' e') :
    Derives .sum (tokens ++ token :: tokens') (.binary operator e e')

/-- No derivation spells nothing. -/
theorem Derives.ne_nil {level : Level} {tokens : List Token} {e : Expression}
    (derives : Derives level tokens e) : tokens ≠ [] := by
  induction derives with
  | number => simp
  | group => simp
  | factor _ ih => exact ih
  | times => simp
  | product _ ih => exact ih
  | plus => simp

end Reckoner

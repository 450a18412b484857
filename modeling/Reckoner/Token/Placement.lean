/-
# Where a token may stand

Whether a token can follow the tokens before it depends on the last of them and
on the number of parentheses that are open:

| before | may follow |
| --- | --- |
| nothing, an operator, `(` | a number; `(` below the limit |
| a number, `)` | an operator; `)` if one is open; the end if none is |

A sequence is an expression in form exactly when no token of it, the end
included, is misplaced.
-/

import Reckoner.Token.Basic

namespace Reckoner
namespace Token

/-- The number of left parentheses less the number of right ones. -/
def balance (tokens : List Token) : Int :=
  (tokens.countP (·.kind == .leftParen) : Int) - (tokens.countP (·.kind == .rightParen) : Int)

/-- The end token of a sequence: the first one, or `eof` if it has none. -/
def ending (tokens : List Token) : Token := (tokens.find? (·.kind == .eof)).getD eof

/-- After these tokens an operand is due: they are none, or an operator or a
left parenthesis is the last of them. -/
def OperandDue (before : List Token) : Prop :=
  ∀ token ∈ before.getLast?, token.kind = .leftParen ∨ token.kind.operator?.isSome

/-- The token cannot stand after the tokens before it. -/
def Misplaced (limit : Nat) (before : List Token) (token : Token) : Prop :=
  (OperandDue before ∧ token.kind ≠ .number ∧
      ¬ (token.kind = .leftParen ∧ balance before < limit)) ∨
    (¬ OperandDue before ∧
      (token.kind = .number ∨ token.kind = .leftParen ∨
        (token.kind = .rightParen ∧ balance before ≤ 0) ∨
        (token.kind = .eof ∧ 1 ≤ balance before)))

/-- The token at an index of a sequence, the first end token at the latest, is
misplaced. -/
def MisplacedAt (limit : Nat) (tokens : List Token) (index : Nat) : Prop :=
  index ≤ (body tokens).length ∧
    Misplaced limit ((body tokens).take index) ((body tokens)[index]?.getD (ending tokens))

theorem balance_nil : balance [] = 0 := rfl

theorem balance_append (tokens tokens' : List Token) :
    balance (tokens ++ tokens') = balance tokens + balance tokens' := by
  simp only [balance, List.countP_append]
  omega

end Token
end Reckoner

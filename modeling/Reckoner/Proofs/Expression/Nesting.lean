/-
# Nesting of groups and balance of parentheses

The tokens of a derivation close every parenthesis that they open, and reach the
nesting of the tree that they spell: at the innermost of its groups that many
parentheses are open.  So a limit on the open parentheses of a sequence is a
limit on the groups of what stands in it.
-/

import Reckoner.Expression.Grammar
import Reckoner.Proofs.Token.Balance

namespace Reckoner

open Token (balance Reaches)
open Evaluation (Rank)

variable {level : Level} {tokens tokens' : List Token} {token : Token} {e e' : Expression}
  {rank : Rank} {operator : Operator}

/-- An operator of a rank is an operator, and no parenthesis. -/
theorem Evaluation.Rank.operator_of_operator? {kind : Token.Kind}
    (mark : rank.operator? kind = some operator) :
    kind.operator?.isSome = true ∧ kind ≠ .leftParen ∧ kind ≠ .rightParen := by
  revert mark
  cases rank <;> cases kind <;> first | exact fun _ => by decide | nofun

/-- An operator between balanced operands keeps the balance. -/
theorem balance_binary (mark : rank.operator? token.kind = some operator)
    (left : balance tokens = 0) (right : balance tokens' = 0) :
    balance (tokens ++ token :: tokens') = 0 := by
  obtain ⟨-, noOpening, noClosing⟩ := Rank.operator_of_operator? mark
  rw [List.append_cons, Token.balance_append, Token.balance_concat_of_ne tokens noOpening noClosing,
    left, right]
  rfl

/-- **A derivation closes all parentheses that it opens.** -/
theorem Derives.balance_eq_zero (derives : Derives level tokens e) : balance tokens = 0 := by
  induction derives with
  | number number =>
    exact Token.balance_singleton_of_ne (by rw [number]; decide) (by rw [number]; decide)
  | @group opening closing tokens e opens _ closes ih =>
    rw [Token.balance_concat_of_rightParen _ closes, ← List.singleton_append, Token.balance_append,
      Token.balance_singleton_of_leftParen opens, ih]
    rfl
  | factor _ ih => exact ih
  | times _ mark _ ihl ihr => exact balance_binary mark ihl ihr
  | product _ ih => exact ih
  | plus _ mark _ ihl ihr => exact balance_binary mark ihl ihr

/-- What the operands of an operator reach, both together reach. -/
theorem reaches_binary (mark : rank.operator? token.kind = some operator)
    (balanced : balance tokens = 0) (left : Reaches e.nesting tokens)
    (right : Reaches e'.nesting tokens') :
    Reaches (Expression.binary operator e e').nesting (tokens ++ token :: tokens') := by
  obtain ⟨-, noOpening, noClosing⟩ := Rank.operator_of_operator? mark
  refine (left.append_right _).max ?_
  rw [List.append_cons]
  refine right.append_left ?_
  rw [Token.balance_concat_of_ne tokens noOpening noClosing, balanced, Int.zero_add]

/-- **A derivation reaches the nesting of its tree.** -/
theorem Derives.reaches_nesting (derives : Derives level tokens e) : Reaches e.nesting tokens := by
  induction derives with
  | number => exact Token.reaches_zero _
  | @group opening closing tokens e opens _ _ ih =>
    exact (ih.cons_leftParen opens).append_right [closing]
  | factor _ ih => exact ih
  | times left mark _ ihl ihr => exact reaches_binary mark left.balance_eq_zero ihl ihr
  | product _ ih => exact ih
  | plus left mark _ ihl ihr => exact reaches_binary mark left.balance_eq_zero ihl ihr

end Reckoner

/-
# Evaluation in a single pass with a stack

The reading of an expression is a recursion over its grammar, which looks one
token ahead and gives it back.  The same outcome is had without recursion and
without giving back, by a pass over the tokens that takes each of them once and
keeps what waits on a stack:

| a group waits with | for | and applies it at |
| --- | --- | --- |
| `Frame.product` | a factor | the factor itself |
| `Frame.sum` | a product | the token after it: `+`, `-`, `)` or the end |

Since a product is applied at once and a sum only at the token after it, a
misplaced token is found before the overflow of a sum, and after the overflow
of a product.  What has been read of an expression is all in a `Configuration`:
whether an operand or an operator is due, and the stack.  The stack is as high
as groups are open, and that is what the limit is held against.

`Pushdown.value` is the outcome of the pass; that it is the outcome of
`Evaluation.evaluateWithin` is shown in `Reckoner.Proofs.Pushdown.Simulation`.
-/

import Reckoner.Evaluation
import Reckoner.Proofs.Token.Body

namespace Reckoner

namespace Pushdown

open Token (body)

/-- A left operand and its operator, when one waits for its right operand. -/
abbrev Pending := Option (Int × Operator)

/-- The value of what waits once its right operand is there. -/
def resolve : Pending → Int → Except Error Int
  | none, right => .ok right
  | some (left, operator), right => operator.apply left right

/-- What waits in a group while an operand is due. -/
structure Frame where
  /-- Waits for a product. -/
  sum : Pending := none
  /-- Waits for a factor. -/
  product : Pending := none

/-- What has been read of an expression. -/
inductive Configuration
  /-- An operand is due in a group.  The groups around it wait below it. -/
  | operandDue (frame : Frame) (outer : List Frame)
  /-- An operator is due after a product of this value. -/
  | operatorDue (value : Int) (sum : Pending) (outer : List Frame)

/-- Before the first token. -/
def Configuration.start : Configuration := .operandDue {} []

/-- An operand of this value completes a factor. -/
def Frame.accept (frame : Frame) (outer : List Frame) (operand : Int) :
    Except Error Configuration := do
  return .operatorDue (← resolve frame.product operand) frame.sum outer

/-- The token cannot stand where it does. -/
def refuse {α : Type} (position : Nat) (token : Token) : Except Error α :=
  .error (.unexpectedToken token.text position)

/-- Takes one token that is not the end; the position counts it. -/
def step (limit : Option Nat) (position : Nat) (token : Token) :
    Configuration → Except Error Configuration
  | .operandDue frame outer =>
    match token.kind with
    | .number => do
      frame.accept outer (← (Numeral.read token.text).mapError (Error.malformedNumber token.text))
    | .leftParen =>
      if limit.any (· ≤ outer.length) then refuse position token
      else .ok (.operandDue {} (frame :: outer))
    | _ => refuse position token
  | .operatorDue value sum outer =>
    match token.kind with
    | .multiply => .ok (.operandDue { sum, product := some (value, .multiply) } outer)
    | .divide => .ok (.operandDue { sum, product := some (value, .divide) } outer)
    | .plus => do
      return .operandDue { sum := some (← resolve sum value, .add) } outer
    | .minus => do
      return .operandDue { sum := some (← resolve sum value, .subtract) } outer
    | .rightParen => do
      let total ← resolve sum value
      match outer with
      | [] => refuse position token
      | frame :: outer => frame.accept outer total
    | _ => refuse position token

/-- Takes the end token. -/
def halt (position : Nat) (token : Token) : Configuration → Except Error Int
  | .operandDue _ _ => refuse position token
  | .operatorDue value sum outer => do
    let total ← resolve sum value
    if outer.isEmpty then return total else refuse position token

/-- Takes tokens in turn, after a number of them that have been taken before. -/
def read (limit : Option Nat) : Nat → List Token → Configuration → Except Error Configuration
  | _, [], c => .ok c
  | count, token :: tokens, c => do
    read limit (count + 1) tokens (← step limit (count + 1) token c)

/-- Takes what is left of a sequence up to its end. -/
def finish (limit : Option Nat) (count : Nat) (tokens : List Token) (c : Configuration) :
    Except Error Int := do
  halt (count + (body tokens).length + 1) (Token.ending tokens)
    (← read limit count (body tokens) c)

/-- The value of a sequence of tokens, or the first fault in it. -/
def value (limit : Option Nat) (tokens : List Token) : Except Error Int :=
  if body tokens = [] then .ok 0 else finish limit 0 tokens .start

/-- **The value depends on the tokens before the end and on the end token alone.** -/
theorem value_congr {tokens tokens' : List Token} (body_eq : body tokens = body tokens')
    (ending_eq : Token.ending tokens = Token.ending tokens') (limit : Option Nat) :
    value limit tokens = value limit tokens' := by
  rw [value, value, finish, finish, body_eq, ending_eq]

theorem read_cons (limit : Option Nat) (count : Nat) (token : Token) (tokens : List Token)
    (c : Configuration) :
    read limit count (token :: tokens) c =
      step limit (count + 1) token c >>= read limit (count + 1) tokens := rfl

theorem read_singleton (limit : Option Nat) (count : Nat) (token : Token) (c : Configuration) :
    read limit count [token] c = step limit (count + 1) token c := bind_pure _

/-- **A pass can be stopped and gone on with anywhere.** -/
theorem read_append (limit : Option Nat) (count : Nat) (tokens tokens' : List Token)
    (c : Configuration) :
    read limit count (tokens ++ tokens') c =
      read limit count tokens c >>= read limit (count + tokens.length) tokens' := by
  induction tokens generalizing count c with
  | nil => rfl
  | cons token tokens ih =>
    rw [List.cons_append, read_cons, read_cons, bind_assoc]
    refine bind_congr fun c' => ?_
    rw [ih, List.length_cons, Nat.add_right_comm, Nat.add_assoc]

theorem finish_nil (limit : Option Nat) (count : Nat) (c : Configuration) :
    finish limit count [] c = halt (count + 1) Token.eof c := rfl

theorem finish_cons_of_eof {token : Token} (h : token.kind = .eof) (limit : Option Nat)
    (count : Nat) (tokens : List Token) (c : Configuration) :
    finish limit count (token :: tokens) c = halt (count + 1) token c := by
  rw [finish, Token.body_cons_of_eof h, Token.ending_cons_of_eof h]
  rfl

theorem finish_cons_of_ne {token : Token} (h : token.kind ≠ .eof) (limit : Option Nat)
    (count : Nat) (tokens : List Token) (c : Configuration) :
    finish limit count (token :: tokens) c =
      step limit (count + 1) token c >>= finish limit (count + 1) tokens := by
  have place : count + ((body tokens).length + 1) + 1 = count + 1 + (body tokens).length + 1 := by
    omega
  rw [finish, Token.body_cons_of_ne h, Token.ending_cons_of_ne h, read_cons, bind_assoc,
    List.length_cons, place]
  rfl

/-- **Tokens before the end are taken first,** and then what follows them. -/
theorem finish_append {tokens : List Token} (more : ∀ token ∈ tokens, token.kind ≠ .eof)
    (limit : Option Nat) (count : Nat) (tokens' : List Token) (c : Configuration) :
    finish limit count (tokens ++ tokens') c =
      read limit count tokens c >>= finish limit (count + tokens.length) tokens' := by
  induction tokens generalizing count c with
  | nil => rfl
  | cons token tokens ih =>
    rw [List.cons_append, finish_cons_of_ne (more token List.mem_cons_self), read_cons, bind_assoc]
    refine bind_congr fun c' => ?_
    rw [ih fun token mem => more token (List.mem_cons_of_mem _ mem), List.length_cons,
      Nat.add_right_comm, Nat.add_assoc]

end Pushdown
end Reckoner

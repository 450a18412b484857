/-
# Evaluating a sequence of tokens

An expression is read and evaluated in one pass over its tokens:

    sum     = product (("+" | "-") product)*
    product = factor (("*" | "/") factor)*
    factor  = number | "(" sum ")"

Operators of one rank associate to the left, and an operator is applied as soon
as its right operand has been read.  What is read is decided by one token, and
the token that ends a chain is given back, to be read again by what follows.

| reading | ends before |
| --- | --- |
| a sum | the end, `)` |
| a product | the end, `)`, `+`, `-` |

A token that can neither continue nor end what is being read is the error, at
the count of tokens read so far.  Groups nest at most `maxNesting` deep: a
parenthesis that would open one more is itself unexpected.  A sequence without
tokens before its end has the value `0`.
-/

import Reckoner.Arithmetic
import Reckoner.Token.Cursor

namespace Reckoner
namespace Evaluation

/-- What an evaluation keeps track of. -/
structure State where
  /-- The place among the tokens. -/
  cursor : Cursor
  /-- The number of groups that are open. -/
  depth : Nat := 0
  /-- The moves made on the cursor, the latest first. -/
  trail : List Cursor.Move := []
  deriving DecidableEq, Repr

/-- The state after a move of the cursor, which is noted. -/
def State.move (state : State) (m : Cursor.Move) : State :=
  { state with cursor := state.cursor.move m, trail := m :: state.trail }

/-- A step of an evaluation.  The state is kept when the step fails. -/
abbrev Eval (α : Type) := EStateM Error State α

/-- Reads one token. -/
def next : Eval Token := do
  let state ← get
  set (state.move .next)
  return state.cursor.current

/-- Gives the token read last back. -/
def back : Eval Unit := modify (·.move .back)

/-- Fails at the token read last. -/
def unexpected {α : Type} (token : Token) : Eval α := do
  let state ← get
  throw (.unexpectedToken token.text state.cursor.position)

/-- Reading yields the token at the cursor and moves on. -/
@[simp]
theorem run_next (state : State) :
    next.run state = .ok state.cursor.current (state.move .next) := rfl

/-- Giving back only moves. -/
@[simp]
theorem run_back (state : State) : back.run state = .ok () (state.move .back) := rfl

/-- An unexpected token is reported at the count of tokens read. -/
@[simp]
theorem run_unexpected {α : Type} (token : Token) (state : State) :
    (unexpected token : Eval α).run state =
      .error (.unexpectedToken token.text state.cursor.position) state := rfl

/-- The two ranks of operators; a product binds closer than a sum. -/
inductive Rank
  | additive
  | multiplicative
  deriving DecidableEq, Repr

namespace Rank

/-- The operator of this rank that a token stands for. -/
def operator? : Rank → Token.Kind → Option Operator
  | .additive, .plus => some .add
  | .additive, .minus => some .subtract
  | .multiplicative, .multiply => some .multiply
  | .multiplicative, .divide => some .divide
  | _, _ => none

/-- Whether a token ends a chain of this rank. -/
def endsAt : Rank → Token.Kind → Bool
  | _, .eof => true
  | _, .rightParen => true
  | .multiplicative, .plus => true
  | .multiplicative, .minus => true
  | _, _ => false

end Rank

/-- Reads the rest of a chain after an operand of the given value.  `room`
bounds the tokens not yet read; with none of them left the end is next. -/
def chainFrom (rank : Rank) (operand : Eval Int) : Nat → Int → Eval Int
  | 0, value => do
    let _ ← next
    back
    return value
  | room + 1, value => do
    let token ← next
    match rank.operator? token.kind with
    | some operator =>
      let right ← operand
      let result ← ofExcept (operator.apply value right)
      chainFrom rank operand room result
    | none =>
      if rank.endsAt token.kind then
        back
        return value
      else unexpected token

/-- Reads a chain: an operand, and any number of operators of the rank with an
operand each. -/
def chain (rank : Rank) (operand : Eval Int) (room : Nat) : Eval Int := do
  let first ← operand
  chainFrom rank operand room first

/-- The value of a number token. -/
def number (token : Token) : Eval Int :=
  ofExcept ((Numeral.read token.text).mapError (Error.malformedNumber token.text))

/-- Opens a group, if one more may be opened. -/
def enter (limit : Option Nat) (token : Token) : Eval Unit := do
  let state ← get
  if limit.any (· ≤ state.depth) then unexpected token
  else set { state with depth := state.depth + 1 }

/-- Closes a group. -/
def leave : Eval Unit := modify fun state => { state with depth := state.depth - 1 }

/-- Reads what stands in a group, and its closing parenthesis. -/
def group (limit : Option Nat) (inner : Eval Int) (token : Token) : Eval Int := do
  enter limit token
  let value ← inner
  leave
  let closing ← next
  if closing.kind = .rightParen then return value else unexpected closing

/-- Reads a number or a group. -/
def operand (limit : Option Nat) (inner : Eval Int) : Eval Int := do
  let token ← next
  match token.kind with
  | .number => number token
  | .leftParen => group limit inner token
  | _ => unexpected token

/-- Reads a factor, with `room` for the tokens not yet read: a group has at
least its parenthesis less to read. -/
def factorWithin (limit : Option Nat) : Nat → Eval Int
  | 0 => do unexpected (← next)
  | room + 1 =>
    operand limit
      (chain .additive (chain .multiplicative (factorWithin limit room) room) room)

/-- Reads a product, with `room` for the tokens not yet read. -/
def productWithin (limit : Option Nat) (room : Nat) : Eval Int :=
  chain .multiplicative (factorWithin limit room) room

/-- Reads a sum, with `room` for the tokens not yet read. -/
def sumWithin (limit : Option Nat) (room : Nat) : Eval Int :=
  chain .additive (productWithin limit room) room

/-- The number of tokens not yet read. -/
def room : Eval Nat := return (← get).cursor.remaining

/-- Reads a factor: a number or a group. -/
def factor (limit : Option Nat) : Eval Int := do factorWithin limit (← room)

/-- Reads a product: factors with `*` and `/` between them. -/
def product (limit : Option Nat) : Eval Int := do productWithin limit (← room)

/-- Reads a sum: products with `+` and `-` between them. -/
def sum (limit : Option Nat) : Eval Int := do sumWithin limit (← room)

/-- Reads everything up to the end. -/
def expression (limit : Option Nat) : Eval Int := do
  let first ← next
  if first.kind = .eof then return 0
  else
    back
    let value ← sum limit
    let last ← next
    if last.kind = .eof then return value else unexpected last

/-- The state in front of the first token. -/
def State.start (tokens : List Token) : State := { cursor := Cursor.ofTokens tokens }

/-- Evaluates the tokens and keeps the state in which the evaluation ended. -/
def run (limit : Option Nat) (tokens : List Token) : EStateM.Result Error State Int :=
  (expression limit).run (State.start tokens)

/-- Evaluates the tokens under a limit on nested groups, or under none. -/
def evaluateWithin (limit : Option Nat) (tokens : List Token) : Except Error Int :=
  match run limit tokens with
  | .ok value _ => .ok value
  | .error error _ => .error error

end Evaluation

/-- How deep groups may nest. -/
def maxNesting : Nat := 256

/-- The value of a sequence of tokens, or the first fault in it. -/
def evaluate (tokens : List Token) : Except Error Int :=
  Evaluation.evaluateWithin (some maxNesting) tokens

end Reckoner

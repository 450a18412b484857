/-
# A cursor over tokens

A cursor is a place in a sequence of tokens.  It can be moved one token on or
one token back:

| move | place `p` becomes | reads |
| --- | --- | --- |
| `next` | `p + 1` | the token at `p`, or `Token.eof` when there is none |
| `back` | `p - 1`, and `0` stays `0` | nothing |

A cursor moves on past the end as well, so `back` always undoes `next`
(`Cursor.move_next_back`).
-/

import Reckoner.Token.Basic

namespace Reckoner

/-- A place in a sequence of tokens. -/
structure Cursor where
  tokens : Array Token
  position : Nat := 0
  deriving DecidableEq, Repr

namespace Cursor

/-- A move of a cursor. -/
inductive Move
  | next
  | back
  deriving DecidableEq, Repr

/-- A cursor in front of the first token. -/
def ofTokens (tokens : List Token) : Cursor := { tokens := tokens.toArray }

/-- The token that `next` reads. -/
def current (cursor : Cursor) : Token := cursor.tokens[cursor.position]?.getD Token.eof

/-- The place after a move. -/
def move (cursor : Cursor) : Move → Cursor
  | .next => { cursor with position := cursor.position + 1 }
  | .back => { cursor with position := cursor.position - 1 }

/-- The place after several moves. -/
def replay (cursor : Cursor) (moves : List Move) : Cursor := moves.foldl move cursor

/-- The number of tokens not yet read. -/
def remaining (cursor : Cursor) : Nat := cursor.tokens.size - cursor.position

@[simp]
theorem tokens_move (cursor : Cursor) (m : Move) : (cursor.move m).tokens = cursor.tokens := by
  cases m <;> rfl

@[simp]
theorem move_next_back (cursor : Cursor) : (cursor.move .next).move .back = cursor := rfl

end Cursor
end Reckoner

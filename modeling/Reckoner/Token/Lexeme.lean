/-
# From text to tokens

An expression is written with twelve kinds of character:

| characters | become |
| --- | --- |
| `(` `)` `+` `-` `*` `/` | a token each |
| `0` to `9` | one number token for each longest run of them |
| a space | nothing, but it ends a run |

Any other character, a tab or a line end among them, is refused, and the first
one is the error whatever stands before it.  A number token keeps its digits as
they are written, leading zeros included.
-/

import Reckoner.Error
import Reckoner.Token.Basic

namespace Reckoner
namespace Token

/-- The kind of token that a single mark makes. -/
def Kind.ofMark? : Char → Option Kind
  | '(' => some .leftParen
  | ')' => some .rightParen
  | '+' => some .plus
  | '-' => some .minus
  | '*' => some .multiply
  | '/' => some .divide
  | _ => none

/-- The characters that may stand in an expression. -/
def isLexical (char : Char) : Bool :=
  char == ' ' || char.isDigit || (Kind.ofMark? char).isSome

/-- Two neighbours belong to one lexeme when both are digits. -/
def joined (left right : Char) : Bool := left.isDigit && right.isDigit

/-- The token of a lexeme; a space has none. -/
def ofLexeme? : List Char → Option Token
  | [] => none
  | char :: rest =>
    if char.isDigit then some { kind := .number, text := String.ofList (char :: rest) }
    else (Kind.ofMark? char).map fun kind => { kind, text := String.singleton char }

/-- The tokens of a text of lexical characters, without the end token. -/
def ofLexemes (chars : List Char) : List Token := (chars.splitBy joined).filterMap ofLexeme?

/-- The tokens of an expression with the end token, or the first character that
may not stand in one. -/
def ofText (text : String) : Except Error (List Token) :=
  match text.toList.find? (!isLexical ·) with
  | some char => .error (.unexpectedCharacter char)
  | none => .ok (ofLexemes text.toList ++ [eof])

end Token
end Reckoner

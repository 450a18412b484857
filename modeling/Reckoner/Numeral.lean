/-
# Reading a decimal numeral

A numeral is an optional sign, `+` or `-`, and then one or more ASCII digits.
The digits are read from the left with the value so far, and the first fault
met is the one reported:

| fault | met when |
| --- | --- |
| `empty` | there is no character at all |
| `invalidDigit` | the sign stands alone, or a character is no digit |
| `tooLarge` | a digit takes the value above `highest` |
| `tooSmall` | a digit takes the value below `lowest` |

So `12a` and `-` have an invalid digit, and of an overlong numeral with a
letter in it the earlier of the two faults decides.
-/

import Reckoner.Integer

namespace Reckoner
namespace Numeral

open Integer

/-- Why a text is not a numeral of a representable integer. -/
inductive Fault
  /-- There is no character to read. -/
  | empty
  /-- A digit is expected and something else, or nothing, is there. -/
  | invalidDigit
  /-- The value is above `Integer.highest`. -/
  | tooLarge
  /-- The value is below `Integer.lowest`. -/
  | tooSmall
  deriving DecidableEq, Repr

/-- The wording of each fault. -/
def Fault.message : Fault → String
  | .empty => "cannot parse integer from empty string"
  | .invalidDigit => "invalid digit found in string"
  | .tooLarge => "number too large to fit in target type"
  | .tooSmall => "number too small to fit in target type"

/-- The sign in front of the digits. -/
inductive Sign
  | plus
  | minus
  deriving DecidableEq, Repr

namespace Sign

/-- One more digit on the right: `10v + d`, or `10v - d` under a minus. -/
def extend : Sign → Int → Nat → Int
  | .plus, value, digit => 10 * value + digit
  | .minus, value, digit => 10 * value - digit

/-- Under a plus the value can only grow too large, under a minus too small. -/
def overrun : Sign → Fault
  | .plus => .tooLarge
  | .minus => .tooSmall

end Sign

/-- The value of an ASCII digit. -/
def digit? (char : Char) : Option Nat :=
  if char.isDigit then some (char.toNat - '0'.toNat) else none

/-- Reads the remaining characters as digits after `value`, up to the first
fault. -/
def scan (sign : Sign) (value : Int) : List Char → Except Fault Int
  | [] => .ok value
  | char :: rest =>
    match digit? char with
    | none => .error .invalidDigit
    | some digit =>
      if Representable (sign.extend value digit) then scan sign (sign.extend value digit) rest
      else .error sign.overrun

/-- Reads what follows the sign, which holds at least one digit. -/
def unsigned (sign : Sign) : List Char → Except Fault Int
  | [] => .error .invalidDigit
  | chars => scan sign 0 chars

/-- Reads a numeral: a sign, if there is one, and its digits. -/
def ofChars : List Char → Except Fault Int
  | [] => .error .empty
  | '+' :: digits => unsigned .plus digits
  | '-' :: digits => unsigned .minus digits
  | digits => unsigned .plus digits

/-- The integer that `text` denotes, or the first fault in it. -/
def read (text : String) : Except Fault Int := ofChars text.toList

end Numeral
end Reckoner

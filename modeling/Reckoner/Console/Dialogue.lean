/-
# A dialogue of prompts and lines

A program that talks to its user line by line is a value: it is done, or it
shows a prompt and goes on with the line that comes back.  Run on the bytes of
an input, it takes one line at each prompt, up to and including the line feed;
what follows the last line taken is never looked at.  When the input is at its
end the line is empty.
-/

namespace Reckoner
namespace Console

/-- How a run of the program ends, and what it has written. -/
structure Outcome where
  exitCode : Nat
  stdout : String := ""
  stderr : String := ""
  deriving DecidableEq, Repr

/-- What a program does next. -/
inductive Dialogue
  /-- It ends. -/
  | done (outcome : Outcome)
  /-- It shows a prompt, and goes on with the line read. -/
  | ask (prompt : String) (resume : List UInt8 → Dialogue)

/-- The byte that ends a line. -/
def lineFeed : UInt8 := 10

/-- The first line of an input, with its line feed if it has one. -/
def firstLine (input : List UInt8) : List UInt8 :=
  input.takeWhile (· != lineFeed) ++ (input.dropWhile (· != lineFeed)).take 1

/-- What follows the first line of an input. -/
def afterLine (input : List UInt8) : List UInt8 := (input.dropWhile (· != lineFeed)).drop 1

namespace Dialogue

/-- What the dialogue comes to on an input. -/
def run : Dialogue → List UInt8 → Outcome
  | .done outcome, _ => outcome
  | .ask prompt resume, input =>
    let outcome := (resume (firstLine input)).run (afterLine input)
    { outcome with stdout := prompt ++ outcome.stdout }

end Dialogue

/-- Drops all carriage returns and line feeds at the end. -/
def withoutLineEnd (text : String) : String :=
  String.ofList (text.toList.reverse.dropWhile fun char => char == '\r' || char == '\n').reverse

/-- The text of a line, if its bytes are UTF-8. -/
def lineText? (line : List UInt8) : Option String :=
  (String.fromUTF8? line.toByteArray).map withoutLineEnd

end Console
end Reckoner

/-
# What the arguments ask for

| argument | meaning |
| --- | --- |
| `-e V`, `-eV`, `-e=V`, `--expression V`, `--expression=V` | the expression |
| `-v V`, `-vV`, `-v=V`, `--variables V`, `--variables=V` | the assignments |
| `--whole-word` | replace names only where they stand alone |
| `-h`, `--help` | show the help and do nothing else |
| `-V`, `--version` | show the version and do nothing else |

A value that is attached may be any text, the empty one included; one `=` in
front of it is dropped.  A value that stands alone may not begin with `-`,
unless it is `-` itself.  Each option may be given once.  Everything else, a
further argument after `--` included, is a misuse; `--` as the last argument is
not.  Arguments are taken from the left, and the first misuse or request for
the help or the version decides.
-/

import Reckoner.Text.Replacement

namespace Reckoner
namespace Console

/-- The two texts that a calculation needs. -/
inductive Field
  | expression
  | variables
  deriving DecidableEq, Repr

/-- What the options of a calculation give. -/
structure Options where
  expression? : Option String := none
  variables? : Option String := none
  wholeWord : Bool := false
  deriving DecidableEq, Repr

namespace Options

/-- The text given for a field. -/
def get? (options : Options) : Field → Option String
  | .expression => options.expression?
  | .variables => options.variables?

/-- Gives the text of a field. -/
def set (options : Options) (field : Field) (text : String) : Options :=
  match field with
  | .expression => { options with expression? := some text }
  | .variables => { options with variables? := some text }

/-- The matching that the options choose. -/
def matching (options : Options) : Matching :=
  if options.wholeWord then .wholeWord else .anywhere

end Options

/-- What a single argument is. -/
inductive Argument
  /-- A field, and its value where that is attached. -/
  | field (field : Field) (attached : Option String)
  | wholeWord
  | help
  | version
  | unknown
  deriving DecidableEq, Repr

namespace Argument

/-- An option by its long name, and the value after `=`. -/
def ofLong : String → Option String → Argument
  | "expression", attached => .field .expression attached
  | "variables", attached => .field .variables attached
  | "whole-word", none => .wholeWord
  | "help", none => .help
  | "version", none => .version
  | _, _ => .unknown

/-- The value attached to a letter: whatever follows it, less one `=`. -/
def attached? : List Char → Option String
  | [] => none
  | '=' :: value => some (String.ofList value)
  | value => some (String.ofList value)

/-- An option by its letter, and the characters after it. -/
def ofShort (letter : Char) (rest : List Char) : Argument :=
  match letter with
  | 'e' => .field .expression (attached? rest)
  | 'v' => .field .variables (attached? rest)
  | 'h' => .help
  | 'V' => .version
  | _ => .unknown

/-- What an argument is, by its characters. -/
def ofChars : List Char → Argument
  | '-' :: '-' :: long =>
    ofLong (String.ofList (long.takeWhile (· != '=')))
      (((long.dropWhile (· != '=')).tail?).map String.ofList)
  | '-' :: letter :: rest => ofShort letter rest
  | _ => .unknown

end Argument

/-- Whether an argument may be the value of the option before it. -/
def standsAlone (argument : String) : Bool :=
  argument == "-" || argument.toList.head? != some '-'

/-- What is to be done. -/
inductive Command
  /-- Refuse the arguments. -/
  | misuse
  /-- Show the help. -/
  | help
  /-- Show the version. -/
  | version
  /-- Calculate with what the options give. -/
  | calculate (options : Options)
  deriving DecidableEq, Repr

namespace Command

/-- The command of the remaining arguments after the options read so far. -/
def after (options : Options) : List String → Command
  | [] => .calculate options
  | ["--"] => .calculate options
  | argument :: rest =>
    match Argument.ofChars argument.toList with
    | .unknown => .misuse
    | .help => .help
    | .version => .version
    | .wholeWord =>
      if options.wholeWord then .misuse else after { options with wholeWord := true } rest
    | .field field (some value) =>
      if (options.get? field).isSome then .misuse else after (options.set field value) rest
    | .field field none =>
      match rest with
      | [] => .misuse
      | value :: rest =>
        if (options.get? field).isSome || !standsAlone value then .misuse
        else after (options.set field value) rest

/-- The command of the arguments. -/
def ofArguments (arguments : List String) : Command := after {} arguments

end Command
end Console
end Reckoner

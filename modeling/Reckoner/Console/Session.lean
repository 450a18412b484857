/-
# A session at the console

What the options do not give is asked for, the expression before the
assignments.  The value of the request goes to the standard output; an error is
worded on the standard error, and so is a line that is no text:

| how it ends | exit code | output | error output |
| --- | ---: | --- | --- |
| a value | 0 | the value in decimal | |
| an error in the request | 1 | | `Invalid input:` and its wording |
| a line that is not UTF-8 | 1 | | which of the two it was |
| the help | 0 | how the program is used | |
| the version | 0 | name and version | |
| a misuse | 2 | | (left open) |

Of a misuse only the exit code is fixed here.  How it is worded depends on what is
wrong with the arguments, and is no concern of a calculation.
-/

import Reckoner.Console.Command
import Reckoner.Console.Dialogue
import Reckoner.Request

namespace Reckoner
namespace Console

/-- The name under which the program runs. -/
def programName : String := "intcalc"

/-- The version of the program. -/
def programVersion : String := "0.1.0"

namespace Field

/-- What is shown when a field has to be asked for. -/
def prompt : Field → String
  | .expression => "Enter an expression: "
  | .variables => "Enter variable values (for x, y, z: x 5 y 10 z 11): "

/-- What a field is called when its line cannot be read. -/
def name : Field → String
  | .expression => "expression"
  | .variables => "variables"

end Field

namespace Outcome

/-- The end of a session that has an answer. -/
def ofAnswer : Except Error Int → Outcome
  | .ok value => { exitCode := 0, stdout := toString value ++ "\n" }
  | .error error => { exitCode := 1, stderr := "Invalid input: " ++ error.message ++ "\n" }

/-- The end of a session in which the line for a field is not UTF-8. -/
def unreadable (field : Field) : Outcome :=
  { exitCode := 1
    stderr := " ERROR " ++ programName ++ " > Failed to read the " ++ field.name ++
      ": stream did not contain valid UTF-8\n" }

/-- How the program is used. -/
def helpLines : List String :=
  ["Evaluates an integer arithmetic expression with + - * / and parentheses",
    "",
    "Usage: " ++ programName ++ " [OPTIONS]",
    "",
    "Options:",
    "  -e, --expression <EXPRESSION>  The expression, e.g. \"a + b * (c - 1)\"",
    "  -v, --variables <VARIABLES>    Variable values as \"name value name value ...\", " ++
      "e.g. \"a 2 b 3 c 4\"",
    "      --whole-word               Only substitute variable names that stand alone, " ++
      "not inside longer words",
    "  -h, --help                     Print help",
    "  -V, --version                  Print version"]

/-- The end of a session that shows the help. -/
def help : Outcome := { exitCode := 0, stdout := String.join (helpLines.map (· ++ "\n")) }

/-- The end of a session that shows the version. -/
def version : Outcome := { exitCode := 0, stdout := programName ++ " " ++ programVersion ++ "\n" }

/-- The end of a session whose arguments are a misuse: its exit code, and no more. -/
def misuse : Outcome := { exitCode := 2 }

end Outcome

/-- Goes on with the text of a field, which is asked for unless it is given. -/
def obtaining (options : Options) (field : Field) (resume : String → Dialogue) : Dialogue :=
  match options.get? field with
  | some text => resume text
  | none =>
    .ask field.prompt fun line =>
      match lineText? line with
      | some text => resume text
      | none => .done (Outcome.unreadable field)

namespace Command

/-- The dialogue that carries a command out. -/
def dialogue : Command → Dialogue
  | .misuse => .done Outcome.misuse
  | .help => .done Outcome.help
  | .version => .done Outcome.version
  | .calculate options =>
    obtaining options .expression fun expression =>
      obtaining options .variables fun assignments =>
        .done (Outcome.ofAnswer (Request.answer options.matching { expression, assignments }))

end Command

/-- What the program comes to on its arguments and its input. -/
def run (arguments : List String) (input : List UInt8) : Outcome :=
  (Command.ofArguments arguments).dialogue.run input

end Console
end Reckoner

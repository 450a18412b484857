/-
# The program

Carries the dialogue of its arguments out on the standard streams.
-/

import Reckoner.Console.Session

namespace Reckoner
namespace Console

/-- Reads the rest of a line, up to and including its line feed. -/
partial def readLine (stream : IO.FS.Stream) (line : List UInt8) : IO (List UInt8) := do
  match (← stream.read 1).toList with
  | [] => return line.reverse
  | byte :: _ =>
    if byte == lineFeed then return (byte :: line).reverse else readLine stream (byte :: line)

/-- Carries a dialogue out and gives its exit code. -/
def Dialogue.perform : Dialogue → IO UInt32
  | .done outcome => do
    IO.print outcome.stdout
    IO.eprint outcome.stderr
    return outcome.exitCode.toUInt32
  | .ask prompt resume => do
    IO.print prompt
    (← IO.getStdout).flush
    let line ← readLine (← IO.getStdin) []
    (resume line).perform

end Console
end Reckoner

/-- Calculates what the arguments ask for. -/
def main (arguments : List String) : IO UInt32 :=
  (Reckoner.Console.Command.ofArguments arguments).dialogue.perform

/-
# Nothing behind the end is read

The end of an expression is read, given back and read again by each chain that it
ends, a product, a sum and the expression itself.  Nothing behind it is read:

| sequence | reads the same as |
| --- | --- |
| tokens, an end token and any tokens behind it | the tokens and that end token |
| tokens | the tokens and `Token.eof` |

The end token may stand in the middle of a group or where an operand is due, and it
may have any text, which an error at the end quotes.  In the pass with a stack, what
is taken of a sequence is its body and its ending (`Pushdown.value_congr`), and
tokens behind an end token are in neither.
-/

import Reckoner.Proofs.Pushdown.Stop
import Reckoner.Token.Lexeme

namespace Reckoner
namespace Evaluation

/-- **Nothing behind the end is read.**  Tokens behind an end token do not matter, in
whatever place it stands and whatever its text is; and where there is no end token,
one without text is as good as read behind all others. -/
theorem evaluate_up_to_end (tokens : List Token) :
    (∀ last : Token, last.kind = .eof → ∀ after,
      evaluate (tokens ++ [last] ++ after) = evaluate (tokens ++ [last])) ∧
      evaluate tokens = evaluate (tokens ++ [Token.eof]) := by
  simp only [evaluate, Pushdown.evaluateWithin_eq_value]
  refine ⟨fun last atEnd after => ?_, (Pushdown.value_concat_eof tokens).symm⟩
  rw [List.append_assoc, List.singleton_append]
  exact Pushdown.value_behind_eof atEnd tokens after []

/-- The end of a line in `2 * (3 +` is unexpected, whatever stands in the next line. -/
theorem line_end_within_group :
    evaluate (Token.ofLexemes "2 * (3 +".toList ++ [⟨.eof, "\n"⟩] ++
        Token.ofLexemes "4) / 0".toList) = .error (.unexpectedToken "\n" 6) := by
  rw [(evaluate_up_to_end _).1 ⟨.eof, "\n"⟩ rfl]
  decide +kernel

end Evaluation
end Reckoner

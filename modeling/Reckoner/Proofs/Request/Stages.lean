/-
# Which stage a request fails at

A request fails at the first stage that finds a fault, whatever faults a later
stage would find.  Each stage leaves to the next one only what it cannot refuse,
so the last stage has few ways to fail:

| stage | what is refused | error |
| --- | --- | --- |
| assignments | an odd number of items | unpaired assignments, their number |
| tokens | a character outside of the alphabet | the first such character |
| evaluation | what the tokens say | a token, a divisor, an operator, a number |

The numbers that reach the evaluation are runs of digits, so the only fault in
one is that it is too large (`Numeral.read_digits`): there is always something to
read, never a character that is no digit, and no minus.
-/

import Reckoner.Proofs.Numeral.Decimal
import Reckoner.Proofs.Pushdown.Stop
import Reckoner.Proofs.Request.Pairing
import Reckoner.Proofs.Token.Written
import Reckoner.Request

namespace Reckoner

open Token (alphabet IsDigitRun Written WrittenIn)

namespace Token

/-- What is written of tokens stands before the end. -/
theorem body_written (body : List Written) :
    Token.body (body.map Written.token ++ [eof]) = body.map Written.token := by
  have more : ∀ t ∈ body.map Written.token, t.kind ≠ .eof := by
    intro t mem
    obtain ⟨written, -, rfl⟩ := List.mem_map.1 mem
    exact written.isWritten.ne_eof
  rw [body_concat_eof, body_eq_self more]

end Token

namespace Request

/-- The expression of a request with values put for the names. -/
def substituted (matching : Matching) (request : Request) : Except Error String := do
  let bindings ← Bindings.ofText request.assignments
  return bindings.substitute matching request.expression

/-- What may come of the evaluation of a text and of its tokens, the end included. -/
inductive Outcome (text : List Char) (tokens : List Token) : Except Error Int → Prop
  | value (v : Int) : Outcome text tokens (.ok v)
  /-- The place of an unexpected token is one of the tokens. -/
  | unexpectedToken (quoted : String) (position : Nat) (positive : 1 ≤ position)
    (within : position ≤ tokens.length) :
    Outcome text tokens (.error (.unexpectedToken quoted position))
  | divisionByZero : Outcome text tokens (.error .divisionByZero)
  | overflow (operator : Operator) : Outcome text tokens (.error (.overflow operator))
  /-- A malformed number is a run of digits that denotes too much. -/
  | tooLarge (digits : String) (run : IsDigitRun digits.toList text)
    (exceeds : Integer.highest < Nat.ofDigitChars 10 digits.toList 0) :
    Outcome text tokens (.error (.malformedNumber digits .tooLarge))

variable {matching : Matching} {request : Request} {text : String} {tokens : List Token}

/-- A request is answered with the evaluation of the substituted expression. -/
theorem answer_eq_bind (matching : Matching) (request : Request) :
    request.answer matching =
      request.substituted matching >>= fun text => Token.ofText text >>= evaluate := by
  rw [answer, substituted, bind_assoc]
  rfl

/-- **The only fault of a written number is that it is too large.** -/
theorem tooLarge_of_read {body : List Written} {written : Written} {fault : Numeral.Fault}
    (writtenIn : WrittenIn body text.toList) (mem : written ∈ body)
    (number : written.token.kind = .number)
    (read : Numeral.read written.token.text = .error fault) :
    Outcome text.toList tokens (.error (.malformedNumber written.token.text fault)) := by
  have run := writtenIn.isDigitRun mem number
  rw [Numeral.read_digits run.isDigits.ne_nil run.isDigits.digits] at read
  split at read
  next => cases read
  next exceeds =>
    cases read
    exact .tooLarge written.token.text run (Int.not_le.1 exceeds)

/-- **The tokens of a text are evaluated with one of five outcomes.** -/
theorem outcome_of_ofText (cut : Token.ofText text = .ok tokens) :
    Outcome text.toList tokens (evaluate tokens) := by
  obtain ⟨body, rfl, writtenIn⟩ := Token.exists_writtenIn cut
  rw [evaluate, Pushdown.evaluateWithin_eq_value]
  cases outcome : Pushdown.value (some maxNesting) (body.map Written.token ++ [Token.eof]) with
  | ok v => exact .value v
  | error error =>
    obtain ⟨position, token, positive, within, stands, blames⟩ := Pushdown.blames_of_value outcome
    rw [Token.body_written] at within stands
    cases blames with
    | unexpectedToken =>
      refine .unexpectedToken token.text position positive ?_
      rwa [List.length_append, List.length_singleton]
    | divisionByZero => exact .divisionByZero
    | overflow operator => exact .overflow operator
    | malformedNumber number read =>
      rcases stands with mem | atEnd
      · obtain ⟨written, mem', rfl⟩ := List.mem_map.1 mem
        exact tooLarge_of_read writtenIn mem' number read
      · rw [atEnd] at number
        cases number

/-- **The first stage with a fault decides.**  An odd number of items is reported
whatever the expression is.  With an even number the expression is substituted,
and the first character of it outside of the alphabet is reported whatever stands
before it.  With no such character it has tokens, and the evaluation of these
has a value or one of four errors. -/
theorem answer_by_stages (matching : Matching) (request : Request) :
    ((Text.items request.assignments).length % 2 = 1 →
      request.answer matching =
        .error (.unpairedAssignments (Text.items request.assignments).length)) ∧
    ((Text.items request.assignments).length % 2 = 0 →
      ∃ text, request.substituted matching = .ok text ∧
        (∀ before char after, text.toList = before ++ char :: after →
          (∀ x ∈ before, x ∈ alphabet) → char ∉ alphabet →
            request.answer matching = .error (.unexpectedCharacter char)) ∧
        ((∀ x ∈ text.toList, x ∈ alphabet) →
          ∃ tokens, Token.ofText text = .ok tokens ∧
            Outcome text.toList tokens (request.answer matching))) := by
  refine ⟨fun odd => ?_, fun even => ?_⟩
  · rw [answer, Bindings.ofText_of_odd odd]
    rfl
  · obtain ⟨bindings, assigned⟩ := Bindings.exists_ofText_of_even even
    have substituted_eq : request.substituted matching =
        .ok (bindings.substitute matching request.expression) := by
      rw [substituted, assigned]
      rfl
    refine ⟨_, substituted_eq, fun before char after split allowed refused => ?_, fun allowed => ?_⟩
    · rw [answer_eq_bind, substituted_eq]
      show Token.ofText _ >>= evaluate = _
      rw [Token.ofText_eq_error.2 ⟨before, after, split, allowed, refused⟩]
      rfl
    · obtain ⟨body, -, writtenIn⟩ := Token.exists_layout fun x mem =>
        Token.isLexical_iff_mem.2 (allowed x mem)
      have cut := Token.ofText_of_writtenIn writtenIn
      refine ⟨_, cut, ?_⟩
      rw [answer_eq_bind, substituted_eq]
      show Outcome _ _ (Token.ofText _ >>= evaluate)
      rw [cut]
      exact outcome_of_ofText cut

/-- In `1 / 0 + * y` with `x 2` the letter is refused, though a division by zero
and an unexpected token stand before it. -/
theorem answer_letter_after_faults :
    answer .anywhere { expression := "1 / 0 + * y", assignments := "x 2" } =
      .error (.unexpectedCharacter 'y') := by
  obtain ⟨text, substituted_eq, refused, -⟩ :=
    (answer_by_stages .anywhere { expression := "1 / 0 + * y", assignments := "x 2" }).2
      (by decide +kernel)
  have text_eq : substituted .anywhere { expression := "1 / 0 + * y", assignments := "x 2" } =
      .ok "1 / 0 + * y" := by decide +kernel
  have allowed : "1 / 0 + * ".toList.all Token.isLexical := by decide
  rw [text_eq] at substituted_eq
  cases substituted_eq
  exact refused "1 / 0 + * ".toList 'y' [] (by decide)
    (fun x mem => Token.isLexical_iff_mem.1 (List.all_eq_true.1 allowed x mem)) (by decide)

end Request

end Reckoner

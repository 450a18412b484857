/-
# A text given or asked for

Each of the two texts of a request reaches the program in one of two ways:

| way | shown | taken from the input |
| --- | --- | --- |
| as the value of its option | nothing | nothing |
| as a line, the expression's first | its prompt | the line |

Which way each of them takes does not matter for anything else: the texts that
arrive are the same, and what is behind the lines asked for is not looked at.
Obtaining one field shows its prompt or nothing, and leaves in the input the
lines of the fields that come later (`run_obtaining`).
-/

import Reckoner.Console.Session
import Reckoner.Proofs.Console.Arguments
import Reckoner.Proofs.Console.Line

namespace Reckoner

/-- The text of a request for a field. -/
def Request.text (request : Request) : Console.Field → String
  | .expression => request.expression
  | .variables => request.assignments

namespace Console

/-- The outcome with something shown in front. -/
def Outcome.after (shown : String) (outcome : Outcome) : Outcome :=
  { outcome with stdout := shown ++ outcome.stdout }

/-- What is shown when these fields are asked for. -/
def prompts (fields : List Field) : String := String.join (fields.map Field.prompt)

/-- Those of the fields that the options do not give. -/
def Options.missing (options : Options) (fields : List Field) : List Field :=
  fields.filter fun field => (options.get? field).isNone

/-- The texts of a request are supplied: some as options, the missing ones as
lines of the input. -/
structure Supplied (request : Request) (options : Options) (arguments : List String)
    (input : List UInt8) : Prop where
  spelled : options.SpelledBy arguments
  given : ∀ field text, options.get? field = some text → text = request.text field
  typed : Holds ((options.missing Field.all).map request.text) input

variable {request : Request} {options : Options} {field : Field} {later : List Field}
  {arguments : List String} {input : List UInt8}

theorem Outcome.after_empty (outcome : Outcome) : outcome.after "" = outcome := by
  rw [Outcome.after, String.empty_append]

theorem Outcome.after_after (shown more : String) (outcome : Outcome) :
    (outcome.after more).after shown = outcome.after (shown ++ more) := by
  simp only [Outcome.after, String.append_assoc]

theorem prompts_append (fields more : List Field) :
    prompts (fields ++ more) = prompts fields ++ prompts more := by
  rw [prompts, prompts, prompts, List.map_append, String.join_append]

theorem Options.missing_cons (options : Options) (field : Field) (later : List Field) :
    options.missing (field :: later) = options.missing [field] ++ options.missing later := by
  rw [missing, missing, missing, ← List.filter_append, List.singleton_append]

theorem prompts_singleton (field : Field) : prompts [field] = field.prompt := by
  rw [prompts, List.map_singleton, String.join_cons, String.join_nil, String.append_empty]

theorem Options.missing_of_some {text : String} (found : options.get? field = some text) :
    options.missing [field] = [] := by
  simp [missing, found]

theorem Options.missing_of_none (found : options.get? field = none) :
    options.missing [field] = [field] := by
  simp [missing, found]

/-- A text that is given is taken as it is. -/
theorem run_obtaining_given {text : String} (found : options.get? field = some text)
    (resume : String → Dialogue) (input : List UInt8) :
    (obtaining options field resume).run input = (resume text).run input := by
  rw [obtaining, found]

/-- A text that is missing is asked for and taken from the first line. -/
theorem run_obtaining_typed {text : String} (found : options.get? field = none)
    (read : lineText? (firstLine input) = some text) (resume : String → Dialogue) :
    (obtaining options field resume).run input =
      ((resume text).run (afterLine input)).after (prompts [field]) := by
  simp only [obtaining, found, Dialogue.run, read, prompts_singleton]
  rfl

/-- A line that cannot be read ends the session. -/
theorem run_obtaining_unreadable (found : options.get? field = none)
    (read : lineText? (firstLine input) = none) (resume : String → Dialogue) :
    (obtaining options field resume).run input =
      (Outcome.unreadable field).after (prompts [field]) := by
  simp only [obtaining, found, Dialogue.run, read, prompts_singleton]
  rfl

/-- **A text is obtained the same whether it is given or typed.**  Its prompt is
shown if it is missing, and the lines of later texts are left in the input. -/
theorem run_obtaining
    (given : ∀ text, options.get? field = some text → text = request.text field)
    (line : IsLine (request.text field))
    (typed : Holds ((options.missing (field :: later)).map request.text) input) :
    ∃ rest, Holds ((options.missing later).map request.text) rest ∧
      ∀ resume, (obtaining options field resume).run input =
        ((resume (request.text field)).run rest).after (prompts (options.missing [field])) := by
  cases found : options.get? field with
  | some text =>
    have none_missing := Options.missing_of_some found
    rw [options.missing_cons, none_missing, List.nil_append] at typed
    refine ⟨input, typed, fun resume => ?_⟩
    rw [run_obtaining_given found, none_missing, ← given text found]
    exact (Outcome.after_empty _).symm
  | none =>
    have is_missing := Options.missing_of_none found
    rw [options.missing_cons, is_missing, List.singleton_append, List.map_cons] at typed
    obtain ⟨read, rest⟩ := typed.read_first line
    refine ⟨afterLine input, rest, fun resume => ?_⟩
    rw [run_obtaining_typed found read, is_missing]

/-- **A request that is supplied is answered,** after the prompts for what is missing. -/
theorem Supplied.run_eq (supplied : Supplied request options arguments input)
    (lines : ∀ field, IsLine (request.text field)) :
    run arguments input = (Outcome.ofAnswer (Request.answer options.matching request)).after
      (prompts (options.missing Field.all)) := by
  obtain ⟨rest, typed, expression⟩ :=
    run_obtaining (supplied.given .expression) (lines .expression) supplied.typed
  obtain ⟨_, -, assignments⟩ :=
    run_obtaining (supplied.given .variables) (lines .variables) typed
  rw [run, supplied.spelled.ofArguments, Command.dialogue, expression, assignments,
    Outcome.after_after, ← prompts_append, Field.all,
    options.missing_cons .expression [.variables]]
  rfl

/-- **A request has the same outcome whichever way its texts take.**  Both are
lines, and each is given as an option or typed.  Once the prompts for the typed
ones are shown, all that is left of the outcome is determined by the answer. -/
theorem outcome_of_any_channel (request : Request) (matching : Matching)
    (lines : ∀ field, IsLine (request.text field)) :
    ∃ outcome : Outcome,
      (∀ options arguments input, options.matching = matching →
        Supplied request options arguments input →
          run arguments input = outcome.after (prompts (options.missing Field.all))) ∧
      (∀ value, Request.answer matching request = .ok value →
        outcome = { exitCode := 0, stdout := toString value ++ "\n", stderr := "" }) ∧
      ∀ error, Request.answer matching request = .error error →
        outcome =
          { exitCode := 1, stdout := ""
            stderr := "Invalid input: " ++ error.message ++ "\n" } := by
  refine ⟨Outcome.ofAnswer (Request.answer matching request), ?_, ?_, ?_⟩
  · rintro options arguments input rfl supplied
    exact supplied.run_eq lines
  · intro value answer
    rw [answer, Outcome.ofAnswer]
  · intro error answer
    rw [answer, Outcome.ofAnswer]

/-- Six times seven, typed in two lines and given in two options. -/
theorem product_typed_and_given :
    run ["--whole-word"] (utf8 ("a*7" ++ "\r\n") ++ utf8 "a 6") =
        { exitCode := 0, stderr := ""
          stdout := "Enter an expression: " ++
            "Enter variable values (for x, y, z: x 5 y 10 z 11): " ++ "42\n" } ∧
      run ["--variables=a 6", "--whole-word", "--expression=a*7"] [] =
        { exitCode := 0, stdout := "42\n", stderr := "" } := by
  have lines : ∀ field,
      IsLine (Request.text { expression := "a*7", assignments := "a 6" } field) := by
    rintro (_ | _) <;> exact ⟨by decide, by decide⟩
  have answer :
      Request.answer .wholeWord { expression := "a*7", assignments := "a 6" } = .ok 42 := by
    decide +kernel
  obtain ⟨outcome, supplied, value, -⟩ := outcome_of_any_channel _ .wholeWord lines
  obtain rfl := value 42 answer
  have typed := supplied { wholeWord := true } ["--whole-word"]
    (utf8 ("a*7" ++ "\r\n") ++ utf8 "a 6") rfl
    { spelled := ⟨[.wholeWord], .rfl, rfl⟩
      given := by rintro (_ | _) _ ⟨⟩
      typed := .cons (.inr rfl) (.last "a 6") }
  have given := supplied
    { expression? := some "a*7", variables? := some "a 6", wholeWord := true }
    ["--variables=a 6", "--whole-word", "--expression=a*7"] [] rfl
    { spelled := ⟨[.given .variables "a 6", .wholeWord, .given .expression "a*7"], by decide, rfl⟩
      given := by rintro (_ | _) _ ⟨⟩ <;> rfl
      typed := .nil [] }
  exact ⟨typed, given⟩

end Console
end Reckoner

/-
# The lines that are needed

A calculation takes one line of the input for each text that its options do not give,
the expression's first:

| lines taken | outcome |
| --- | --- |
| all of them UTF-8 | the answer, after a prompt for each |
| one of them not UTF-8 | the first such line cannot be read; no later prompt is shown |

Bytes behind these lines have no part in it, be they UTF-8 or not.  The help and the
version take no line at all, even where no text is given (`help_before_unreadable_line`).

A dialogue that asks at most so many times depends on no more lines than that, whatever
it does with them (`Dialogue.run_congr`); how often a calculation asks is counted field
by field (`asksAtMost_obtaining`), and so are the lines that it reads
(`run_obtaining_readable`).
-/

import Reckoner.Proofs.Console.Channel
import Mathlib.Logic.Function.Iterate

namespace Reckoner
namespace Console

/-- The inputs are equal, or begin alike up to so many line feeds. -/
def SameLines (count : Nat) (input input' : List UInt8) : Prop :=
  input = input' ∨
    ∃ shared, shared <+: input ∧ shared <+: input' ∧ count ≤ shared.count lineFeed

/-- The line at an index of an input, with its line feed if it has one.  Behind the
end of the input all lines are empty. -/
def lineAt (index : Nat) (input : List UInt8) : List UInt8 := firstLine (afterLine^[index] input)

/-- The bytes are a text in UTF-8. -/
def IsText (bytes : List UInt8) : Prop := ∃ text, utf8 text = bytes

/-- Of the lines for the fields, in their order, that for this field is the first that
is not UTF-8. -/
structure FailsAt (fields before : List Field) (field : Field) (input : List UInt8) : Prop where
  asked : before ++ [field] <+: fields
  readable : ∀ index < before.length, IsText (lineAt index input)
  unreadable : ¬ IsText (lineAt before.length input)

/-- The fields that a command asks for, in their order. -/
def Command.asked : Command → List Field
  | .calculate options => options.missing Field.all
  | _ => []

/-- The fields that the program asks for on its arguments. -/
def needed (arguments : List String) : List Field := (Command.ofArguments arguments).asked

/-- The dialogue asks at most so many times, whatever the lines are. -/
inductive Dialogue.AsksAtMost : Nat → Dialogue → Prop
  | done (count : Nat) (outcome : Outcome) : AsksAtMost count (.done outcome)
  | ask {count : Nat} {prompt : String} {resume : List UInt8 → Dialogue}
    (goesOn : ∀ line, AsksAtMost count (resume line)) : AsksAtMost (count + 1) (.ask prompt resume)

variable {count : Nat} {input input' line : List UInt8} {dialogue : Dialogue}
  {options : Options} {command : Command} {field : Field} {fields later before : List Field}

/-! ### Inputs that begin alike -/

/-- Inputs that begin alike have the same first line, and go on alike. -/
theorem SameLines.read_first (same : SameLines (count + 1) input input') :
    firstLine input = firstLine input' ∧ SameLines count (afterLine input) (afterLine input') := by
  rcases same with rfl | ⟨shared, ⟨rest, rfl⟩, ⟨rest', rfl⟩, enough⟩
  · exact ⟨rfl, .inl rfl⟩
  have found : lineFeed ∈ shared := List.count_pos_iff.1 (Nat.lt_of_lt_of_le count.succ_pos enough)
  obtain ⟨bytes, more, rfl, free⟩ := List.eq_append_cons_of_mem found
  rw [List.count_append, List.count_eq_zero_of_not_mem free, List.count_cons_self] at enough
  simp only [List.append_assoc, List.cons_append]
  obtain ⟨first, after⟩ := firstLine_append_lineFeed free (more ++ rest)
  obtain ⟨first', after'⟩ := firstLine_append_lineFeed free (more ++ rest')
  rw [first, after, first', after']
  exact ⟨rfl, .inr ⟨more, List.prefix_append .., List.prefix_append .., by omega⟩⟩

/-- **A dialogue depends on the lines that it asks for, and on nothing else.** -/
theorem Dialogue.run_congr (asks : dialogue.AsksAtMost count) (same : SameLines count input input') :
    dialogue.run input = dialogue.run input' := by
  induction asks generalizing input input' with
  | done => rfl
  | ask _ ih =>
    obtain ⟨first_eq, after_same⟩ := same.read_first
    rw [Dialogue.run, Dialogue.run, first_eq, ih _ after_same]

/-- A field is asked for if it is missing. -/
theorem asksAtMost_obtaining {resume : String → Dialogue}
    (goesOn : ∀ text, (resume text).AsksAtMost (options.missing later).length) :
    (obtaining options field resume).AsksAtMost (options.missing (field :: later)).length := by
  rw [options.missing_cons, List.length_append]
  cases found : options.get? field with
  | some text =>
    rw [obtaining, found, Options.missing_of_some found, List.length_nil, Nat.zero_add]
    exact goesOn text
  | none =>
    rw [obtaining, found, Options.missing_of_none found, List.length_singleton, Nat.add_comm]
    refine .ask fun line => ?_
    cases lineText? line with
    | some text => exact goesOn text
    | none => exact .done _ _

/-- **A command asks at most once for each of its fields.** -/
theorem asksAtMost_dialogue (command : Command) :
    command.dialogue.AsksAtMost command.asked.length := by
  cases command with
  | misuse => exact .done _ _
  | help => exact .done _ _
  | version => exact .done _ _
  | calculate options => exact asksAtMost_obtaining fun _ => asksAtMost_obtaining fun _ => .done _ _

/-! ### Lines that cannot be read -/

/-- A line that is UTF-8 has a text. -/
theorem IsText.exists_lineText? (isText : IsText line) : ∃ text, lineText? line = some text := by
  obtain ⟨text, rfl⟩ := isText
  exact ⟨withoutLineEnd text, lineText?_utf8 text⟩

/-- A line has no text exactly when it is not UTF-8. -/
theorem lineText?_eq_none_iff : lineText? line = none ↔ ¬ IsText line := by
  constructor
  · intro unread isText
    obtain ⟨text, read⟩ := isText.exists_lineText?
    cases unread.symm.trans read
  · intro unreadable
    rw [lineText?, String.fromUTF8?, dif_neg, Option.map_none]
    intro valid
    refine unreadable ⟨String.fromUTF8 line.toByteArray valid, ?_⟩
    show line.toByteArray.data.toList = line
    rw [List.toList_data_toByteArray]

/-- Where no field is asked for, no line fails. -/
theorem not_failsAt_nil : ¬ FailsAt [] before field input := fun fails =>
  List.append_ne_nil_of_right_ne_nil before (List.cons_ne_nil field [])
    (List.prefix_nil.1 fails.asked)

/-- **Either all the lines can be read, or there is a first that cannot.** -/
theorem readable_or_failsAt (fields : List Field) (input : List UInt8) :
    (∀ index < fields.length, IsText (lineAt index input)) ∨
      ∃ before field, FailsAt fields before field input := by
  induction fields generalizing input with
  | nil => exact .inl nofun
  | cons field fields ih =>
    by_cases first : IsText (firstLine input)
    · rcases ih (afterLine input) with readable | ⟨before, failed, fails⟩
      · refine .inl fun index inside => ?_
        cases index with
        | zero => exact first
        | succ index => exact readable index (Nat.lt_of_succ_lt_succ inside)
      · refine .inr ⟨field :: before, failed, List.cons_prefix_cons.2 ⟨rfl, fails.asked⟩, ?_,
          fails.unreadable⟩
        intro index inside
        cases index with
        | zero => exact first
        | succ index => exact fails.readable index (Nat.lt_of_succ_lt_succ inside)
    · exact .inr ⟨[], field, ⟨fields, rfl⟩, nofun, first⟩

/-- A field is obtained if its line can be read, where one is needed. -/
theorem run_obtaining_readable {resume : String → Dialogue}
    (readable : ∀ index < (options.missing (field :: later)).length, IsText (lineAt index input))
    (goesOn : ∀ text rest,
      (∀ index < (options.missing later).length, IsText (lineAt index rest)) →
        ∃ answer, (resume text).run rest =
          (Outcome.ofAnswer answer).after (prompts (options.missing later))) :
    ∃ answer, (obtaining options field resume).run input =
      (Outcome.ofAnswer answer).after (prompts (options.missing (field :: later))) := by
  rw [options.missing_cons] at readable ⊢
  cases found : options.get? field with
  | some text =>
    rw [Options.missing_of_some found, List.nil_append] at readable ⊢
    rw [run_obtaining_given found]
    exact goesOn text input readable
  | none =>
    rw [Options.missing_of_none found, List.singleton_append] at readable ⊢
    have first : IsText (firstLine input) := readable 0 (Nat.succ_pos _)
    obtain ⟨text, read⟩ := first.exists_lineText?
    obtain ⟨answer, goes⟩ := goesOn text (afterLine input) fun index inside =>
      readable (index + 1) (Nat.succ_lt_succ inside)
    refine ⟨answer, ?_⟩
    rw [run_obtaining_typed found read, goes, Outcome.after_after, ← prompts_append]
    rfl

/-- The first line that cannot be read is for this field or for one obtained later. -/
theorem run_obtaining_failsAt {failed : Field} {resume : String → Dialogue}
    (fails : FailsAt (options.missing (field :: later)) before failed input)
    (goesOn : ∀ text rest before, FailsAt (options.missing later) before failed rest →
      (resume text).run rest = (Outcome.unreadable failed).after (prompts (before ++ [failed]))) :
    (obtaining options field resume).run input =
      (Outcome.unreadable failed).after (prompts (before ++ [failed])) := by
  rw [options.missing_cons] at fails
  cases found : options.get? field with
  | some text =>
    rw [Options.missing_of_some found, List.nil_append] at fails
    rw [run_obtaining_given found]
    exact goesOn text input before fails
  | none =>
    rw [Options.missing_of_none found, List.singleton_append] at fails
    obtain ⟨asked, readable, unreadable⟩ := fails
    cases before with
    | nil =>
      obtain ⟨rfl, -⟩ := List.cons_prefix_cons.1 asked
      exact run_obtaining_unreadable found (lineText?_eq_none_iff.2 unreadable) resume
    | cons first before =>
      obtain ⟨rfl, asked_later⟩ := List.cons_prefix_cons.1 asked
      have isText : IsText (firstLine input) := readable 0 (Nat.succ_pos _)
      obtain ⟨text, read⟩ := isText.exists_lineText?
      have fails : FailsAt (options.missing later) before failed (afterLine input) :=
        ⟨asked_later, fun index inside => readable (index + 1) (Nat.succ_lt_succ inside), unreadable⟩
      rw [run_obtaining_typed found read, goesOn text _ before fails, Outcome.after_after,
        ← prompts_append]
      rfl

/-- With lines that can be read a calculation is answered. -/
theorem run_calculate_readable
    (readable : ∀ index < (options.missing Field.all).length, IsText (lineAt index input)) :
    ∃ answer, (Command.calculate options).dialogue.run input =
      (Outcome.ofAnswer answer).after (prompts (options.missing Field.all)) :=
  run_obtaining_readable readable fun _ _ readable =>
    run_obtaining_readable readable fun _ _ _ => ⟨_, (Outcome.after_empty _).symm⟩

/-- The first line that cannot be read ends a calculation. -/
theorem run_calculate_failsAt {failed : Field}
    (fails : FailsAt (options.missing Field.all) before failed input) :
    (Command.calculate options).dialogue.run input =
      (Outcome.unreadable failed).after (prompts (before ++ [failed])) :=
  run_obtaining_failsAt fails fun _ _ _ fails =>
    run_obtaining_failsAt fails fun _ _ _ fails => absurd fails not_failsAt_nil

/-- An outcome that reports nothing reports no line. -/
theorem stderr_ne_of_silent {outcome : Outcome} (silent : outcome.stderr = "") (field : Field) :
    outcome.stderr ≠ (Outcome.unreadable field).stderr := by
  rw [silent]
  cases field <;> decide +kernel

/-- An answer is not reported as a line that cannot be read. -/
theorem stderr_ofAnswer_ne (answer : Except Error Int) (field : Field) :
    (Outcome.ofAnswer answer).stderr ≠ (Outcome.unreadable field).stderr := by
  cases answer with
  | ok value => exact stderr_ne_of_silent rfl field
  | error error =>
    intro same
    have first := congrArg (fun text => text.toList.head?) same
    simp [Outcome.ofAnswer, Outcome.unreadable] at first

/-- With lines that can be read nothing is reported as one that cannot. -/
theorem stderr_ne_of_readable (proper : command ≠ .misuse)
    (readable : ∀ index < command.asked.length, IsText (lineAt index input)) (field : Field) :
    (command.dialogue.run input).stderr ≠ (Outcome.unreadable field).stderr := by
  cases command with
  | misuse => exact absurd rfl proper
  | help => exact stderr_ne_of_silent rfl field
  | version => exact stderr_ne_of_silent rfl field
  | calculate options =>
    obtain ⟨answer, answered⟩ := run_calculate_readable readable
    rw [answered]
    exact stderr_ofAnswer_ne answer field

/-- The first line that cannot be read ends a session. -/
theorem run_dialogue_failsAt (fails : FailsAt command.asked before field input) :
    command.dialogue.run input = (Outcome.unreadable field).after (prompts (before ++ [field])) := by
  cases command with
  | misuse => exact absurd fails not_failsAt_nil
  | help => exact absurd fails not_failsAt_nil
  | version => exact absurd fails not_failsAt_nil
  | calculate options => exact run_calculate_failsAt fails

/-- **The outcome depends on the lines that are needed, and on nothing else.**  As many
are needed as there are fields that the options of a calculation do not give, and none
for the help or the version.  On two inputs that begin alike up to so many line feeds, or
are equal, the outcome is the same, whatever bytes follow.  A line is reported as one that
cannot be read exactly when one of them is not UTF-8.  The first such line decides for
which field, and no prompt is shown behind that field's. -/
theorem outcome_of_needed_lines {arguments : List String}
    (proper : Command.ofArguments arguments ≠ .misuse) :
    (∀ input input', SameLines (needed arguments).length input input' →
      run arguments input = run arguments input') ∧
      ∀ input,
        ((∃ field, (run arguments input).stderr = (Outcome.unreadable field).stderr) ↔
          ∃ index < (needed arguments).length, ¬ IsText (lineAt index input)) ∧
        ∀ before field, FailsAt (needed arguments) before field input →
          run arguments input =
            { exitCode := 1, stdout := prompts (before ++ [field])
              stderr := " ERROR intcalc > Failed to read the " ++ field.name ++
                ": stream did not contain valid UTF-8\n" } := by
  refine ⟨fun input input' same => Dialogue.run_congr (asksAtMost_dialogue _) same,
    fun input => ⟨⟨?_, ?_⟩, fun before field fails => ?_⟩⟩
  · rintro ⟨field, reported⟩
    by_contra none_unreadable
    have readable : ∀ index < (needed arguments).length, IsText (lineAt index input) :=
      fun index inside => by_contra fun unreadable => none_unreadable ⟨index, inside, unreadable⟩
    exact stderr_ne_of_readable proper readable field reported
  · rintro ⟨index, inside, unreadable⟩
    rcases readable_or_failsAt (needed arguments) input with readable | ⟨before, field, fails⟩
    · exact absurd (readable index inside) unreadable
    · refine ⟨field, ?_⟩
      rw [run, run_dialogue_failsAt fails]
      rfl
  · rw [run, run_dialogue_failsAt fails, Outcome.after, Outcome.unreadable]
    rw [String.append_empty]
    rfl

/-- With the expression given, one line is read and the two bytes behind it are not.  In
the second of two lines they cannot be read, and both prompts are shown before that.  For
the help they do not matter even in the first. -/
theorem bytes_behind_first_line :
    run ["--expression=a*7"] (utf8 "a 6\n" ++ [255, 10]) =
        run ["--expression=a*7"] (utf8 "a 6\n") ∧
      run ["--whole-word"] (utf8 "a*7\n" ++ [255, 10]) =
        { exitCode := 1
          stdout := prompts ([.expression] ++ [.variables])
          stderr := " ERROR intcalc > Failed to read the " ++ "variables" ++
            ": stream did not contain valid UTF-8\n" } ∧
      run ["--whole-word", "-h"] [255, 10] = run ["--whole-word", "-h"] [] := by
  have given : needed ["--expression=a*7"] = [.variables] := by decide +kernel
  have typed : needed ["--whole-word"] = [.expression, .variables] := by decide +kernel
  have same : SameLines (needed ["--expression=a*7"]).length (utf8 "a 6\n" ++ [255, 10])
      (utf8 "a 6\n") := by
    rw [given]
    exact .inr ⟨utf8 "a 6\n", List.prefix_append .., List.prefix_rfl, by decide +kernel⟩
  have fails : FailsAt (needed ["--whole-word"]) [.expression] .variables
      (utf8 "a*7\n" ++ [255, 10]) := by
    rw [typed]
    refine ⟨List.prefix_rfl, fun index inside => ?_, lineText?_eq_none_iff.1 (by decide +kernel)⟩
    obtain rfl : index = 0 := by simpa using inside
    exact ⟨"a*7\n", by decide +kernel⟩
  have any : SameLines (needed ["--whole-word", "-h"]).length [255, 10] [] :=
    .inr ⟨[], List.nil_prefix, List.nil_prefix, by decide +kernel⟩
  exact ⟨(outcome_of_needed_lines (by decide +kernel)).1 _ _ same,
    ((outcome_of_needed_lines (by decide +kernel)).2 _).2 _ _ fails,
    (outcome_of_needed_lines (by decide +kernel)).1 _ _ any⟩

/-- Asked for the help alone, the program has neither text given, and it is neither a
misuse nor a request for the version.  Still it does not report a first line that is not
UTF-8, for it shows the help and reads no line. -/
theorem help_before_unreadable_line :
    (∀ field value, Argument.ofChars "--help".toList ≠ .field field value) ∧
      Command.ofArguments ["--help"] ≠ .misuse ∧ Command.ofArguments ["--help"] ≠ .version ∧
      ¬ IsText (lineAt 0 [255, 10]) ∧
      (run ["--help"] [255, 10]).exitCode = 0 ∧
      ∀ field, (run ["--help"] [255, 10]).stderr ≠ (Outcome.unreadable field).stderr := by
  have argument : Argument.ofChars "--help".toList = .help := by decide +kernel
  have command : Command.ofArguments ["--help"] = .help := by decide +kernel
  refine ⟨fun field value same => ?_, ?_, ?_, lineText?_eq_none_iff.1 (by decide +kernel), ?_, ?_⟩
  · cases argument.symm.trans same
  · rw [command]
    exact nofun
  · rw [command]
    exact nofun
  · rw [run, command]
    rfl
  · rw [run, command]
    exact stderr_ne_of_silent rfl

end Console
end Reckoner

/-
# Options in their long form

| what an option gives | argument |
| --- | --- |
| the expression | `--expression=` and the text |
| the assignments | `--variables=` and the text |
| names are replaced where they stand alone | `--whole-word` |

The text is the rest of the argument, whatever it is.  The arguments may come in
any order: each gives something that no other gives, so reading one leaves the
others to be read as before.
-/

import Reckoner.Console.Command
import Mathlib.Data.List.Nodup

namespace Reckoner
namespace Console

/-- The fields in the order in which they are asked for. -/
def Field.all : List Field := [.expression, .variables]

/-- The long form of a field's option, up to its value. -/
def Field.option : Field → String
  | .expression => "--expression="
  | .variables => "--variables="

/-- An option, its value attached if it has one. -/
inductive Flag
  | given (field : Field) (text : String)
  | wholeWord
  deriving DecidableEq, Repr

namespace Flag

/-- The flag as an argument. -/
def argument : Flag → String
  | .given field text => field.option ++ text
  | .wholeWord => "--whole-word"

/-- The field that a flag gives a text for. -/
def field? : Flag → Option Field
  | .given field _ => some field
  | .wholeWord => none

/-- The options with what a flag gives. -/
def addTo (options : Options) : Flag → Options
  | .given field text => options.set field text
  | .wholeWord => { options with wholeWord := true }

/-- Nothing of what a flag gives is in the options. -/
def Fresh (options : Options) : Flag → Prop
  | .given field _ => options.get? field = none
  | .wholeWord => options.wholeWord = false

end Flag

namespace Options

/-- The flags that give the options, one each. -/
def flags (options : Options) : List Flag :=
  (Field.all.filterMap fun field => (options.get? field).map (Flag.given field)) ++
    if options.wholeWord then [.wholeWord] else []

/-- The arguments are the flags of the options, in any order. -/
def SpelledBy (options : Options) (arguments : List String) : Prop :=
  ∃ flags : List Flag, flags.Perm options.flags ∧ arguments = flags.map Flag.argument

end Options

variable {options : Options} {flag other : Flag} {flags : List Flag}

/-- A long option goes up to its first equals sign; the rest is its value. -/
theorem Argument.ofChars_long (name text : String) (plain : '=' ∉ name.toList) :
    ofChars ("--" ++ name ++ "=" ++ text).toList = ofLong name (some text) := by
  have passes : ∀ char ∈ name.toList, (char != '=') = true :=
    fun _ mem => bne_iff_ne.2 (ne_of_mem_of_not_mem mem plain)
  have chars : ("--" ++ name ++ "=" ++ text).toList =
      '-' :: '-' :: (name.toList ++ '=' :: text.toList) := by
    simp
  rw [chars, ofChars, List.takeWhile_append_of_pos passes, List.dropWhile_append_of_pos passes]
  simp

theorem Flag.ofChars_argument_given (field : Field) (text : String) :
    Argument.ofChars (Flag.given field text).argument.toList = .field field (some text) := by
  cases field
  · exact Argument.ofChars_long "expression" text (by decide)
  · exact Argument.ofChars_long "variables" text (by decide)

/-- No flag is the argument that ends the options. -/
theorem Flag.argument_ne (flag : Flag) : flag.argument ≠ "--" := by
  intro same
  have chars := congrArg (Argument.ofChars ∘ String.toList) same
  cases flag with
  | given field text =>
    rw [Function.comp, Flag.ofChars_argument_given] at chars
    cases chars
  | wholeWord => cases chars

/-- **A fresh flag is added to the options.** -/
theorem Command.after_argument (fresh : flag.Fresh options) (rest : List String) :
    after options (flag.argument :: rest) = after (flag.addTo options) rest := by
  rw [after.eq_3 _ _ _ fun same _ => flag.argument_ne same]
  cases flag with
  | given field text =>
    have fresh : options.get? field = none := fresh
    simp only [Flag.ofChars_argument_given, fresh, Option.isSome_none]
    rfl
  | wholeWord =>
    have fresh : options.wholeWord = false := fresh
    have argument : Argument.ofChars Flag.wholeWord.argument.toList = .wholeWord := by decide
    simp only [argument, fresh]
    rfl

/-- A flag leaves those for other things fresh. -/
theorem Flag.Fresh.addTo (fresh : other.Fresh options) (apart : flag.field? ≠ other.field?) :
    other.Fresh (flag.addTo options) := by
  rcases flag with ⟨_ | _, text⟩ | _ <;> rcases other with ⟨_ | _, more⟩ | _ <;>
    first | exact fresh | exact absurd rfl apart

/-- Flags for different things may change places. -/
theorem Flag.addTo_comm (apart : flag.field? ≠ other.field?) (options : Options) :
    other.addTo (flag.addTo options) = flag.addTo (other.addTo options) := by
  rcases flag with ⟨_ | _, text⟩ | _ <;> rcases other with ⟨_ | _, more⟩ | _ <;>
    first | rfl | exact absurd rfl apart

/-- Fresh flags for different things are all added, from the left. -/
theorem Command.after_arguments (fresh : ∀ flag ∈ flags, flag.Fresh options)
    (apart : (flags.map Flag.field?).Nodup) :
    after options (flags.map Flag.argument) = .calculate (flags.foldl Flag.addTo options) := by
  induction flags generalizing options with
  | nil => rw [List.map_nil, after, List.foldl_nil]
  | cons flag flags ih =>
    rw [List.map_cons, List.nodup_cons] at apart
    rw [List.map_cons, after_argument (fresh flag List.mem_cons_self), List.foldl_cons]
    refine ih (fun other mem => ?_) apart.2
    refine (fresh other (List.mem_cons_of_mem _ mem)).addTo fun same => apart.1 ?_
    exact same ▸ List.mem_map_of_mem mem

/-- The flags of the options add up to them. -/
theorem Options.foldl_flags (options : Options) : options.flags.foldl Flag.addTo {} = options := by
  rcases options with ⟨_ | expression, _ | assignments, _ | _⟩ <;> rfl

/-- The flags of the options are for different things. -/
theorem Options.nodup_flags (options : Options) : (options.flags.map Flag.field?).Nodup := by
  rcases options with ⟨_ | expression, _ | assignments, _ | _⟩ <;>
    simp [flags, Field.all, get?, Flag.field?]

/-- **Arguments that spell options are read as these options.** -/
theorem Options.SpelledBy.ofArguments {arguments : List String}
    (spelled : options.SpelledBy arguments) :
    Command.ofArguments arguments = .calculate options := by
  obtain ⟨flags, perm, rfl⟩ := spelled
  have apart : (flags.map Flag.field?).Nodup := (perm.map _).nodup_iff.2 options.nodup_flags
  have fresh : ∀ flag ∈ flags, flag.Fresh {} := by
    rintro (⟨_ | _, text⟩ | _) _ <;> rfl
  have comm : ∀ flag ∈ flags, ∀ other ∈ flags, ∀ options : Options,
      other.addTo (flag.addTo options) = flag.addTo (other.addTo options) := by
    intro flag flag_mem other other_mem options
    by_cases same : flag.field? = other.field?
    · rw [List.inj_on_of_nodup_map apart flag_mem other_mem same]
    · exact Flag.addTo_comm same options
  rw [Command.ofArguments, Command.after_arguments fresh apart, perm.foldl_eq' comm,
    options.foldl_flags]

end Console
end Reckoner

/-
# Replacing a name in a text

The occurrences of a name are taken from the left, each beginning no earlier
than the end of the one before.  A matching decides for each of them, by the
characters directly before and after it, whether it is replaced:

| matching | replaces |
| --- | --- |
| `anywhere` | every occurrence |
| `wholeWord` | those with no word character on either side |

The neighbours are those of the text as it was, not of what has been put in.
An occurrence that is left as it is has been passed all the same: the search
goes on after it, and not within it.
-/

import Reckoner.Text.Word

namespace Reckoner

/-- Which occurrences of a name are replaced. -/
inductive Matching
  /-- All of them. -/
  | anywhere
  /-- Those that stand alone. -/
  | wholeWord
  deriving DecidableEq, Repr

/-- Whether an occurrence between these neighbours is replaced. -/
def Matching.admits : Matching → Option Char → Option Char → Bool
  | .anywhere, _, _ => true
  | .wholeWord, before, after => !before.any Text.isWordChar && !after.any Text.isWordChar

namespace Text

/-- Replaces the admitted occurrences of `name` in the text that follows the
character `before`.  The empty name has no occurrences. -/
def replaceFrom (admits : Option Char → Option Char → Bool) (name value : List Char)
    (before : Option Char) : List Char → List Char
  | [] => []
  | char :: rest =>
    if name.isPrefixOf (char :: rest) ∧ name ≠ [] then
      let after := (char :: rest).drop name.length
      (if admits before after.head? then value else name) ++
        replaceFrom admits name value name.getLast? after
    else char :: replaceFrom admits name value (some char) rest
  termination_by text => text.length
  decreasing_by
    all_goals simp_wf
    rename_i found
    have := List.length_pos_iff.2 found.2
    omega

/-- Replaces the occurrences of `name` that the matching admits by `value`. -/
def replace (matching : Matching) (name value text : String) : String :=
  String.ofList (replaceFrom matching.admits name.toList value.toList none text.toList)

end Text
end Reckoner

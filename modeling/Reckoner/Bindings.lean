/-
# Named values

An assignment list is a text of items, `name value name value ...`; items
are taken in pairs, and an odd number of them is an error.  Any item may be a
name and any may be a value.  To substitute, the bindings are taken in order,
each replacing its name in what the one before has left, so a later name may
match in an earlier value.
-/

import Reckoner.Error
import Reckoner.Text.Blank
import Reckoner.Text.Replacement

namespace Reckoner

/-- A name and the text that stands for it. -/
structure Binding where
  name : String
  value : String
  deriving DecidableEq, Repr

/-- Bindings in the order in which they are applied. -/
abbrev Bindings := List Binding

namespace Bindings

/-- Takes items in pairs; an odd one out makes it fail. -/
def ofItems? : List String → Option Bindings
  | [] => some []
  | [_] => none
  | name :: value :: rest => (ofItems? rest).map ({ name, value } :: ·)

/-- The bindings of an assignment list. -/
def ofText (text : String) : Except Error Bindings :=
  match ofItems? (Text.items text) with
  | some bindings => .ok bindings
  | none => .error (.unpairedAssignments (Text.items text).length)

/-- Replaces the names by their values, one binding after another. -/
def substitute (bindings : Bindings) (matching : Matching) (text : String) : String :=
  bindings.foldl (fun text binding => Text.replace matching binding.name binding.value text) text

end Bindings
end Reckoner

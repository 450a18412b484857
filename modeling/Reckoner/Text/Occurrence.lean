/-
# Occurrences of a name

A name occurs at a place of a text when its characters stand there.  Occurrences
may overlap; the search takes them from the left, each beginning no earlier
than the end of the one before.
-/

import Reckoner.Text.Replacement

namespace Reckoner
namespace Text

/-- The name stands in the text at a place. -/
def OccursAt (name text : List Char) (place : Nat) : Prop := name <+: text.drop place

/-- The character directly before a place. -/
def before? (text : List Char) (place : Nat) : Option Char := (text.take place).getLast?

/-- The character directly after an occurrence of the name at a place. -/
def after? (name text : List Char) (place : Nat) : Option Char := text[place + name.length]?

/-- No word character is next to the occurrence of the name at a place. -/
def StandsAlone (name text : List Char) (place : Nat) : Prop :=
  (∀ char ∈ before? text place, ¬ isWordChar char) ∧
    ∀ char ∈ after? name text place, ¬ isWordChar char

/-- The occurrences at two places share a character of the text. -/
def Overlap (name : List Char) (place place' : Nat) : Prop :=
  place < place' + name.length ∧ place' < place + name.length

/-- The search for the name in what follows a place of a text. -/
def searchFrom (name : List Char) (place : Nat) : List Char → List Nat
  | [] => []
  | char :: rest =>
    if name.isPrefixOf (char :: rest) ∧ name ≠ [] then
      place :: searchFrom name (place + name.length) ((char :: rest).drop name.length)
    else searchFrom name (place + 1) rest
  termination_by text => text.length
  decreasing_by
    all_goals simp_wf
    rename_i found
    have := List.length_pos_iff.2 found.2
    omega

/-- The places at which the search finds the name. -/
def occurrences (name text : List Char) : List Nat := searchFrom name 0 text

/-- The places at which the name is replaced. -/
def replacements (matching : Matching) (name text : List Char) : List Nat :=
  (occurrences name text).filter fun place =>
    matching.admits (before? text place) (after? name text place)

end Text
end Reckoner

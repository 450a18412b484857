/-
# Laying items out as text

Items are laid out in a text when it shows them in order with blanks around
them: any number before the first, between two neighbours and after the last,
and at least one between two that have to be kept apart.  What a blank is, how
an item is shown and which neighbours have to be kept apart are parameters.

| layout of | blanks | kept apart |
| --- | --- | --- |
| tokens in an expression | spaces | two numbers |
| items in an assignment list | `Text.isBlank` | any two |
-/

namespace Reckoner
namespace Text

variable {α : Type}

/-- The text begins with the first item, and blanks may follow each item. -/
inductive LaidOut (blank : Char → Prop) (spell : α → List Char) (apart : α → α → Prop) :
    List α → List Char → Prop
  | nil : LaidOut blank spell apart [] []
  | cons {item : α} {items : List α} {gap rest : List Char}
    (blanks : ∀ char ∈ gap, blank char)
    (parted : ∀ neighbour ∈ items.head?, apart item neighbour → gap ≠ [])
    (laidOut : LaidOut blank spell apart items rest) :
    LaidOut blank spell apart (item :: items) (spell item ++ gap ++ rest)

/-- The items are laid out in the text. -/
def Layout (blank : Char → Prop) (spell : α → List Char) (apart : α → α → Prop)
    (items : List α) (text : List Char) : Prop :=
  ∃ gap rest, (∀ char ∈ gap, blank char) ∧ LaidOut blank spell apart items rest ∧
    text = gap ++ rest

end Text
end Reckoner

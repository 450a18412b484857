/-
# Words

ASCII letters, ASCII digits and the low line make up words; every other
character stands between words, letters of other scripts included.  A text
falls into its words, the longest runs of word characters, and the single
characters between them.
-/

namespace Reckoner
namespace Text

/-- Whether a character may be part of a word. -/
def isWordChar (char : Char) : Bool := char.isAlphanum || char == '_'

/-- The words of a text and the single characters between them, in order. -/
def wordRuns (text : List Char) : List (List Char) :=
  text.splitBy fun left right => isWordChar left && isWordChar right

/-- Puts something else in the place of each word, and keeps what is between. -/
def mapWords (f : List Char → List Char) (text : List Char) : List Char :=
  (wordRuns text).flatMap f

end Text
end Reckoner

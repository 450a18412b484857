/-
# Blanks, and the items between them

A blank is a character with the Unicode property `White_Space`:

| code points | |
| --- | --- |
| U+0009 – U+000D | tab, line feed, line tabulation, form feed, return |
| U+0020 | space |
| U+0085 | next line |
| U+00A0 | no-break space |
| U+1680 | ogham space mark |
| U+2000 – U+200A | the spaces of typography |
| U+2028, U+2029 | line separator, paragraph separator |
| U+202F, U+205F | narrow no-break space, mathematical space |
| U+3000 | ideographic space |

The items of a text are its longest runs of other characters, in order.
-/

namespace Reckoner
namespace Text

/-- The ranges of code points that are blank, both ends included. -/
def blankRanges : List (Nat × Nat) :=
  [(0x0009, 0x000D), (0x0020, 0x0020), (0x0085, 0x0085), (0x00A0, 0x00A0), (0x1680, 0x1680),
    (0x2000, 0x200A), (0x2028, 0x2029), (0x202F, 0x202F), (0x205F, 0x205F), (0x3000, 0x3000)]

/-- Whether a character is blank. -/
def isBlank (char : Char) : Bool :=
  blankRanges.any fun range => range.1 ≤ char.toNat && char.toNat ≤ range.2

/-- The items of a sequence of characters: what stands between blanks, where
that is not empty. -/
def itemsOf (chars : List Char) : List (List Char) :=
  (chars.splitOnP isBlank).filter (!·.isEmpty)

/-- The items of a text. -/
def items (text : String) : List String := (itemsOf text.toList).map String.ofList

/-- Twenty-five code points are blank. -/
example : (blankRanges.map fun range => range.2 + 1 - range.1).foldl (· + ·) 0 = 25 := rfl

end Text
end Reckoner

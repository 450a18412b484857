/-
# Lines and their texts

The line of a text is its bytes in UTF-8 and a line end:

| line end | bytes |
| --- | --- |
| line feed | 10 |
| carriage return and line feed | 13 10 |
| end of the input | none |

An input is cut into lines byte by byte, before it is known to be UTF-8.  This
does not cut through a character: in UTF-8 the byte 10 belongs to the line feed
alone, since all bytes of a longer character are 128 or more.
-/

import Reckoner.Console.Dialogue
import Mathlib.Data.List.TakeWhile

namespace Reckoner
namespace Console

/-- The bytes of a text in UTF-8. -/
def utf8 (text : String) : List UInt8 := text.toUTF8.data.toList

/-- No line feed stands in a text, and no carriage return at its end. -/
structure IsLine (text : String) : Prop where
  noLineFeed : '\n' ∉ text.toList
  noReturn : text.toList.getLast? ≠ some '\r'

/-- An input begins with the lines of the texts.  The end of the input may end
the last of them. -/
inductive Holds : List String → List UInt8 → Prop
  | nil (input : List UInt8) : Holds [] input
  | last (text : String) : Holds [text] (utf8 text)
  | cons {text lineEnd : String} {texts : List String} {rest : List UInt8}
      (ended : lineEnd = "\n" ∨ lineEnd = "\r\n") (more : Holds texts rest) :
      Holds (text :: texts) (utf8 (text ++ lineEnd) ++ rest)

variable {text : String} {texts : List String} {bytes rest input : List UInt8}

/-- The bytes of a text are those of its characters. -/
theorem utf8_eq_flatMap (text : String) :
    utf8 text = text.toList.flatMap String.utf8EncodeChar := by
  rw [utf8, String.toUTF8_eq_toByteArray, ← String.ofList_toList (s := text),
    String.toByteArray_ofList, String.ofList_toList, List.utf8Encode, List.toList_data_toByteArray]

theorem utf8_append (text more : String) : utf8 (text ++ more) = utf8 text ++ utf8 more := by
  rw [utf8_eq_flatMap, utf8_eq_flatMap, utf8_eq_flatMap, String.toList_append, List.flatMap_append]

/-- The bytes of a text are read as the text. -/
theorem lineText?_utf8 (text : String) : lineText? (utf8 text) = some (withoutLineEnd text) := by
  have bytes : (utf8 text).toByteArray = text.toByteArray := by
    rw [utf8_eq_flatMap, ← List.utf8Encode, ← String.toByteArray_ofList, String.ofList_toList]
  rw [lineText?, bytes, String.fromUTF8?, dif_pos text.isValidUTF8]
  rfl

/-- A byte is the line feed when its number is 10. -/
theorem lineFeed_eq_ofNat_iff {n : Nat} (byte : n < 256) : lineFeed = UInt8.ofNat n ↔ n = 10 := by
  rw [← UInt8.toNat_inj, UInt8.toNat_ofNat_of_lt' byte]
  exact eq_comm

/-- The byte of the line feed is in no other character. -/
theorem lineFeed_mem_utf8EncodeChar {char : Char} :
    lineFeed ∈ String.utf8EncodeChar char ↔ char = '\n' := by
  have char_eq : char = '\n' ↔ char.val.toNat = 10 := by
    rw [Char.ext_iff, ← UInt32.toNat_inj]
    rfl
  -- a byte of a longer character: a mark of 128 or more, and some bits of the character
  have long {n bits mark : Nat} (pos : 0 < bits) (high : 128 ≤ mark) (byte : bits + mark ≤ 256) :
      lineFeed ≠ UInt8.ofNat (n % bits + mark) := by
    have := Nat.mod_lt n pos
    rw [Ne, lineFeed_eq_ofNat_iff (by omega)]
    omega
  rw [char_eq, String.utf8EncodeChar]
  split_ifs with ascii
  · rw [List.mem_singleton, lineFeed_eq_ofNat_iff (by omega)]
  all_goals
    simp only [List.mem_cons, List.not_mem_nil, long, Nat.reduceLT, Nat.reduceLeDiff, or_self,
      Nat.reduceAdd, false_iff]
    omega

theorem lineFeed_mem_utf8 : lineFeed ∈ utf8 text ↔ '\n' ∈ text.toList := by
  simp [utf8_eq_flatMap, lineFeed_mem_utf8EncodeChar]

/-- A line loses what ends it, and nothing else. -/
theorem IsLine.withoutLineEnd_append (line : IsLine text) (lineEnd : String)
    (ended : ∀ char ∈ lineEnd.toList, char = '\r' ∨ char = '\n') :
    withoutLineEnd (text ++ lineEnd) = text := by
  have dropped : ∀ char ∈ lineEnd.toList.reverse, (char == '\r' || char == '\n') = true := by
    simpa using ended
  rw [withoutLineEnd, String.toList_append, List.reverse_append,
    List.dropWhile_append_of_pos dropped]
  cases reversed : text.toList.reverse with
  | nil =>
    rw [List.dropWhile_nil, ← reversed, List.reverse_reverse, String.ofList_toList]
  | cons char chars =>
    have noReturn : char ≠ '\r' := by
      rintro rfl
      exact line.noReturn (by rw [← List.head?_reverse, reversed, List.head?_cons])
    have noLineFeed : char ≠ '\n' := by
      rintro rfl
      exact line.noLineFeed (List.mem_reverse.1 (reversed ▸ List.mem_cons_self))
    rw [List.dropWhile_cons_of_neg (by simp [noReturn, noLineFeed]), ← reversed,
      List.reverse_reverse, String.ofList_toList]

/-- No byte before the first line feed ends the line. -/
theorem passes_of_notMem (free : lineFeed ∉ bytes) :
    ∀ byte ∈ bytes, (byte != lineFeed) = true :=
  fun _ mem => bne_iff_ne.2 (ne_of_mem_of_not_mem mem free)

/-- The first line feed ends the first line. -/
theorem firstLine_append_lineFeed (free : lineFeed ∉ bytes) (rest : List UInt8) :
    firstLine (bytes ++ lineFeed :: rest) = bytes ++ [lineFeed] ∧
      afterLine (bytes ++ lineFeed :: rest) = rest := by
  have passes := passes_of_notMem free
  rw [firstLine, afterLine, List.takeWhile_append_of_pos passes,
    List.dropWhile_append_of_pos passes]
  simp

/-- Without a line feed all that is left is the first line. -/
theorem firstLine_of_notMem (free : lineFeed ∉ bytes) :
    firstLine bytes = bytes ∧ afterLine bytes = [] := by
  have passes := passes_of_notMem free
  rw [firstLine, afterLine, List.takeWhile_eq_self_iff.2 passes,
    List.dropWhile_eq_nil_iff.2 passes]
  simp

/-- **The first of the lines is read as its text, and the others follow.** -/
theorem Holds.read_first (line : IsLine text) (holds : Holds (text :: texts) input) :
    lineText? (firstLine input) = some text ∧ Holds texts (afterLine input) := by
  cases holds with
  | last =>
    have read := line.withoutLineEnd_append "" (by simp)
    obtain ⟨first, after⟩ := firstLine_of_notMem (mt lineFeed_mem_utf8.1 line.noLineFeed)
    rw [String.append_empty] at read
    rw [first, after, lineText?_utf8, read]
    exact ⟨rfl, .nil []⟩
  | @cons _ lineEnd _ rest ended more =>
    obtain ⟨mark, rfl, marks⟩ : ∃ mark, lineEnd = mark ++ "\n" ∧ (mark = "" ∨ mark = "\r") := by
      rcases ended with rfl | rfl
      · exact ⟨"", rfl, .inl rfl⟩
      · exact ⟨"\r", rfl, .inr rfl⟩
    have free : lineFeed ∉ utf8 (text ++ mark) := by
      rw [lineFeed_mem_utf8, String.toList_append, List.mem_append, not_or]
      exact ⟨line.noLineFeed, by rcases marks with rfl | rfl <;> simp⟩
    have bytes : utf8 (text ++ (mark ++ "\n")) = utf8 (text ++ mark) ++ [lineFeed] := by
      rw [← String.append_assoc, utf8_append _ "\n"]
      rfl
    have read : withoutLineEnd (text ++ (mark ++ "\n")) = text :=
      line.withoutLineEnd_append _ (by rcases marks with rfl | rfl <;> simp)
    obtain ⟨first, after⟩ := firstLine_append_lineFeed free rest
    rw [bytes, List.append_assoc, List.singleton_append, first, after, ← bytes, lineText?_utf8,
      read]
    exact ⟨rfl, more⟩

end Console
end Reckoner

/-
# Names that overlap themselves

Where names have to stand alone, the search passes an occurrence that does not,
and with it all that begins within it.  Such an occurrence stands alone only if
no word character is before it, and this character belongs to the name:

| name | copy of itself within it | character before the copy | occurrences that stand alone |
| --- | --- | --- | --- |
| `rate` | none | | are all replaced |
| `aa` | `a` | a word character | are all replaced |
| `--` | `-` | `-` | may be missed |

So none is missed in any text if, and only if, a word character is before every
copy of the name that begins within it (`OverlapsInWords`).
-/

import Reckoner.Proofs.Text.Occurrence
import Reckoner.Text.Blank
import Mathlib.Data.List.Infix

namespace Reckoner
namespace Text

/-- A word character is before every copy of the name that begins within it and
may end behind it. -/
def OverlapsInWords (name : List Char) : Prop :=
  ∀ shift < name.length, 0 < shift → name.drop shift <+: name →
    (before? name shift).any isWordChar = true

instance : DecidablePred OverlapsInWords := fun name =>
  inferInstanceAs (Decidable (∀ shift < name.length, 0 < shift → name.drop shift <+: name → _))

variable {name text tail : List Char} {char : Char} {place shift : Nat}

/-! ### Two occurrences -/

/-- Of two occurrences that overlap, the later one is a copy within the name. -/
theorem drop_prefix_of_occursAt (first : OccursAt name text place)
    (second : OccursAt name text (place + shift)) : name.drop shift <+: name := by
  have dropped : name.drop shift <+: text.drop (place + shift) := by
    rw [← List.drop_drop]
    exact List.IsPrefix.drop first shift
  refine List.prefix_of_prefix_length_le dropped second ?_
  rw [List.length_drop]
  exact Nat.sub_le ..

/-- What is before a place within an occurrence is what is there in the name. -/
theorem before?_of_occursAt (occurs : OccursAt name text place) (pos : 0 < shift)
    (within : shift < name.length) : before? text (place + shift) = before? name shift := by
  obtain ⟨rest, split_eq⟩ := occurs
  have taken : (text.drop place).take shift = name.take shift := by
    rw [← split_eq, List.take_append_of_le_length (Nat.le_of_lt within)]
  have ne_nil : name.take shift ≠ [] := by
    rw [← List.length_pos_iff, List.length_take]
    omega
  rw [before?, List.take_add, taken, List.getLast?_append_of_ne_nil _ ne_nil, before?]

/-! ### Occurrences that are missed -/

theorem exists_word_char_ne (char : Char) : ∃ other, isWordChar other = true ∧ other ≠ char := by
  by_cases same : char = 'a'
  · exact ⟨'b', by decide, by simp [same]⟩
  · exact ⟨'a', by decide, fun eq => same eq.symm⟩

/-- What a copy within the name leaves of it, put before the name, makes the name
and what is left of the copy. -/
theorem take_append_self (copy : name.drop shift ++ tail = name) :
    name.take shift ++ name = name ++ tail := by
  calc name.take shift ++ name
      = name.take shift ++ (name.drop shift ++ tail) := by rw [copy]
    _ = name ++ tail := by rw [← List.append_assoc, List.take_append_drop]

/-- Between another character and a rest that is shorter, the name is found once. -/
theorem occurrences_between (ne_nil : name ≠ []) (other_first : name.head? ≠ some char)
    (short : tail.length < name.length) : occurrences name (char :: (name ++ tail)) = [1] := by
  have absent : ¬ (name <+: char :: (name ++ tail) ∧ name ≠ []) := by
    obtain ⟨first, name', rfl⟩ := List.exists_cons_of_ne_nil ne_nil
    rintro ⟨found, -⟩
    exact other_first (congrArg some (List.cons_prefix_cons.1 found).1)
  rw [occurrences, searchFrom_cons absent, searchFrom_occurrence ne_nil,
    searchFrom_of_length_lt short]

/-- Behind a word character, what is found once is refused. -/
theorem replacements_eq_nil (ne_nil : name ≠ []) (other_first : name.head? ≠ some char)
    (short : tail.length < name.length) (word_char : isWordChar char = true) :
    replacements .wholeWord name (char :: (name ++ tail)) = [] := by
  have refused : ¬ StandsAlone name (char :: (name ++ tail)) 1 := fun alone =>
    Bool.false_ne_true ((standsAlone_iff.1 alone).1.symm.trans word_char)
  refine List.eq_nil_iff_forall_not_mem.2 fun place mem => ?_
  rw [mem_replacements_wholeWord_iff, occurrences_between ne_nil other_first short,
    List.mem_singleton] at mem
  exact refused (mem.1 ▸ mem.2)

/-- **Where a name overlaps itself otherwise, an occurrence may be missed.**
Before the name put what the copy within it leaves of it, and a word character in
front: the first occurrence is refused, the second one begins within it. -/
theorem exists_missed (within : shift < name.length) (pos : 0 < shift)
    (copy : name.drop shift <+: name) (no_word : (before? name shift).any isWordChar = false) :
    ∃ text place, OccursAt name text place ∧ StandsAlone name text place ∧
      replacements .wholeWord name text = [] := by
  obtain ⟨tail, split_eq⟩ := copy
  obtain ⟨first, name', name_eq⟩ : ∃ first name', name = first :: name' :=
    List.exists_cons_of_length_pos (Nat.zero_lt_of_lt within)
  obtain ⟨other, word_char, other_ne⟩ := exists_word_char_ne first
  have ne_nil : name ≠ [] := by simp [name_eq]
  have taken_ne_nil : name.take shift ≠ [] := by simp [ne_nil, Nat.ne_of_gt pos]
  have tail_length : tail.length = shift := by
    have := congrArg List.length split_eq
    rw [List.length_append, List.length_drop] at this
    omega
  have text_eq : (other :: name.take shift) ++ name = other :: (name ++ tail) := by
    rw [List.cons_append, take_append_self split_eq]
  have before_eq : (other :: name.take shift).getLast? = before? name shift := by
    rw [before?, List.getLast?_cons_of_ne_nil taken_ne_nil]
  have other_first : name.head? ≠ some other := by simp [name_eq, other_ne.symm]
  refine ⟨(other :: name.take shift) ++ name, (other :: name.take shift).length,
    (occursAt_append ..).2 List.prefix_rfl, standsAlone_iff.2 ⟨?_, ?_⟩, ?_⟩
  · rw [before?_append, before_eq, no_word]
  · have after_eq := after?_append (other :: name.take shift) name []
    rw [List.append_nil] at after_eq
    rw [after_eq]
    rfl
  · rw [text_eq]
    exact replacements_eq_nil ne_nil other_first (by omega) word_char

/-- **No occurrence that stands alone is missed in any text,** if and only if a word
character is before every copy of the name that begins within it.  What is meant
by missed: it is not replaced, and overlaps no occurrence that is.  The text that
the replacement makes has the value at the places where the name is replaced, and
is otherwise a copy. -/
theorem standing_alone_replaced_iff {name : String} (ne_empty : name ≠ "") :
    (∀ value text, Text.replace .wholeWord name value text =
      String.ofList (fill name.toList.length value.toList text.toList 0
        (replacements .wholeWord name.toList text.toList))) ∧
    ((∀ (text : String) place, OccursAt name.toList text.toList place →
        StandsAlone name.toList text.toList place →
          place ∈ replacements .wholeWord name.toList text.toList ∨
            ∃ other ∈ replacements .wholeWord name.toList text.toList,
              Overlap name.toList place other) ↔
      OverlapsInWords name.toList) := by
  have ne_nil : name.toList ≠ [] := by simpa using ne_empty
  refine ⟨replace_eq_fill .wholeWord name, fun none_missed => ?_, fun in_words => ?_⟩
  · intro shift within pos copy
    by_contra no_word
    rw [Bool.not_eq_true] at no_word
    obtain ⟨text, place, occurs, alone, none_replaced⟩ := exists_missed within pos copy no_word
    have := none_missed (String.ofList text) place
    simp [none_replaced, occurs, alone] at this
  · intro text place occurs alone
    obtain ⟨found, mem, le, within⟩ := exists_mem_occurrences ne_nil occurs
    obtain ⟨shift, rfl⟩ := Nat.exists_eq_add_of_le le
    rw [mem_replacements_wholeWord_iff]
    rcases Nat.eq_zero_or_pos shift with rfl | pos
    · exact .inl ⟨mem, alone⟩
    · -- An occurrence within one that is found has a word character of the name before it.
      have first := occursAt_of_mem_occurrences mem
      have within : shift < name.toList.length := by omega
      have word := in_words shift within pos (drop_prefix_of_occursAt first occurs)
      rw [← before?_of_occursAt first pos within, (standsAlone_iff.1 alone).1] at word
      exact absurd word Bool.false_ne_true

/-- In `(-a-a-a)` the name `-a-a` stands alone at its first place, where it is
replaced; the copy within it comes after a letter. -/
theorem copy_after_letter_replaced :
    "-a-a" ≠ "" ∧ OverlapsInWords "-a-a".toList ∧
      OccursAt "-a-a".toList "(-a-a-a)".toList 1 ∧ StandsAlone "-a-a".toList "(-a-a-a)".toList 1 ∧
      (1 ∈ replacements .wholeWord "-a-a".toList "(-a-a-a)".toList ∨
        ∃ other ∈ replacements .wholeWord "-a-a".toList "(-a-a-a)".toList,
          Overlap "-a-a".toList 1 other) := by
  have ne_empty : "-a-a" ≠ "" := by decide
  obtain ⟨-, none_missed⟩ := standing_alone_replaced_iff ne_empty
  have in_words : OverlapsInWords "-a-a".toList := by decide
  have occurs : OccursAt "-a-a".toList "(-a-a-a)".toList 1 := by decide
  have alone : StandsAlone "-a-a".toList "(-a-a-a)".toList 1 := by decide
  exact ⟨ne_empty, in_words, occurs, alone, none_missed.2 in_words "(-a-a-a)" 1 occurs alone⟩

/-- In `5---` the name `--` stands alone at the place 2, where it is missed: the
occurrence at the place 1 comes after a digit, and has been passed. -/
theorem copy_after_dash_missed :
    "--" ≠ "" ∧ "--".toList.any isBlank = false ∧
      OccursAt "--".toList "5---".toList 2 ∧ StandsAlone "--".toList "5---".toList 2 ∧
      ¬ (2 ∈ replacements .wholeWord "--".toList "5---".toList ∨
        ∃ other ∈ replacements .wholeWord "--".toList "5---".toList,
          Overlap "--".toList 2 other) ∧
      Text.replace .wholeWord "--" "1" "5---" = "5---" := by
  have none_replaced : replacements .wholeWord "--".toList "5---".toList = [] := by
    show replacements .wholeWord "--".toList ('5' :: ("--".toList ++ ['-'])) = []
    exact replacements_eq_nil (by decide) (by decide) (by decide) (by decide)
  refine ⟨by decide, by decide, by decide, by decide, ?_, ?_⟩
  · rw [none_replaced]
    simp
  · rw [replace_eq_fill, none_replaced]
    rfl

end Text
end Reckoner

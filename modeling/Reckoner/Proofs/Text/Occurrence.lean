/-
# What the search for a name finds

The search passes over a text from the left, and what it has passed stays in
front of the rest (`scan_induction`).  The places it finds are occurrences of the
name that do not overlap (`pairwise_occurrences`), and it misses none but those that
begin within one it has found (`exists_mem_occurrences`):

| an occurrence of the name begins | the search |
| --- | --- |
| where the search has got to | finds it |
| within an occurrence that is found | has passed it |

A replacement copies the text from one admitted place to the next, and puts the
value in there (`replace_eq_fill`).
-/

import Reckoner.Text.Occurrence
import Reckoner.Proofs.Text.Boundary

namespace Reckoner
namespace Text

/-- What the text becomes from the place `last` on when the value is put at the
given places, instead of `width` characters each. -/
def fill (width : Nat) (value text : List Char) : Nat → List Nat → List Char
  | last, [] => text.drop last
  | last, place :: places =>
    (text.take place).drop last ++ value ++ fill width value text (place + width) places

variable {matching : Matching} {name value front part text rest : List Char} {char : Char}
  {place : Nat} {places : List Nat}

instance : Decidable (OccursAt name text place) := inferInstanceAs (Decidable (_ <+: _))

/-! ### The search -/

/-- **The induction of the search over what it has passed.**  The text is at its
end, or the name occurs at its front and is passed, or else its first character
is. -/
theorem scan_induction {motive : List Char → List Char → Prop} (name : List Char)
    (nil : ∀ front, motive front [])
    (occurrence : ∀ front rest, name ≠ [] → motive (front ++ name) rest →
      motive front (name ++ rest))
    (cons : ∀ front char rest, ¬ (name <+: char :: rest ∧ name ≠ []) →
      motive (front ++ [char]) rest → motive front (char :: rest))
    (front text : List Char) : motive front text := by
  revert front
  refine search_induction (motive := fun _ text => ∀ front, motive front text) name ?_ ?_ ?_
    none text
  · exact fun _ front => nil front
  · exact fun _ rest ne_nil ih front => occurrence front rest ne_nil (ih _)
  · exact fun _ char rest absent ih front => cons front char rest absent (ih _)

/-- An occurrence at the front is found, and passed. -/
theorem searchFrom_occurrence (ne_nil : name ≠ []) (place : Nat) (rest : List Char) :
    searchFrom name place (name ++ rest) =
      place :: searchFrom name (place + name.length) rest := by
  obtain ⟨char, name', rfl⟩ := List.exists_cons_of_ne_nil ne_nil
  have found : (char :: name').isPrefixOf (char :: (name' ++ rest)) = true :=
    List.isPrefixOf_iff_prefix.2 (List.prefix_append (char :: name') rest)
  rw [List.cons_append, searchFrom, if_pos ⟨found, ne_nil⟩]
  simp

/-- A character at which the name does not occur is passed. -/
theorem searchFrom_cons (absent : ¬ (name <+: char :: rest ∧ name ≠ [])) (place : Nat) :
    searchFrom name place (char :: rest) = searchFrom name (place + 1) rest := by
  rw [searchFrom, if_neg]
  rwa [List.isPrefixOf_iff_prefix]

/-- What stands behind the front of a text decides what occurs there. -/
theorem occursAt_append (front text : List Char) :
    OccursAt name (front ++ text) front.length ↔ name <+: text := by
  rw [OccursAt, List.drop_left]

/-- What is found are occurrences, none of them before the search begins. -/
theorem of_mem_searchFrom (front : List Char) (mem : place ∈ searchFrom name front.length text) :
    front.length ≤ place ∧ OccursAt name (front ++ text) place := by
  induction front, text using scan_induction name with
  | nil front => simp [searchFrom] at mem
  | occurrence front rest ne_nil ih =>
    rw [searchFrom_occurrence ne_nil, List.mem_cons] at mem
    rcases mem with rfl | mem
    · exact ⟨Nat.le_refl _, (occursAt_append ..).2 (List.prefix_append name rest)⟩
    · rw [← List.length_append] at mem
      obtain ⟨le, occurs⟩ := ih mem
      rw [List.append_assoc] at occurs
      rw [List.length_append] at le
      exact ⟨by omega, occurs⟩
  | cons front char rest absent ih =>
    rw [searchFrom_cons absent] at mem
    obtain ⟨le, occurs⟩ := ih (by rwa [List.length_append, List.length_singleton])
    rw [List.append_assoc, List.singleton_append] at occurs
    rw [List.length_append, List.length_singleton] at le
    exact ⟨by omega, occurs⟩

/-- In the rest of a text, each place is found no earlier than the name ends that was
found before it. -/
theorem pairwise_searchFrom (front text : List Char) :
    (searchFrom name front.length text).Pairwise fun place later =>
      place + name.length ≤ later := by
  induction front, text using scan_induction name with
  | nil front => simp [searchFrom]
  | occurrence front rest ne_nil ih =>
    rw [List.length_append] at ih
    rw [searchFrom_occurrence ne_nil, List.pairwise_cons]
    refine ⟨fun later mem => ?_, ih⟩
    rw [← List.length_append] at mem ⊢
    exact (of_mem_searchFrom _ mem).1
  | cons front char rest absent ih =>
    rw [List.length_append, List.length_singleton] at ih
    rwa [searchFrom_cons absent]

/-- Every occurrence in the rest of a text begins within one that is found there. -/
theorem exists_mem_searchFrom (ne_nil : name ≠ []) (front : List Char)
    (le : front.length ≤ place) (occurs : OccursAt name (front ++ text) place) :
    ∃ found ∈ searchFrom name front.length text, found ≤ place ∧ place < found + name.length := by
  induction front, text using scan_induction name with
  | nil front =>
    rw [OccursAt, List.append_nil, List.drop_eq_nil_of_le le, List.prefix_nil] at occurs
    exact absurd occurs ne_nil
  | occurrence front rest ne_nil ih =>
    rw [searchFrom_occurrence ne_nil]
    by_cases within : place < front.length + name.length
    · exact ⟨front.length, List.mem_cons_self, le, within⟩
    · have behind : (front ++ name).length ≤ place := by
        rw [List.length_append]
        omega
      obtain ⟨found, mem, bounds⟩ := ih behind (by rwa [List.append_assoc])
      rw [List.length_append] at mem
      exact ⟨found, List.mem_cons_of_mem _ mem, bounds⟩
  | cons front char rest absent ih =>
    rw [searchFrom_cons absent]
    have later : front.length ≠ place := by
      rintro rfl
      exact absent ⟨(occursAt_append ..).1 occurs, ne_nil⟩
    have behind : (front ++ [char]).length ≤ place := by
      rw [List.length_append, List.length_singleton]
      omega
    obtain ⟨found, mem, bounds⟩ := ih behind (by rwa [List.append_assoc])
    rw [List.length_append, List.length_singleton] at mem
    exact ⟨found, mem, bounds⟩

/-- **What is found are occurrences.** -/
theorem occursAt_of_mem_occurrences (mem : place ∈ occurrences name text) :
    OccursAt name text place :=
  (of_mem_searchFrom [] mem).2

/-- **What is found does not overlap.** -/
theorem pairwise_occurrences (name text : List Char) :
    (occurrences name text).Pairwise fun place later => place + name.length ≤ later :=
  pairwise_searchFrom [] text

/-- **Every occurrence begins within one that is found.** -/
theorem exists_mem_occurrences (ne_nil : name ≠ []) (occurs : OccursAt name text place) :
    ∃ found ∈ occurrences name text, found ≤ place ∧ place < found + name.length :=
  exists_mem_searchFrom ne_nil [] (Nat.zero_le place) occurs

/-- A text that is shorter than the name has no occurrences of it. -/
theorem searchFrom_of_length_lt (short : text.length < name.length) (place : Nat) :
    searchFrom name place text = [] := by
  induction text generalizing place with
  | nil => rw [searchFrom]
  | cons char rest ih =>
    have absent : ¬ (name <+: char :: rest ∧ name ≠ []) := fun found =>
      absurd found.1.length_le (Nat.not_le.2 short)
    rw [searchFrom_cons absent, ih (Nat.lt_of_succ_lt short)]

/-! ### Neighbours -/

theorem before?_append (front text : List Char) :
    before? (front ++ text) front.length = front.getLast? := by
  rw [before?, List.take_left]

theorem after?_append (front name rest : List Char) :
    after? name (front ++ (name ++ rest)) front.length = rest.head? := by
  rw [after?, ← List.length_append, ← List.append_assoc, List.getElem?_append_right (Nat.le_refl _),
    Nat.sub_self, List.head?_eq_getElem?]

/-- What stands alone has no word character on either side. -/
theorem standsAlone_iff :
    StandsAlone name text place ↔
      (before? text place).any isWordChar = false ∧
        (after? name text place).any isWordChar = false := by
  simp only [StandsAlone, Option.any_eq_false, Bool.not_eq_true, Option.mem_def]

instance : Decidable (StandsAlone name text place) := decidable_of_iff _ standsAlone_iff.symm

/-- Where names have to stand alone, an occurrence that does is admitted. -/
theorem admits_wholeWord_iff :
    Matching.wholeWord.admits (before? text place) (after? name text place) = true ↔
      StandsAlone name text place := by
  simp [Matching.admits, standsAlone_iff]

/-- What is replaced where names have to stand alone. -/
theorem mem_replacements_wholeWord_iff :
    place ∈ replacements .wholeWord name text ↔
      place ∈ occurrences name text ∧ StandsAlone name text place := by
  rw [replacements, List.mem_filter, admits_wholeWord_iff]

/-! ### Filling in the value -/

/-- What stands before all of the places is copied. -/
theorem fill_append (width : Nat) (value front part rest : List Char)
    (later : ∀ place ∈ places, (front ++ part).length ≤ place) :
    fill width value (front ++ (part ++ rest)) front.length places =
      part ++ fill width value (front ++ (part ++ rest)) (front ++ part).length places := by
  rw [← List.append_assoc]
  cases places with
  | nil => rw [fill, fill, List.drop_left, List.append_assoc, List.drop_left]
  | cons place places =>
    obtain ⟨more, rfl⟩ := Nat.exists_eq_add_of_le (later place List.mem_cons_self)
    rw [fill, fill, List.take_length_add_append, List.drop_left, List.append_assoc front,
      List.drop_left]
    simp only [List.append_assoc]

/-- The places at which the rest of a text is changed. -/
def replacementsFrom (matching : Matching) (name front text : List Char) : List Nat :=
  (searchFrom name front.length text).filter fun place =>
    matching.admits (before? (front ++ text) place) (after? name (front ++ text) place)

theorem le_of_mem_replacementsFrom (mem : place ∈ replacementsFrom matching name front text) :
    front.length ≤ place :=
  (of_mem_searchFrom front (List.mem_of_mem_filter mem)).1

/-- **The rest of a text is replaced by filling in the value** at the admitted
places. -/
theorem replaceFrom_eq_fill (matching : Matching) (name value front text : List Char) :
    replaceFrom matching.admits name value front.getLast? text =
      fill name.length value (front ++ text) front.length
        (replacementsFrom matching name front text) := by
  induction front, text using scan_induction name with
  | nil front => simp [replaceFrom, replacementsFrom, searchFrom, fill]
  | occurrence front rest ne_nil ih =>
    have last_eq : (front ++ name).getLast? = name.getLast? :=
      List.getLast?_append_of_ne_nil front ne_nil
    have found : replacementsFrom matching name front (name ++ rest) =
        if matching.admits front.getLast? rest.head? then
          front.length :: replacementsFrom matching name (front ++ name) rest
        else replacementsFrom matching name (front ++ name) rest := by
      rw [replacementsFrom, searchFrom_occurrence ne_nil, List.filter_cons, before?_append,
        after?_append, replacementsFrom, List.length_append, List.append_assoc]
    rw [last_eq, List.append_assoc] at ih
    rw [replaceFrom_occurrence ne_nil, found, ih]
    split
    · rw [fill, List.take_left, List.drop_length, List.nil_append, List.length_append]
    · rw [fill_append name.length value front name rest
        fun place mem => le_of_mem_replacementsFrom mem]
  | cons front char rest absent ih =>
    have found : replacementsFrom matching name front (char :: rest) =
        replacementsFrom matching name (front ++ [char]) rest := by
      rw [replacementsFrom, searchFrom_cons absent, replacementsFrom, List.length_append,
        List.append_assoc]
      rfl
    rw [List.getLast?_concat, List.append_assoc] at ih
    rw [replaceFrom_cons absent, found, ih]
    exact (fill_append name.length value front [char] rest
      fun place mem => le_of_mem_replacementsFrom mem).symm

/-- **To replace a name is to fill in the value at the places where it is
replaced,** and to copy all that is between them. -/
theorem replace_eq_fill (matching : Matching) (name value text : String) :
    Text.replace matching name value text =
      String.ofList (fill name.toList.length value.toList text.toList 0
        (replacements matching name.toList text.toList)) :=
  congrArg String.ofList (replaceFrom_eq_fill matching name.toList value.toList [] text.toList)

end Text
end Reckoner

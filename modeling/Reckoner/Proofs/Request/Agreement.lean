/-
# Where both matchings agree

A name that is replaced everywhere and one that is replaced only where it stands
alone are searched for in the same way.  The two results differ at every occurrence
that does not stand alone: one has the value there, the other one the name.

| the value is | the two results |
| --- | --- |
| the name | both are the text |
| longer than the name | differ in length if any occurrence is refused |
| shorter than the name | likewise |
| another text as long as the name | differ at the first occurrence that is refused |
-/

import Reckoner.Bindings
import Reckoner.Proofs.Text.Everywhere
import Reckoner.Proofs.Text.Occurrence

namespace Reckoner
namespace Text

variable {admits : Option Char → Option Char → Bool} {name value text rest front : List Char}
  {before : Option Char}

/-- A name that is replaced by itself stays. -/
theorem replaceFrom_name (admits : Option Char → Option Char → Bool) (name : List Char)
    (before : Option Char) (text : List Char) :
    replaceFrom admits name name before text = text := by
  induction before, text using search_induction name with
  | nil before => rw [replaceFrom]
  | occurrence before rest ne_nil ih => rw [replaceFrom_occurrence ne_nil, ih, ite_self]
  | cons before char rest absent ih => rw [replaceFrom_cons absent, ih]

/-- For each occurrence that is refused, the result has the name and not the value. -/
theorem exists_length_eq (admits : Option Char → Option Char → Bool) (name value : List Char)
    (before : Option Char) (text : List Char) :
    ∃ refused, (replaceAll name value text).length + refused * name.length =
      (replaceFrom admits name value before text).length + refused * value.length := by
  induction before, text using search_induction name with
  | nil before => exact ⟨0, by simp [replaceAll_nil, replaceFrom]⟩
  | occurrence before rest ne_nil ih =>
    obtain ⟨refused, ih⟩ := ih
    rw [replaceAll_occurrence ne_nil, replaceFrom_occurrence ne_nil, List.length_append,
      List.length_append]
    split
    · exact ⟨refused, by omega⟩
    · refine ⟨refused + 1, ?_⟩
      rw [Nat.succ_mul, Nat.succ_mul]
      omega
  | cons before char rest absent ih =>
    obtain ⟨refused, ih⟩ := ih
    refine ⟨refused, ?_⟩
    rw [replaceAll_cons absent, replaceFrom_cons absent, List.length_cons, List.length_cons]
    omega

/-- **An occurrence that is refused makes a difference,** unless the name is
replaced by itself: with it the lengths differ, or else the characters at its place. -/
theorem eq_of_append_replaceAll_eq
    (eq : value ++ replaceAll name value text =
      name ++ replaceFrom admits name value before text) : value = name := by
  obtain ⟨refused, rest_lengths⟩ := exists_length_eq admits name value before text
  have lengths := congrArg List.length eq
  rw [List.length_append, List.length_append] at lengths
  have same_length : value.length = name.length := by
    rcases Nat.le_total name.length value.length with longer | shorter
    · have := Nat.mul_le_mul_left refused longer
      omega
    · have := Nat.mul_le_mul_left refused shorter
      omega
  exact (List.append_inj eq same_length).1

/-- The occurrence that the search has got to stands alone if it is admitted. -/
theorem standsAlone_append_iff :
    StandsAlone name (front ++ (name ++ rest)) front.length ↔
      Matching.wholeWord.admits front.getLast? rest.head? = true := by
  rw [← admits_wholeWord_iff, before?_append, after?_append]

/-- The rest of a text becomes the same by both matchings exactly when the name is
replaced by itself, or stands alone wherever it is found. -/
theorem replaceAll_eq_wholeWord_iff (front text : List Char) :
    replaceAll name value text =
        replaceFrom Matching.wholeWord.admits name value front.getLast? text ↔
      value = name ∨
        ∀ place ∈ searchFrom name front.length text, StandsAlone name (front ++ text) place := by
  induction front, text using scan_induction name with
  | nil front => simp [replaceAll_nil, replaceFrom, searchFrom]
  | occurrence front rest ne_nil ih =>
    have last_eq : (front ++ name).getLast? = name.getLast? :=
      List.getLast?_append_of_ne_nil front ne_nil
    rw [last_eq, List.append_assoc, List.length_append] at ih
    rw [replaceAll_occurrence ne_nil, replaceFrom_occurrence ne_nil,
      searchFrom_occurrence ne_nil, List.forall_mem_cons, standsAlone_append_iff]
    by_cases admitted : Matching.wholeWord.admits front.getLast? rest.head? = true
    · rw [if_pos admitted, List.append_cancel_left_eq, ih]
      simp only [admitted, true_and]
    · rw [if_neg admitted]
      refine ⟨fun eq => .inl (eq_of_append_replaceAll_eq eq), ?_⟩
      rintro (rfl | ⟨alone, -⟩)
      · rw [replaceFrom_name, replaceAll, replaceFrom_name]
      · exact absurd alone admitted
  | cons front char rest absent ih =>
    rw [List.getLast?_concat, List.append_assoc, List.length_append, List.length_singleton] at ih
    rw [replaceAll_cons absent, replaceFrom_cons absent, searchFrom_cons absent,
      List.cons_inj_right, ih]
    rfl

end Text

namespace Bindings

/-- **Both matchings agree on a binding** exactly when it gives its name for its name,
or each of the leftmost occurrences of the name, none of which overlap, stands alone.
The empty name, which no assignment list binds, has no occurrences. -/
theorem substitute_anywhere_eq_wholeWord_iff (binding : Binding) (text : String) :
    substitute [binding] .anywhere text = substitute [binding] .wholeWord text ↔
      binding.value = binding.name ∨
        ∀ place ∈ Text.occurrences binding.name.toList text.toList,
          Text.StandsAlone binding.name.toList text.toList place := by
  show String.ofList (Text.replaceAll binding.name.toList binding.value.toList text.toList) =
    Text.replace .wholeWord binding.name binding.value text ↔ _
  rw [Text.replace, String.ofList_inj, ← String.toList_inj]
  exact Text.replaceAll_eq_wholeWord_iff [] text.toList

end Bindings
end Reckoner

/-
# Bindings without common characters

A name may be replaced wherever it occurs, inside other names and values too.  If
no name shares a character with another name or with any value (`Unmixed`), this
does no harm:

| | because |
| --- | --- |
| no name is left in the text | a value holds no part of a name, and is not empty |
| the order of the bindings does not matter | no two occurrences of names overlap |
| a second substitution changes nothing | no name is left |

That values are not empty is used throughout: an empty value would join what stands
around it to a new occurrence.  Those of an assignment list are items of it, which
are not empty.
-/

import Reckoner.Proofs.Request.Pairing
import Reckoner.Proofs.Text.Everywhere
import Mathlib.Data.List.Pairwise

namespace Reckoner

/-- The names of two bindings have no character in common. -/
def Binding.Apart (binding other : Binding) : Prop :=
  binding.name.toList.Disjoint other.name.toList

instance : Std.Symm Binding.Apart := ⟨fun _ _ apart => List.Disjoint.symm apart⟩

namespace Bindings

/-- No name shares a character with another name, or with a value. -/
structure Unmixed (bindings : Bindings) : Prop where
  names : bindings.Pairwise Binding.Apart
  values : ∀ binding ∈ bindings, ∀ other ∈ bindings,
    binding.name.toList.Disjoint other.value.toList

/-- Neither the name nor the value is empty. -/
def NonEmpty (bindings : Bindings) : Prop :=
  ∀ binding ∈ bindings, binding.name.toList ≠ [] ∧ binding.value.toList ≠ []

variable {bindings bindings' : Bindings} {binding other : Binding} {part : List Char}
  {assignments text : String}

/-! ### Bindings of an assignment list -/

/-- The bindings of an assignment list have names and values. -/
theorem nonEmpty_of_ofText (assigned : ofText assignments = .ok bindings) : bindings.NonEmpty := by
  intro binding mem
  have isItem := isItem_of_ofText assigned
  have name_mem : binding.name ∈ bindings.toItems :=
    List.mem_flatMap.2 ⟨binding, mem, List.mem_cons_self⟩
  have value_mem : binding.value ∈ bindings.toItems :=
    List.mem_flatMap.2 ⟨binding, mem, List.mem_cons_of_mem _ List.mem_cons_self⟩
  exact ⟨(isItem _ name_mem).ne_nil, (isItem _ value_mem).ne_nil⟩

/-! ### Substituting them everywhere -/

theorem toList_replace (binding : Binding) (text : String) :
    (Text.replace .anywhere binding.name binding.value text).toList =
      Text.replaceAll binding.name.toList binding.value.toList text.toList := by
  rw [Text.replace, String.toList_ofList, Text.replaceAll]

/-- **What occurs after a substitution occurred before it,** and is no name, unless
it shares a character with a value. -/
theorem infix_substitute (nonEmpty : bindings.NonEmpty) (part_ne : part ≠ [])
    (disjoint : ∀ binding ∈ bindings, part.Disjoint binding.value.toList)
    (found : part <:+: (bindings.substitute .anywhere text).toList) :
    part <:+: text.toList ∧ ∀ binding ∈ bindings, part ≠ binding.name.toList := by
  induction bindings generalizing text with
  | nil => exact ⟨found, by simp⟩
  | cons binding bindings ih =>
    have nonEmpty' : NonEmpty bindings := fun other mem =>
      nonEmpty other (List.mem_cons_of_mem _ mem)
    have disjoint' := fun other mem => disjoint other (List.mem_cons_of_mem binding mem)
    obtain ⟨within, ne⟩ := ih nonEmpty' disjoint' found
    rw [toList_replace] at within
    obtain ⟨within, ne_first⟩ := Text.infix_replaceAll (nonEmpty binding List.mem_cons_self).2
      part_ne (disjoint binding List.mem_cons_self) within
    exact ⟨within, List.forall_mem_cons.2 ⟨ne_first, ne⟩⟩

/-- A text in which no name occurs is kept. -/
theorem substitute_of_forall_not_infix {matching : Matching}
    (absent : ∀ binding ∈ bindings, ¬ binding.name.toList <:+: text.toList) :
    bindings.substitute matching text = text := by
  induction bindings with
  | nil => rfl
  | cons binding bindings ih =>
    have kept : Text.replace matching binding.name binding.value text = text := by
      rw [Text.replace, Text.replaceFrom_of_not_infix (absent binding List.mem_cons_self),
        String.ofList_toList]
    show substitute bindings matching
      (Text.replace matching binding.name binding.value text) = text
    rw [kept, ih fun other mem => absent other (List.mem_cons_of_mem _ mem)]

/-- Of unmixed bindings any two may be applied in either order. -/
theorem Unmixed.replace_comm (unmixed : bindings.Unmixed) (nonEmpty : bindings.NonEmpty)
    (mem : binding ∈ bindings) (mem' : other ∈ bindings) (text : String) :
    Text.replace .anywhere other.name other.value
        (Text.replace .anywhere binding.name binding.value text) =
      Text.replace .anywhere binding.name binding.value
        (Text.replace .anywhere other.name other.value text) := by
  by_cases same : other = binding
  · rw [same]
  · have names := unmixed.names.forall mem' mem same
    rw [← String.toList_inj, toList_replace, toList_replace, toList_replace, toList_replace]
    exact Text.replaceAll_comm (nonEmpty other mem').2 (nonEmpty binding mem).2 names
      (unmixed.values other mem' binding mem) (unmixed.values binding mem other mem') text.toList

/-- **Bindings without common characters are substituted everywhere,** in any order,
and once is enough.  No name is left in the text, the bindings may be taken in any
order, and applying them a second time changes nothing. -/
theorem substitute_unmixed (assigned : ofText assignments = .ok bindings)
    (unmixed : bindings.Unmixed) (text : String) :
    (∀ binding ∈ bindings,
        ¬ binding.name.toList <:+: (bindings.substitute .anywhere text).toList) ∧
      (∀ bindings' : Bindings, bindings'.Perm bindings →
        bindings'.substitute .anywhere text = bindings.substitute .anywhere text) ∧
      bindings.substitute .anywhere (bindings.substitute .anywhere text) =
        bindings.substitute .anywhere text := by
  have nonEmpty := nonEmpty_of_ofText assigned
  have none_left : ∀ binding ∈ bindings,
      ¬ binding.name.toList <:+: (bindings.substitute .anywhere text).toList := by
    intro binding mem found
    obtain ⟨-, ne⟩ := infix_substitute nonEmpty (nonEmpty binding mem).1
      (unmixed.values binding mem) found
    exact ne binding mem rfl
  refine ⟨none_left, fun bindings' perm => ?_, substitute_of_forall_not_infix none_left⟩
  refine (perm.symm.foldl_eq' (fun binding mem other mem' text => ?_) text).symm
  exact unmixed.replace_comm nonEmpty mem mem' text

/-- With `aa` for `1` and `b` for `20` the text `aaab-b` becomes `1a20-20`, in either
order of the two, and stays so. -/
theorem substitute_repeated_letters :
    substitute [⟨"aa", "1"⟩, ⟨"b", "20"⟩] .anywhere "aaab-b" = "1a20-20" ∧
      (¬ "aa".toList <:+: "1a20-20".toList ∧ ¬ "b".toList <:+: "1a20-20".toList) ∧
      substitute [⟨"b", "20"⟩, ⟨"aa", "1"⟩] .anywhere "aaab-b" = "1a20-20" ∧
      substitute [⟨"aa", "1"⟩, ⟨"b", "20"⟩] .anywhere "1a20-20" = "1a20-20" := by
  have assigned : ofText "aa 1 b 20" = .ok [⟨"aa", "1"⟩, ⟨"b", "20"⟩] := by decide +kernel
  have unmixed : Unmixed [⟨"aa", "1"⟩, ⟨"b", "20"⟩] :=
    ⟨by simp [Binding.Apart], by simp⟩
  obtain ⟨none_left, permuted, again⟩ := substitute_unmixed assigned unmixed "aaab-b"
  have outcome : substitute [⟨"aa", "1"⟩, ⟨"b", "20"⟩] .anywhere "aaab-b" = "1a20-20" := by
    decide +kernel
  rw [outcome] at none_left permuted again
  obtain ⟨first_absent, rest_absent⟩ := List.forall_mem_cons.1 none_left
  have second_absent := (List.forall_mem_cons.1 rest_absent).1
  have swapped := permuted [⟨"b", "20"⟩, ⟨"aa", "1"⟩] (List.Perm.swap ..)
  exact ⟨outcome, ⟨first_absent, second_absent⟩, swapped, again⟩

end Bindings
end Reckoner

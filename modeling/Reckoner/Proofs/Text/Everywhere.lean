/-
# Replacing a name everywhere

With all occurrences of a name replaced, what is before the rest of a text does
not matter, and the search goes from one occurrence to the next.  The value that
is put in keeps apart what stands around it from other texts that share no
character with it:

| a text that shares no character with the value | |
| --- | --- |
| begins the result | only if it begins the text (`prefix_of_prefix_replaceAll`) |
| occurs in the result | only if it occurs in the text, and is not the name (`infix_replaceAll`) |

So two names are replaced in either order with the same result if neither shares a
character with the other or with a value (`replaceAll_comm`).
-/

import Reckoner.Proofs.Text.Boundary
import Mathlib.Data.List.Lattice

namespace Reckoner
namespace Text

/-- Replaces every occurrence of the name. -/
def replaceAll (name value text : List Char) : List Char :=
  replaceFrom Matching.anywhere.admits name value none text

variable {name value other value' part front text rest : List Char} {char : Char}

/-! ### Single steps -/

/-- What is before a text does not matter. -/
theorem replaceFrom_anywhere (before : Option Char) (text : List Char) :
    replaceFrom Matching.anywhere.admits name value before text = replaceAll name value text := by
  rw [replaceAll]
  by_cases found : name <+: text ∧ name ≠ []
  · obtain ⟨⟨rest, rfl⟩, ne_nil⟩ := found
    rw [replaceFrom_occurrence ne_nil, replaceFrom_occurrence ne_nil]
    rfl
  · cases text with
    | nil => rw [replaceFrom, replaceFrom]
    | cons char rest => rw [replaceFrom_cons found, replaceFrom_cons found]

theorem replaceAll_nil : replaceAll name value [] = [] := by
  rw [replaceAll, replaceFrom]

/-- An occurrence at the front is replaced. -/
theorem replaceAll_occurrence (ne_nil : name ≠ []) :
    replaceAll name value (name ++ rest) = value ++ replaceAll name value rest := by
  rw [replaceAll, replaceFrom_occurrence ne_nil, replaceFrom_anywhere]
  rfl

/-- A character at which the name does not occur is kept. -/
theorem replaceAll_cons (absent : ¬ (name <+: char :: rest ∧ name ≠ [])) :
    replaceAll name value (char :: rest) = char :: replaceAll name value rest := by
  rw [replaceAll, replaceFrom_cons absent, replaceFrom_anywhere]

/-- **The induction over the occurrences of a name.**  The text is at its end, or
the name occurs at its front, or else its first character is passed. -/
theorem occurrence_induction {motive : List Char → Prop} (name : List Char) (nil : motive [])
    (occurrence : ∀ rest, name ≠ [] → motive rest → motive (name ++ rest))
    (cons : ∀ char rest, ¬ (name <+: char :: rest ∧ name ≠ []) → motive rest →
      motive (char :: rest))
    (text : List Char) : motive text :=
  search_induction (motive := fun _ text => motive text) name (fun _ => nil)
    (fun _ => occurrence) (fun _ => cons) none text

/-! ### Texts without common characters -/

/-- A text begins with no text that shares no character with its own beginning. -/
theorem not_prefix_of_disjoint (disjoint : part.Disjoint front) (part_ne : part ≠ [])
    (front_ne : front ≠ []) : ¬ part <+: front ++ rest := by
  obtain ⟨first, part, rfl⟩ := List.exists_cons_of_ne_nil part_ne
  obtain ⟨char, front, rfl⟩ := List.exists_cons_of_ne_nil front_ne
  intro found
  obtain rfl : first = char := (List.cons_prefix_cons.1 found).1
  exact disjoint List.mem_cons_self List.mem_cons_self

/-- What shares no character with the front of a text occurs behind it. -/
theorem infix_of_infix_append (disjoint : part.Disjoint front) (ne_nil : part ≠ [])
    (found : part <:+: front ++ text) : part <:+: text := by
  induction front with
  | nil => exact found
  | cons char front ih =>
    obtain ⟨char_disjoint, front_disjoint⟩ : part.Disjoint [char] ∧ part.Disjoint front := by
      rwa [← List.disjoint_append_right]
    rcases List.infix_cons_iff.1 found with leads | within
    · exact absurd leads
        (not_prefix_of_disjoint char_disjoint ne_nil (List.cons_ne_nil char []))
    · exact ih front_disjoint within

/-- A name is not replaced in what shares no character with it. -/
theorem replaceAll_append (disjoint : name.Disjoint part) (rest : List Char) :
    replaceAll name value (part ++ rest) = part ++ replaceAll name value rest := by
  induction part with
  | nil => rfl
  | cons char part ih =>
    obtain ⟨char_disjoint, part_disjoint⟩ : name.Disjoint [char] ∧ name.Disjoint part := by
      rwa [← List.disjoint_append_right]
    have absent : ¬ (name <+: char :: (part ++ rest) ∧ name ≠ []) := fun found =>
      not_prefix_of_disjoint char_disjoint found.2 (List.cons_ne_nil char []) found.1
    rw [List.cons_append, replaceAll_cons absent, ih part_disjoint, List.cons_append]

/-- **Only what begins the text begins the result,** unless it shares a character
with the value. -/
theorem prefix_of_prefix_replaceAll (value_ne : value ≠ []) (disjoint : part.Disjoint value)
    (found : part <+: replaceAll name value text) : part <+: text := by
  induction text using occurrence_induction name generalizing part with
  | nil => rwa [replaceAll_nil] at found
  | occurrence rest ne_nil ih =>
    rw [replaceAll_occurrence ne_nil] at found
    by_cases empty : part = []
    · rw [empty]
      exact List.nil_prefix
    · exact absurd found (not_prefix_of_disjoint disjoint empty value_ne)
  | cons char rest absent ih =>
    rw [replaceAll_cons absent] at found
    cases part with
    | nil => exact List.nil_prefix
    | cons first part =>
      obtain ⟨rfl, rest_found⟩ := List.cons_prefix_cons.1 found
      exact List.cons_prefix_cons.2 ⟨rfl, ih (List.disjoint_cons_left.1 disjoint).2 rest_found⟩

/-- **Only what occurs in the text occurs in the result,** and the name does not,
unless it shares a character with the value. -/
theorem infix_replaceAll (value_ne : value ≠ []) (part_ne : part ≠ [])
    (disjoint : part.Disjoint value) (found : part <:+: replaceAll name value text) :
    part <:+: text ∧ part ≠ name := by
  induction text using occurrence_induction name with
  | nil =>
    rw [replaceAll_nil, List.infix_nil] at found
    exact absurd found part_ne
  | occurrence rest ne_nil ih =>
    rw [replaceAll_occurrence ne_nil] at found
    obtain ⟨within, ne⟩ := ih (infix_of_infix_append disjoint part_ne found)
    exact ⟨within.trans (List.suffix_append name rest).isInfix, ne⟩
  | cons char rest absent ih =>
    rw [replaceAll_cons absent] at found
    rcases List.infix_cons_iff.1 found with leads | within
    · rw [← replaceAll_cons absent] at leads
      have leads := prefix_of_prefix_replaceAll value_ne disjoint leads
      refine ⟨leads.isInfix, fun same => absent ⟨?_, ?_⟩⟩
      · rwa [← same]
      · rwa [← same]
    · obtain ⟨within, ne⟩ := ih within
      exact ⟨within.trans (List.suffix_cons char rest).isInfix, ne⟩

/-! ### Two names -/

theorem length_lt_length_append (ne_nil : front ≠ []) (rest : List Char) :
    rest.length < (front ++ rest).length := by
  have := List.length_pos_iff.2 ne_nil
  rw [List.length_append]
  omega

/-- Behind an occurrence of one name, both are replaced as they are without it. -/
theorem replaceAll_comm_occurrence (ne_nil : name ≠ []) (names : name.Disjoint other)
    (other_value : other.Disjoint value)
    (rest_eq : replaceAll name value (replaceAll other value' rest) =
      replaceAll other value' (replaceAll name value rest)) :
    replaceAll name value (replaceAll other value' (name ++ rest)) =
      replaceAll other value' (replaceAll name value (name ++ rest)) := by
  rw [replaceAll_append names.symm, replaceAll_occurrence ne_nil, replaceAll_occurrence ne_nil,
    replaceAll_append other_value, rest_eq]

/-- **Two names are replaced in either order,** if neither shares a character with
the other or with the value of the other. -/
theorem replaceAll_comm (value_ne : value ≠ []) (value'_ne : value' ≠ [])
    (names : name.Disjoint other) (name_value : name.Disjoint value')
    (other_value : other.Disjoint value) (text : List Char) :
    replaceAll name value (replaceAll other value' text) =
      replaceAll other value' (replaceAll name value text) := by
  induction size : text.length using Nat.strongRecOn generalizing text with
  | _ length ih =>
    subst size
    -- Either name may occur at the front of the text, or else neither does.
    by_cases name_found : name <+: text ∧ name ≠ []
    · obtain ⟨⟨rest, rfl⟩, ne_nil⟩ := name_found
      have rest_eq := ih _ (length_lt_length_append ne_nil rest) rest rfl
      exact replaceAll_comm_occurrence ne_nil names other_value rest_eq
    by_cases other_found : other <+: text ∧ other ≠ []
    · obtain ⟨⟨rest, rfl⟩, ne_nil⟩ := other_found
      have rest_eq := ih _ (length_lt_length_append ne_nil rest) rest rfl
      exact (replaceAll_comm_occurrence ne_nil names.symm name_value rest_eq.symm).symm
    cases text with
    | nil => rw [replaceAll_nil, replaceAll_nil, replaceAll_nil]
    | cons char rest =>
      have name_absent : ¬ (name <+: char :: replaceAll other value' rest ∧ name ≠ []) := by
        rw [← replaceAll_cons other_found]
        exact fun found =>
          name_found ⟨prefix_of_prefix_replaceAll value'_ne name_value found.1, found.2⟩
      have other_absent : ¬ (other <+: char :: replaceAll name value rest ∧ other ≠ []) := by
        rw [← replaceAll_cons name_found]
        exact fun found =>
          other_found ⟨prefix_of_prefix_replaceAll value_ne other_value found.1, found.2⟩
      rw [replaceAll_cons other_found, replaceAll_cons name_found, replaceAll_cons name_absent,
        replaceAll_cons other_absent, ih _ (Nat.lt_succ_self _) rest rfl]

end Text
end Reckoner

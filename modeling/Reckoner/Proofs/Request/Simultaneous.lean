/-
# Bindings applied all at once

Where names have to stand alone, bindings are applied one after another, each to
the text that the one before has left.  That comes to the same as applying all
of them at once, word by word, if no word of a value is a name:

| run of the text | becomes |
| --- | --- |
| a word that is a name | the value of the first binding with this name |
| any other word | itself |
| a character between words | itself |

A value that has been put into a text stands between the same characters as the
word it was put for, so it joins with no word next to it, and its own words are
no names: no later binding changes it.  The order of the bindings then matters
only where two of them have the same name, and applying them once more changes
nothing.
-/

import Reckoner.Proofs.Request.Environment
import Reckoner.Proofs.Text.Run

namespace Reckoner
namespace Bindings

open Text (isWordChar mapWords wordRuns)

/-- The names are made of word characters. -/
def Worded (bindings : Bindings) : Prop :=
  ∀ binding ∈ bindings, ∀ char ∈ binding.name.toList, isWordChar char = true

/-- No run of a value is a name. -/
def Inert (bindings : Bindings) : Prop :=
  ∀ binding ∈ bindings, ∀ run ∈ wordRuns binding.value.toList, ∀ other ∈ bindings,
    run ≠ other.name.toList

instance (bindings : Bindings) : Decidable bindings.Worded :=
  decidable_of_iff (bindings.all fun binding => binding.name.toList.all isWordChar)
    (by simp only [Worded, List.all_eq_true])

instance (bindings : Bindings) : Decidable bindings.Inert :=
  inferInstanceAs (Decidable (∀ binding ∈ bindings, ∀ run ∈ wordRuns binding.value.toList,
    ∀ other ∈ bindings, _ ≠ _))

/-- What stands for a run of a text: the value of the first binding with this
name, and the run itself where there is none. -/
def standFor (bindings : Bindings) (run : List Char) : List Char :=
  ((bindings.value? (String.ofList run)).getD (String.ofList run)).toList

variable {bindings bindings' : Bindings} {binding : Binding} {run : List Char} {name value : String}

/-! ### What stands for a run -/

/-- The first binding decides its own name. -/
theorem value?_cons (binding : Binding) (bindings : Bindings) (name : String) :
    value? (binding :: bindings) name =
      if binding.name = name then some binding.value else bindings.value? name := by
  by_cases same : binding.name = name
  · simp [value?, same]
  · simp [value?, same]

theorem standFor_nil (run : List Char) : standFor [] run = run := String.toList_ofList

theorem standFor_cons (binding : Binding) (bindings : Bindings) (run : List Char) :
    standFor (binding :: bindings) run =
      if run = binding.name.toList then binding.value.toList else standFor bindings run := by
  rw [standFor, value?_cons]
  by_cases same : run = binding.name.toList
  · rw [if_pos same, if_pos (by rw [same, String.ofList_toList]), Option.getD_some]
  · rw [if_neg same, if_neg fun eq => same (by rw [eq, String.toList_ofList])]
    rfl

/-- What is no name stands for itself. -/
theorem standFor_of_forall_ne (ne : ∀ binding ∈ bindings, run ≠ binding.name.toList) :
    bindings.standFor run = run := by
  induction bindings with
  | nil => exact standFor_nil run
  | cons binding bindings ih =>
    rw [standFor_cons, if_neg (ne binding List.mem_cons_self),
      ih fun other mem => ne other (List.mem_cons_of_mem _ mem)]

/-- A run becomes the value of a binding, or is no name and stays. -/
theorem standFor_cases (bindings : Bindings) (run : List Char) :
    (∃ binding ∈ bindings, bindings.standFor run = binding.value.toList) ∨
      (∀ binding ∈ bindings, run ≠ binding.name.toList) := by
  induction bindings with
  | nil => exact .inr (by simp)
  | cons binding bindings ih =>
    rw [standFor_cons]
    split
    next => exact .inl ⟨binding, List.mem_cons_self, rfl⟩
    next other =>
      rcases ih with ⟨first, mem, eq⟩ | none_bound
      · exact .inl ⟨first, List.mem_cons_of_mem _ mem, eq⟩
      · exact .inr (List.forall_mem_cons.2 ⟨other, none_bound⟩)

/-- A character between words is no name and stays. -/
theorem Worded.standFor_singleton (worded : bindings.Worded) (char : Char)
    (no_word : isWordChar char = false) : bindings.standFor [char] = [char] :=
  standFor_of_forall_ne fun binding mem =>
    Text.singleton_ne_of_word_chars no_word (worded binding mem)

theorem Worded.tail (worded : Worded (binding :: bindings)) : bindings.Worded :=
  fun other mem => worded other (List.mem_cons_of_mem _ mem)

theorem Inert.tail (inert : Inert (binding :: bindings)) : bindings.Inert :=
  fun first mem run mem' other mem'' =>
    inert first (List.mem_cons_of_mem _ mem) run mem' other (List.mem_cons_of_mem _ mem'')

/-- **A value stays as it is** when the bindings are applied to it. -/
theorem mapWords_value_eq (bindings : Bindings)
    (inert : ∀ run ∈ wordRuns value.toList, ∀ other ∈ bindings, run ≠ other.name.toList) :
    mapWords bindings.standFor value.toList = value.toList :=
  Text.mapWords_of_forall_eq fun run mem => standFor_of_forall_ne (inert run mem)

/-! ### Applying bindings -/

/-- **Bindings applied one after another are applied all at once.**  One binding
more maps the words that are its name to its value, and what the others make of
this text is again a mapping, which keeps the value. -/
theorem toList_substitute (worded : bindings.Worded) (inert : bindings.Inert) (text : String) :
    (bindings.substitute .wholeWord text).toList = mapWords bindings.standFor text.toList := by
  induction bindings generalizing text with
  | nil =>
    show text.toList = _
    rw [Text.mapWords_of_forall_eq fun run _ => standFor_nil run]
  | cons binding bindings ih =>
    show (substitute bindings .wholeWord
      (Text.replace .wholeWord binding.name binding.value text)).toList = _
    have first_worded := worded binding List.mem_cons_self
    have keeps (char : Char) (no_word : isWordChar char = false) :
        (if [char] = binding.name.toList then binding.value.toList else [char]) = [char] :=
      if_neg (Text.singleton_ne_of_word_chars no_word first_worded)
    have value_kept : mapWords (standFor bindings) binding.value.toList = binding.value.toList :=
      mapWords_value_eq bindings fun run mem other mem' =>
        inert binding List.mem_cons_self run mem other (List.mem_cons_of_mem _ mem')
    rw [ih worded.tail inert.tail, Text.replace, String.toList_ofList,
      Text.replaceFrom_wholeWord first_worded, Text.mapWords_mapWords keeps]
    refine Text.mapWords_congr fun run mem => ?_
    rw [standFor_cons]
    split
    next => exact value_kept
    next => exact Text.mapWords_of_wordRuns _ (Text.wordRuns_of_mem mem)

/-- What stands for a run is kept when the bindings are applied again. -/
theorem mapWords_standFor (inert : bindings.Inert) {text : List Char} (mem : run ∈ wordRuns text) :
    mapWords bindings.standFor (bindings.standFor run) = bindings.standFor run := by
  rcases standFor_cases bindings run with ⟨first, mem', eq⟩ | none_bound
  · rw [eq, mapWords_value_eq bindings (inert first mem')]
  · rw [standFor_of_forall_ne none_bound, Text.mapWords_of_wordRuns _ (Text.wordRuns_of_mem mem),
      standFor_of_forall_ne none_bound]

/-- With distinct names, a name has the value of its only binding. -/
theorem value?_eq_some_iff (distinct : (bindings.map Binding.name).Nodup) :
    bindings.value? name = some value ↔ ⟨name, value⟩ ∈ bindings := by
  induction bindings with
  | nil => simp [value?]
  | cons binding bindings ih =>
    obtain ⟨absent, distinct⟩ := List.nodup_cons.1 distinct
    rw [value?_cons, List.mem_cons]
    split
    next same =>
      have absent' : ⟨name, value⟩ ∉ bindings := fun mem =>
        absent (same ▸ List.mem_map_of_mem mem)
      obtain ⟨name', value'⟩ := binding
      obtain rfl : name' = name := same
      simp [absent', eq_comm]
    next other =>
      have first_ne : (⟨name, value⟩ : Binding) ≠ binding := by
        rintro rfl
        exact other rfl
      rw [ih distinct]
      simp [first_ne]

/-- With distinct names, the order of the bindings does not matter. -/
theorem standFor_eq_of_perm (perm : bindings'.Perm bindings)
    (distinct : (bindings.map Binding.name).Nodup) : bindings'.standFor = bindings.standFor := by
  have distinct' : (bindings'.map Binding.name).Nodup := (perm.map _).nodup_iff.2 distinct
  have value_eq (name : String) : bindings'.value? name = bindings.value? name := by
    refine Option.ext fun value => ?_
    rw [value?_eq_some_iff distinct, value?_eq_some_iff distinct', perm.mem_iff]
  funext run
  rw [standFor, standFor, value_eq]

/-- **Names that stand alone are substituted simultaneously,** if no word of a
value is a name.  Each word of the text that is a name becomes the value of the
first binding with this name, and everything else is kept.  So bindings of
distinct names may be taken in any order, and applying bindings a second time
changes nothing. -/
theorem substitute_simultaneous (worded : bindings.Worded) (inert : bindings.Inert)
    (text : String) :
    bindings.substitute .wholeWord text =
        String.ofList (mapWords bindings.standFor text.toList) ∧
      (∀ bindings' : Bindings, bindings'.Perm bindings → (bindings.map Binding.name).Nodup →
        bindings'.substitute .wholeWord text = bindings.substitute .wholeWord text) ∧
      bindings.substitute .wholeWord (bindings.substitute .wholeWord text) =
        bindings.substitute .wholeWord text := by
  have mapped := toList_substitute worded inert
  refine ⟨?_, fun bindings' perm distinct => ?_, ?_⟩
  · rw [← mapped, String.ofList_toList]
  · have worded' : bindings'.Worded := fun b mem => worded b (perm.mem_iff.1 mem)
    have inert' : bindings'.Inert := fun b mem run mem' other mem'' =>
      inert b (perm.mem_iff.1 mem) run mem' other (perm.mem_iff.1 mem'')
    rw [← String.toList_inj, mapped, toList_substitute worded' inert',
      standFor_eq_of_perm perm distinct]
  · rw [← String.toList_inj, mapped, mapped, Text.mapWords_mapWords worded.standFor_singleton]
    exact Text.mapWords_congr fun run mem => mapWords_standFor inert mem

/-- With `b` for `b_*aa` and `a` for `+b2` the text `(b)-a` becomes `(b_*aa)-+b2`,
whichever of the two comes first, and stays so: the values hold the names within
longer words only. -/
theorem substitute_names_within_values :
    substitute [⟨"b", "b_*aa"⟩, ⟨"a", "+b2"⟩] .wholeWord "(b)-a" = "(b_*aa)-+b2" ∧
      substitute [⟨"a", "+b2"⟩, ⟨"b", "b_*aa"⟩] .wholeWord "(b)-a" = "(b_*aa)-+b2" ∧
      substitute [⟨"b", "b_*aa"⟩, ⟨"a", "+b2"⟩] .wholeWord "(b_*aa)-+b2" = "(b_*aa)-+b2" := by
  have worded : Worded [⟨"b", "b_*aa"⟩, ⟨"a", "+b2"⟩] := by decide
  obtain ⟨mapped, permuted, again⟩ := substitute_simultaneous worded (by decide) "(b)-a"
  have outcome : substitute [⟨"b", "b_*aa"⟩, ⟨"a", "+b2"⟩] .wholeWord "(b)-a" = "(b_*aa)-+b2" :=
    mapped.trans (by decide)
  rw [outcome] at permuted again
  exact ⟨outcome, permuted _ (List.Perm.swap ..) (by decide), again⟩

end Bindings
end Reckoner

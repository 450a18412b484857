/-
# Replacing a word between boundaries

Between two characters of a text is a boundary when not both are word
characters.  A name that is a word occurs in no text across a boundary, and its
neighbours beyond one do not keep it from being replaced.  So a text may be cut
at its boundaries, and the name replaced in each part by itself
(`replaceFrom_append`, by the induction of the search, `search_induction`).
What comes of a part then depends on the part alone:

| part | `wholeWord` | `anywhere` |
| --- | --- | --- |
| the name | the value | the value |
| another word | as it is | as it is, where the name is no part of it |
| no word character in it | as it is | as it is |
-/

import Reckoner.Text.Replacement
import Mathlib.Data.List.Basic

namespace Reckoner

/-- Of its neighbours a matching sees only whether they are word characters. -/
theorem Matching.admits_congr {matching : Matching} {before before' after after' : Option Char}
    (before_eq : before.any Text.isWordChar = before'.any Text.isWordChar)
    (after_eq : after.any Text.isWordChar = after'.any Text.isWordChar) :
    matching.admits before after = matching.admits before' after' := by
  cases matching with
  | anywhere => rfl
  | wholeWord => rw [admits, admits, before_eq, after_eq]

namespace Text

/-- A text of word characters, with one at least. -/
structure IsWord (text : List Char) : Prop where
  ne_nil : text ≠ []
  word_chars : ∀ char ∈ text, isWordChar char = true

/-- No word goes on from the one character to the other. -/
def Boundary (before after : Option Char) : Prop :=
  ∀ x ∈ before, ∀ y ∈ after, ¬ (isWordChar x = true ∧ isWordChar y = true)

variable {admits : Option Char → Option Char → Bool} {matching : Matching}
  {name value text part rest : List Char} {before after : Option Char} {char : Char}

/-! ### Words and boundaries -/

theorem IsWord.any_head? (word : IsWord text) (rest : List Char) :
    (text ++ rest).head?.any isWordChar = true := by
  rw [List.head?_append, List.head?_eq_some_head word.ne_nil]
  exact word.word_chars _ (List.head_mem word.ne_nil)

theorem IsWord.any_getLast? (word : IsWord text) : text.getLast?.any isWordChar = true := by
  rw [List.getLast?_eq_some_getLast word.ne_nil]
  exact word.word_chars _ (List.getLast_mem word.ne_nil)

theorem boundary_none_right (before : Option Char) : Boundary before none := by
  rintro x - y ⟨⟩

/-- What is no word character is bounded on its right. -/
theorem boundary_of_left (no_word : ∀ x ∈ before, isWordChar x = false) :
    Boundary before after :=
  fun x hx _ _ both => Bool.false_ne_true ((no_word x hx).symm.trans both.1)

/-- What is no word character is bounded on its left. -/
theorem boundary_of_right (no_word : ∀ y ∈ after, isWordChar y = false) :
    Boundary before after :=
  fun _ _ y hy both => Bool.false_ne_true ((no_word y hy).symm.trans both.2)

/-- Before a boundary and a word character is no word character. -/
theorem Boundary.any_left (boundary : Boundary before after)
    (word : after.any isWordChar = true) : before.any isWordChar = false := by
  obtain ⟨y, hy, word_y⟩ := (Option.any_eq_true _ _).1 word
  rw [Option.any_eq_false]
  exact fun x hx => Bool.eq_false_iff.2 fun word_x => boundary x hx y hy ⟨word_x, word_y⟩

/-- After a word character and a boundary is no word character. -/
theorem Boundary.any_right (boundary : Boundary before after)
    (word : before.any isWordChar = true) : after.any isWordChar = false := by
  obtain ⟨x, hx, word_x⟩ := (Option.any_eq_true _ _).1 word
  rw [Option.any_eq_false]
  exact fun y hy => Bool.eq_false_iff.2 fun word_y => boundary x hx y hy ⟨word_x, word_y⟩

/-- A boundary after a text is behind its last part that is not empty. -/
theorem boundary_append (empty : rest = [] → Boundary part.getLast? after)
    (boundary : Boundary rest.getLast? after) : Boundary (part ++ rest).getLast? after := by
  rcases List.eq_nil_or_concat rest with rfl | ⟨init, last, rfl⟩
  · rw [List.append_nil]
    exact empty rfl
  · rw [List.concat_eq_append, List.getLast?_concat] at boundary
    rwa [List.concat_eq_append, ← List.append_assoc, List.getLast?_concat]

/-! ### Single steps of a replacement -/

/-- An occurrence at the front is replaced if it is admitted, and passed. -/
theorem replaceFrom_occurrence (ne_nil : name ≠ []) :
    replaceFrom admits name value before (name ++ rest) =
      (if admits before rest.head? then value else name) ++
        replaceFrom admits name value name.getLast? rest := by
  obtain ⟨char, name', rfl⟩ := List.exists_cons_of_ne_nil ne_nil
  have found : (char :: name').isPrefixOf (char :: (name' ++ rest)) = true :=
    List.isPrefixOf_iff_prefix.2 (List.prefix_append (char :: name') rest)
  rw [List.cons_append, replaceFrom, if_pos ⟨found, ne_nil⟩]
  simp

/-- A character at which the name does not occur is kept. -/
theorem replaceFrom_cons (absent : ¬ (name <+: char :: rest ∧ name ≠ [])) :
    replaceFrom admits name value before (char :: rest) =
      char :: replaceFrom admits name value (some char) rest := by
  rw [replaceFrom, if_neg]
  rwa [List.isPrefixOf_iff_prefix]

/-- **The induction of the search for a name.**  The text is at its end, or the
name occurs at its front and is passed, or else its first character is. -/
theorem search_induction {motive : Option Char → List Char → Prop} (name : List Char)
    (nil : ∀ before, motive before [])
    (occurrence : ∀ before rest, name ≠ [] → motive name.getLast? rest →
      motive before (name ++ rest))
    (cons : ∀ before char rest, ¬ (name <+: char :: rest ∧ name ≠ []) →
      motive (some char) rest → motive before (char :: rest))
    (before : Option Char) (text : List Char) : motive before text := by
  induction size : text.length using Nat.strongRecOn generalizing before text with
  | _ length ih =>
    subst size
    cases text with
    | nil => exact nil before
    | cons char rest =>
      by_cases found : name <+: char :: rest ∧ name ≠ []
      · obtain ⟨⟨tail, split_eq⟩, ne_nil⟩ := found
        have shorter : tail.length < (char :: rest).length := by
          have := List.length_pos_iff.2 ne_nil
          rw [← split_eq, List.length_append]
          omega
        rw [← split_eq]
        exact occurrence before tail ne_nil (ih _ shorter _ tail rfl)
      · exact cons before char rest found (ih _ (Nat.lt_succ_self _) _ rest rfl)

/-- A text in which the name does not occur is kept. -/
theorem replaceFrom_of_not_infix (absent : ¬ name <:+: text) :
    replaceFrom admits name value before text = text := by
  induction text generalizing before with
  | nil => rw [replaceFrom]
  | cons char rest ih =>
    rw [replaceFrom_cons fun found => absent found.1.isInfix,
      ih fun found => absent (found.trans (List.suffix_cons char rest).isInfix)]

/-! ### Cutting a text at a boundary -/

/-- A word does not begin before a boundary and end after it. -/
theorem IsWord.prefix_append_iff (word : IsWord name) (ne_nil : part ≠ [])
    (boundary : Boundary part.getLast? rest.head?) : name <+: part ++ rest ↔ name <+: part := by
  refine ⟨fun found => ?_, fun found => found.trans (List.prefix_append part rest)⟩
  rcases List.prefix_or_prefix_of_prefix found (List.prefix_append part rest) with h | ⟨tail, h⟩
  · exact h
  · subst h
    rw [List.prefix_append_right_inj] at found
    cases tail with
    | nil => simp
    | cons next tail =>
      -- The name goes on over the boundary, with word characters on both of its sides.
      obtain ⟨rest', rfl⟩ := found
      have last_word : isWordChar (part.getLast ne_nil) = true :=
        word.word_chars _ (List.mem_append_left _ (List.getLast_mem ne_nil))
      have next_word : isWordChar next = true :=
        word.word_chars _ (List.mem_append_right _ List.mem_cons_self)
      exact absurd ⟨last_word, next_word⟩
        (boundary _ (List.getLast?_eq_some_getLast ne_nil) _ rfl)

/-- What stands before a boundary makes no difference after it. -/
theorem replaceFrom_of_boundary (word : IsWord name) (boundary : Boundary before text.head?) :
    replaceFrom matching.admits name value before text =
      replaceFrom matching.admits name value none text := by
  by_cases found : name <+: text
  · obtain ⟨rest, rfl⟩ := found
    have no_word := boundary.any_left (word.any_head? rest)
    have admits_eq : matching.admits before rest.head? = matching.admits none rest.head? :=
      Matching.admits_congr no_word rfl
    rw [replaceFrom_occurrence word.ne_nil, replaceFrom_occurrence word.ne_nil, admits_eq]
  · cases text with
    | nil => rw [replaceFrom, replaceFrom]
    | cons char rest =>
      rw [replaceFrom_cons (mt And.left found), replaceFrom_cons (mt And.left found)]

/-- A neighbour beyond a boundary does not keep a name from being replaced. -/
theorem admits_append (word : IsWord name)
    (boundary : Boundary (part.getLast?.or name.getLast?) rest.head?) :
    matching.admits before (part ++ rest).head? = matching.admits before part.head? := by
  cases part with
  | cons char part => rw [List.cons_append, List.head?_cons, List.head?_cons]
  | nil =>
    rw [List.getLast?_nil, Option.none_or] at boundary
    exact Matching.admits_congr rfl (boundary.any_right word.any_getLast?)

/-- **A name is replaced on either side of a boundary by itself.** -/
theorem replaceFrom_append (word : IsWord name)
    (boundary : Boundary (part.getLast?.or before) rest.head?) :
    replaceFrom matching.admits name value before (part ++ rest) =
      replaceFrom matching.admits name value before part ++
        replaceFrom matching.admits name value none rest := by
  induction before, part using search_induction name with
  | nil before =>
    rw [replaceFrom]
    exact replaceFrom_of_boundary word boundary
  | occurrence before part ne_nil ih =>
    rw [List.getLast?_append, List.getLast?_eq_some_getLast ne_nil, Option.or_assoc,
      Option.some_or, ← List.getLast?_eq_some_getLast ne_nil] at boundary
    rw [List.append_assoc, replaceFrom_occurrence ne_nil, replaceFrom_occurrence ne_nil,
      ih boundary, admits_append word boundary, List.append_assoc]
  | cons before char part absent ih =>
    have last_eq : (char :: part).getLast? = some (part.getLast?.getD char) := List.getLast?_cons
    rw [last_eq, Option.some_or] at boundary
    have absent' : ¬ (name <+: char :: (part ++ rest) ∧ name ≠ []) := by
      rwa [← List.cons_append,
        word.prefix_append_iff (List.cons_ne_nil char part) (last_eq ▸ boundary)]
    rw [List.cons_append, replaceFrom_cons absent', replaceFrom_cons absent, List.cons_append, ih]
    rwa [Option.or_some]

/-! ### Parts of a text -/

/-- A text without word characters is kept. -/
theorem replaceFrom_of_no_word (word : IsWord name) (no_word : ∀ c ∈ text, isWordChar c = false) :
    replaceFrom admits name value before text = text := by
  refine replaceFrom_of_not_infix fun found => ?_
  have head := List.head_mem word.ne_nil
  exact Bool.false_ne_true
    ((no_word _ (found.subset head)).symm.trans (word.word_chars _ head))

/-- A text that is the name is replaced. -/
theorem replaceFrom_self (ne_nil : name ≠ []) :
    replaceFrom matching.admits name value none name = value := by
  have admitted : matching.admits none none = true := by cases matching <;> rfl
  have step : replaceFrom matching.admits name value none (name ++ []) = _ :=
    replaceFrom_occurrence ne_nil
  rw [List.append_nil, List.head?_nil, if_pos admitted] at step
  rw [step, replaceFrom, List.append_nil]

/-- After a word character, other word characters are kept where the name has to
stand alone. -/
theorem replaceFrom_wholeWord_within (inside : before.any isWordChar = true)
    (word_chars : ∀ c ∈ text, isWordChar c = true) :
    replaceFrom Matching.wholeWord.admits name value before text = text := by
  induction before, text using search_induction name with
  | nil before => rw [replaceFrom]
  | occurrence before rest ne_nil ih =>
    have refused : ¬ Matching.wholeWord.admits before rest.head? = true := by
      simp [Matching.admits, inside]
    have word : IsWord name := ⟨ne_nil, fun c mem => word_chars c (List.mem_append_left _ mem)⟩
    rw [replaceFrom_occurrence ne_nil, if_neg refused,
      ih word.any_getLast? fun c mem => word_chars c (List.mem_append_right _ mem)]
  | cons before char rest absent ih =>
    rw [replaceFrom_cons absent, ih (word_chars char List.mem_cons_self) fun c mem =>
      word_chars c (List.mem_cons_of_mem _ mem)]

/-- **Where the name has to stand alone, another word is kept.** -/
theorem replaceFrom_wholeWord_of_ne (name_word : IsWord name) (word : IsWord text)
    (ne : text ≠ name) : replaceFrom Matching.wholeWord.admits name value none text = text := by
  by_cases found : name <+: text
  · obtain ⟨rest, rfl⟩ := found
    obtain ⟨next, rest, rfl⟩ : ∃ next rest', rest = next :: rest' :=
      List.exists_cons_of_ne_nil fun empty => ne (by rw [empty, List.append_nil])
    have next_word : isWordChar next = true :=
      word.word_chars _ (List.mem_append_right _ List.mem_cons_self)
    have refused : ¬ Matching.wholeWord.admits none (next :: rest).head? = true := by
      simp [Matching.admits, next_word]
    rw [replaceFrom_occurrence name_word.ne_nil, if_neg refused,
      replaceFrom_wholeWord_within name_word.any_getLast? fun c mem =>
        word.word_chars c (List.mem_append_right _ mem)]
  · obtain ⟨char, rest, rfl⟩ := List.exists_cons_of_ne_nil word.ne_nil
    have first_word : (some char).any isWordChar = true := word.word_chars char List.mem_cons_self
    rw [replaceFrom_cons (mt And.left found), replaceFrom_wholeWord_within first_word fun c mem =>
      word.word_chars c (List.mem_cons_of_mem _ mem)]

end Text
end Reckoner

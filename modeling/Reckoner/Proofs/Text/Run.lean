/-
# Text mapped run by run

A text falls into its runs, the words and the single characters between them
(`Text.wordRuns`).  Two neighbouring runs have a boundary between them, and a
text cut at a boundary has the runs of its parts, so what is mapped run by run
is mapped in each part by itself (`mapWords_append`).

Mapping twice is mapping once, if the first mapping keeps what stands between
words (`mapWords_mapWords`): what it puts for a word then stays between the same
characters, and joins with no other run.  Replacing a word where it stands alone
is such a mapping (`replaceFrom_wholeWord`).

What the runs are does not depend on how they are computed: a text falls into
words and characters between them in one way only (`FallsInto.eq_wordRuns`).
-/

import Reckoner.Proofs.Text.Boundary
import Mathlib.Data.List.SplitBy
import Mathlib.Data.List.TakeWhile

namespace Reckoner
namespace Text

variable {f g : List Char → List Char} {name value text rest run : List Char} {char : Char}

/-- What begins with a word character begins with a longest word. -/
theorem exists_word_append (word_char : isWordChar char = true) (rest : List Char) :
    ∃ run tail, char :: rest = run ++ tail ∧ IsWord run ∧
      ∀ c ∈ tail.head?, isWordChar c = false := by
  refine ⟨(char :: rest).takeWhile isWordChar, (char :: rest).dropWhile isWordChar,
    List.takeWhile_append_dropWhile.symm, ⟨?_, fun c mem => List.mem_takeWhile_imp mem⟩,
    fun c first => ?_⟩
  · rw [List.takeWhile_cons_of_pos word_char]
    exact List.cons_ne_nil char _
  · have stopped := List.head?_dropWhile_not isWordChar (char :: rest)
    rw [Option.mem_def.1 first] at stopped
    simpa using stopped

/-- **The induction over the runs of a text.**  The text is at its end, or what
is at its front is no word character, or else a longest word. -/
theorem run_induction {motive : List Char → Prop} (nil : motive [])
    (between : ∀ char rest, isWordChar char = false → motive rest → motive (char :: rest))
    (word : ∀ run rest, IsWord run → (∀ char ∈ rest.head?, isWordChar char = false) →
      motive rest → motive (run ++ rest))
    (text : List Char) : motive text := by
  induction size : text.length using Nat.strongRecOn generalizing text with
  | _ length ih =>
    subst size
    cases text with
    | nil => exact nil
    | cons char rest =>
      cases word_char : isWordChar char with
      | false => exact between char rest word_char (ih _ (Nat.lt_succ_self _) rest rfl)
      | true =>
        obtain ⟨run, tail, split_eq, is_word, no_word⟩ := exists_word_append word_char rest
        have shorter : tail.length < (char :: rest).length := by
          have := List.length_pos_iff.2 is_word.ne_nil
          rw [split_eq, List.length_append]
          omega
        rw [split_eq]
        exact word run tail is_word no_word (ih _ shorter tail rfl)

/-- A character between words is no text of word characters. -/
theorem singleton_ne_of_word_chars (no_word : isWordChar char = false)
    (word_chars : ∀ c ∈ name, isWordChar c = true) : [char] ≠ name := by
  rintro rfl
  exact Bool.false_ne_true (no_word.symm.trans (word_chars char List.mem_cons_self))

/-! ### Runs -/

/-- **A text cut at a boundary has the runs of its parts.** -/
theorem wordRuns_append (boundary : Boundary text.getLast? rest.head?) :
    wordRuns (text ++ rest) = wordRuns text ++ wordRuns rest :=
  List.splitBy_append fun x hx y hy =>
    Bool.eq_false_iff.2 fun both => boundary x hx y hy (Bool.and_eq_true_iff.1 both)

/-- A run of a text has no other runs in it. -/
theorem wordRuns_of_mem (mem : run ∈ wordRuns text) : wordRuns run = [run] :=
  List.splitBy_of_isChain (List.ne_nil_of_mem_splitBy mem) (List.isChain_of_mem_splitBy mem)

theorem wordRuns_singleton (char : Char) : wordRuns [char] = [[char]] := rfl

/-- A word is a single run. -/
theorem IsWord.wordRuns_eq (word : IsWord run) : wordRuns run = [run] := by
  refine List.splitBy_of_isChain word.ne_nil (List.Pairwise.isChain ?_)
  refine List.pairwise_iff_forall_sublist.2 fun {x y} pair => ?_
  exact Bool.and_eq_true_iff.2 ⟨word.word_chars x (pair.subset (by simp)),
    word.word_chars y (pair.subset (by simp))⟩

/-! ### Mapping -/

/-- **On either side of a boundary a text is mapped by itself.** -/
theorem mapWords_append (f : List Char → List Char) (boundary : Boundary text.getLast? rest.head?) :
    mapWords f (text ++ rest) = mapWords f text ++ mapWords f rest := by
  rw [mapWords, wordRuns_append boundary, List.flatMap_append]
  rfl

/-- A run is mapped as a whole. -/
theorem mapWords_of_wordRuns (f : List Char → List Char) (single : wordRuns run = [run]) :
    mapWords f run = f run := by
  rw [mapWords, single, List.flatMap_singleton]

/-- Between words the characters are mapped one by one. -/
theorem mapWords_cons (f : List Char → List Char) (rest : List Char)
    (no_word : isWordChar char = false) :
    mapWords f (char :: rest) = f [char] ++ mapWords f rest := by
  have boundary : Boundary ([char] : List Char).getLast? rest.head? :=
    boundary_of_left fun x hx => by cases hx; exact no_word
  rw [← List.singleton_append, mapWords_append f boundary,
    mapWords_of_wordRuns f (wordRuns_singleton char)]

/-- Up to the end of a word, the word is mapped. -/
theorem mapWords_word_append (f : List Char → List Char) (word : IsWord run)
    (no_word : ∀ c ∈ rest.head?, isWordChar c = false) :
    mapWords f (run ++ rest) = f run ++ mapWords f rest := by
  rw [mapWords_append f (boundary_of_right no_word), mapWords_of_wordRuns f word.wordRuns_eq]

/-- Only what the runs of a text are mapped to matters. -/
theorem mapWords_congr (agree : ∀ run ∈ wordRuns text, f run = g run) :
    mapWords f text = mapWords g text :=
  List.flatMap_congr agree

/-- A text whose runs are kept is kept. -/
theorem mapWords_of_forall_eq (kept : ∀ run ∈ wordRuns text, f run = run) :
    mapWords f text = text := by
  rw [mapWords_congr (g := id) kept, mapWords, List.flatMap_id, wordRuns, List.flatten_splitBy]

/-- What begins with no word character is mapped to the like, where that is kept. -/
theorem head?_mapWords (keeps : ∀ char, isWordChar char = false → f [char] = [char])
    (no_word : ∀ c ∈ text.head?, isWordChar c = false) :
    ∀ c ∈ (mapWords f text).head?, isWordChar c = false := by
  cases text with
  | nil => nofun
  | cons char rest =>
    have no_word := no_word char rfl
    rw [mapWords_cons f rest no_word, keeps char no_word]
    rintro c ⟨⟩
    exact no_word

/-- **Mapping twice is mapping once,** if the first mapping keeps what stands
between words. -/
theorem mapWords_mapWords (keeps : ∀ char, isWordChar char = false → f [char] = [char])
    (text : List Char) :
    mapWords g (mapWords f text) = mapWords (fun run => mapWords g (f run)) text := by
  induction text using run_induction with
  | nil => rfl
  | between char rest no_word ih =>
    rw [mapWords_cons f rest no_word, mapWords_cons _ rest no_word, keeps char no_word,
      List.singleton_append, mapWords_cons g _ no_word,
      mapWords_of_wordRuns g (wordRuns_singleton char), ih]
  | word run rest word no_word ih =>
    have boundary : Boundary (f run).getLast? (mapWords f rest).head? :=
      boundary_of_right (head?_mapWords keeps no_word)
    rw [mapWords_word_append f word no_word, mapWords_word_append _ word no_word,
      mapWords_append g boundary, ih]

/-! ### Replacing -/

/-- The empty name is replaced nowhere. -/
theorem replaceFrom_nil_name (admits : Option Char → Option Char → Bool) (value : List Char)
    (before : Option Char) (text : List Char) : replaceFrom admits [] value before text = text := by
  induction text generalizing before with
  | nil => rw [replaceFrom]
  | cons char rest ih => rw [replaceFrom_cons fun found => found.2 rfl, ih]

/-- **Where a name has to stand alone, the words that are the name are
replaced,** and everything else is kept. -/
theorem replaceFrom_wholeWord (word_chars : ∀ char ∈ name, isWordChar char = true)
    (value text : List Char) :
    replaceFrom Matching.wholeWord.admits name value none text =
      mapWords (fun run => if run = name then value else run) text := by
  by_cases empty : name = []
  · subst empty
    have kept : ∀ run ∈ wordRuns text, (if run = [] then value else run) = run := fun run mem =>
      if_neg (List.ne_nil_of_mem_splitBy mem)
    rw [replaceFrom_nil_name, mapWords_of_forall_eq kept]
  have name_word : IsWord name := ⟨empty, word_chars⟩
  induction text using run_induction with
  | nil =>
    rw [replaceFrom]
    rfl
  | between char rest no_word ih =>
    have no_word' : ∀ c ∈ [char], isWordChar c = false := by simpa using no_word
    have other : [char] ≠ name := singleton_ne_of_word_chars no_word word_chars
    have boundary : Boundary (([char] : List Char).getLast?.or none) rest.head? :=
      boundary_of_left fun x hx => no_word' x (List.mem_of_getLast? (by simpa using hx))
    rw [mapWords_cons _ rest no_word, if_neg other, ← ih, ← List.singleton_append,
      replaceFrom_append name_word boundary, replaceFrom_of_no_word name_word no_word']
  | word run rest word no_word ih =>
    rw [mapWords_word_append _ word no_word, ← ih,
      replaceFrom_append name_word (boundary_of_right no_word)]
    split
    next same => rw [same, replaceFrom_self empty]
    next other => rw [replaceFrom_wholeWord_of_ne name_word word other]

/-! ### Parts -/

/-- A text falls into parts, in order: words and single characters between them,
where no word is next to another one, so that every word is as long as it can
be. -/
structure FallsInto (text : List Char) (parts : List (List Char)) : Prop where
  flatten_eq : parts.flatten = text
  word_or_between : ∀ part ∈ parts, IsWord part ∨ ∃ char, part = [char] ∧ isWordChar char = false
  parted : parts.IsChain fun part next => ¬ (IsWord part ∧ IsWord next)

/-- A part may stand before others unless it joins with the next one. -/
theorem FallsInto.cons {part : List Char} {parts : List (List Char)} (falls : FallsInto rest parts)
    (word_or_between : IsWord part ∨ ∃ char, part = [char] ∧ isWordChar char = false)
    (parted : ∀ next ∈ parts.head?, ¬ (IsWord part ∧ IsWord next)) :
    FallsInto (part ++ rest) (part :: parts) where
  flatten_eq := by rw [List.flatten_cons, falls.flatten_eq]
  word_or_between := List.forall_mem_cons.2 ⟨word_or_between, falls.word_or_between⟩
  parted := List.isChain_cons.2 ⟨parted, falls.parted⟩

/-- The first part ends at a boundary. -/
theorem FallsInto.boundary {part : List Char} {parts : List (List Char)}
    (falls : FallsInto text (part :: parts)) :
    Boundary part.getLast? parts.flatten.head? := by
  rcases falls.word_or_between part List.mem_cons_self with word | ⟨char, rfl, no_word⟩
  · cases parts with
    | nil => exact boundary_none_right _
    | cons next parts =>
      have next_no_word : ¬ IsWord next := fun next_word =>
        (List.isChain_cons_cons.1 falls.parted).1 ⟨word, next_word⟩
      have mem : next ∈ part :: next :: parts := List.mem_cons_of_mem _ List.mem_cons_self
      obtain ⟨char, rfl, no_word⟩ := (falls.word_or_between next mem).resolve_left next_no_word
      refine boundary_of_right fun c first => ?_
      cases first
      exact no_word
  · refine boundary_of_left fun c last => ?_
    cases last
    exact no_word

/-- **A text falls into parts in one way only,** its runs. -/
theorem FallsInto.eq_wordRuns {parts : List (List Char)} (falls : FallsInto text parts) :
    parts = wordRuns text := by
  induction parts generalizing text with
  | nil =>
    rw [← falls.flatten_eq]
    rfl
  | cons part parts ih =>
    have rest_falls : FallsInto parts.flatten parts :=
      ⟨rfl, fun next mem => falls.word_or_between next (List.mem_cons_of_mem _ mem),
        falls.parted.tail⟩
    have single : wordRuns part = [part] := by
      rcases falls.word_or_between part List.mem_cons_self with word | ⟨char, rfl, -⟩
      · exact word.wordRuns_eq
      · exact wordRuns_singleton char
    rw [← falls.flatten_eq, List.flatten_cons, wordRuns_append falls.boundary, single,
      ← ih rest_falls, List.singleton_append]

/-- **Every text falls into parts.** -/
theorem exists_fallsInto (text : List Char) : ∃ parts, FallsInto text parts := by
  induction text using run_induction with
  | nil => exact ⟨[], rfl, by simp, List.isChain_nil⟩
  | between char rest no_word ih =>
    obtain ⟨parts, falls⟩ := ih
    have no_word_part : ¬ IsWord [char] := fun word =>
      Bool.false_ne_true (no_word.symm.trans (word.word_chars char List.mem_cons_self))
    exact ⟨[char] :: parts, falls.cons (.inr ⟨char, rfl, no_word⟩) fun _ _ both =>
      no_word_part both.1⟩
  | word run rest word no_word ih =>
    obtain ⟨parts, falls⟩ := ih
    refine ⟨run :: parts, falls.cons (.inl word) fun next mem both => ?_⟩
    -- The next part would begin what follows the run with a word character.
    obtain ⟨others, rfl⟩ := List.head?_eq_some_iff.1 mem
    have word_next := both.2.any_head? others.flatten
    rw [← List.flatten_cons, falls.flatten_eq, Option.any_eq_true] at word_next
    obtain ⟨c, first, word_char⟩ := word_next
    exact Bool.false_ne_true ((no_word c first).symm.trans word_char)

/-- **A word that has to stand alone is replaced part by part.**  A text falls into
longest words and the characters between them in one way; the parts that are the
name become the value, also if it holds the name again, and all others are kept
in order. -/
theorem replace_word_by_parts {name : String} (word : IsWord name.toList) (value text : String) :
    (∃! parts, FallsInto text.toList parts) ∧
      ∀ parts, FallsInto text.toList parts →
        Text.replace .wholeWord name value text = String.ofList
          (parts.flatMap fun part => if part = name.toList then value.toList else part) := by
  obtain ⟨parts, falls⟩ := exists_fallsInto text.toList
  refine ⟨⟨parts, falls, fun parts' falls' => ?_⟩, fun parts' falls' => ?_⟩
  · rw [falls.eq_wordRuns]
    exact falls'.eq_wordRuns
  · rw [falls'.eq_wordRuns, Text.replace, replaceFrom_wholeWord word.word_chars, mapWords]

/-- With `aa` for `(aa-1)` the text `aa+aaa` becomes `(aa-1)+aaa`: the longer word is
kept, and the value is not looked at again. -/
theorem replace_word_by_itself_in_parentheses :
    IsWord "aa".toList ∧ FallsInto "aa+aaa".toList [['a', 'a'], ['+'], ['a', 'a', 'a']] ∧
      Text.replace .wholeWord "aa" "(aa-1)" "aa+aaa" = "(aa-1)+aaa" := by
  have word : IsWord "aa".toList := ⟨by decide, List.all_eq_true.1 (by decide)⟩
  have falls : FallsInto "aa+aaa".toList [['a', 'a'], ['+'], ['a', 'a', 'a']] := by
    obtain ⟨parts, falls⟩ := exists_fallsInto "aa+aaa".toList
    have parts_eq : parts = [['a', 'a'], ['+'], ['a', 'a', 'a']] :=
      falls.eq_wordRuns.trans (by decide)
    rwa [parts_eq] at falls
  exact ⟨word, falls, (replace_word_by_parts word "(aa-1)" "aa+aaa").2 _ falls⟩

end Text
end Reckoner

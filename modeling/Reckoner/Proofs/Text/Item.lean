/-
# The items of a text

An item is a text that is not empty and holds no blank.  Every text lists exactly
one sequence of items: with blanks of any kind around them, and at least one
between two neighbours (`ListedIn`).  Cutting the text at its blanks finds that
sequence:

| part of the text | cut at the blanks |
| --- | --- |
| blanks, in front or behind | nothing |
| an item | itself |
| an item, a blank and more | the item, and what more there is |

So a listing is undone by `Text.items` (`ListedIn.items_eq`), and every text is the
listing of its own items (`listedIn_items`).  The plainest listing has one space
between neighbours (`listedIn_intercalate`).
-/

import Reckoner.Text.Blank
import Reckoner.Text.Layout

namespace Reckoner
namespace Text

/-- An item is not empty and holds no blank. -/
structure IsItem (item : String) : Prop where
  ne_nil : item.toList ≠ []
  solid : ∀ char ∈ item.toList, isBlank char = false

/-- The texts are laid out with blanks around them and at least one between two
neighbours. -/
abbrev Listing : List String → List Char → Prop :=
  Layout (isBlank · = true) String.toList fun _ _ => True

/-- The items are listed in the text, in this order. -/
structure ListedIn (items : List String) (text : String) : Prop where
  isItem : ∀ item ∈ items, IsItem item
  listing : Listing items text.toList

variable {char : Char} {chars gap rest : List Char} {item text : String} {items : List String}

/-! ### Cutting at blanks -/

/-- A blank separates the items before it from those behind it. -/
theorem itemsOf_append_blank (blank : isBlank char = true) (before after : List Char) :
    itemsOf (before ++ char :: after) = itemsOf before ++ itemsOf after := by
  rw [itemsOf, List.splitOnP_append_cons _ _ blank, List.filter_append]
  rfl

/-- Blanks in front do not matter. -/
theorem itemsOf_gap_append (blanks : ∀ char ∈ gap, isBlank char = true) (rest : List Char) :
    itemsOf (gap ++ rest) = itemsOf rest := by
  induction gap with
  | nil => rfl
  | cons char gap ih =>
    rw [List.forall_mem_cons] at blanks
    exact (itemsOf_append_blank blanks.1 [] (gap ++ rest)).trans (ih blanks.2)

/-- An item is not cut. -/
theorem IsItem.itemsOf_eq (isItem : IsItem item) : itemsOf item.toList = [item.toList] := by
  rw [itemsOf, List.splitOnP_eq_singleton isItem.solid]
  simp [isItem.ne_nil]

/-- Cutting a layout at its blanks gives the characters of its items. -/
theorem itemsOf_of_laidOut (isItem : ∀ item ∈ items, IsItem item)
    (laidOut : LaidOut (isBlank · = true) String.toList (fun _ _ => True) items chars) :
    itemsOf chars = items.map String.toList := by
  induction laidOut with
  | nil => rfl
  | @cons item items gap rest blanks parted laidOut ih =>
    rw [List.forall_mem_cons] at isItem
    rw [List.map_cons, ← ih isItem.2]
    cases gap with
    | cons char gap =>
      rw [List.forall_mem_cons] at blanks
      rw [List.append_assoc, List.cons_append, itemsOf_append_blank blanks.1,
        isItem.1.itemsOf_eq, itemsOf_gap_append blanks.2]
      rfl
    | nil =>
      -- Without a blank behind it the item is the last one.
      cases laidOut with
      | nil =>
        rw [List.append_nil, List.append_nil, isItem.1.itemsOf_eq]
        rfl
      | cons => exact absurd rfl (parted _ rfl trivial)

/-- **The items of a text are those that it lists.** -/
theorem ListedIn.items_eq (listed : ListedIn items text) : Text.items text = items := by
  obtain ⟨gap, rest, blanks, laidOut, split⟩ := listed.listing
  rw [Text.items, split, itemsOf_gap_append blanks, itemsOf_of_laidOut listed.isItem laidOut,
    List.map_map]
  simp [Function.comp_def]

/-! ### Every text lists its items -/

/-- A character that is no blank is an item by itself. -/
theorem isItem_singleton (solid : isBlank char = false) : IsItem (String.singleton char) where
  ne_nil := by simp
  solid := by simpa using solid

/-- A character that is no blank makes an item longer. -/
theorem IsItem.cons (solid : isBlank char = false) (isItem : IsItem item) :
    IsItem (String.ofList (char :: item.toList)) where
  ne_nil := by simp
  solid := by simpa using ⟨solid, isItem.solid⟩

/-- **Every sequence of characters lists items.**  The induction adds one
character in front: a blank widens the gap there; another character makes the first
item longer if no gap is before it, and is a new item otherwise. -/
theorem exists_listing (chars : List Char) :
    ∃ items, (∀ item ∈ items, IsItem item) ∧ Listing items chars := by
  induction chars with
  | nil => exact ⟨[], by simp, [], [], by simp, .nil, rfl⟩
  | cons char chars ih =>
    obtain ⟨items, isItem, gap, rest, blanks, laidOut, rfl⟩ := ih
    by_cases blank : isBlank char = true
    · exact ⟨items, isItem, char :: gap, rest, List.forall_mem_cons.2 ⟨blank, blanks⟩, laidOut, rfl⟩
    have solid : isBlank char = false := Bool.eq_false_iff.2 blank
    have alone (parted : ∀ neighbour ∈ items.head?, True → gap ≠ []) :
        ∃ items, (∀ item ∈ items, IsItem item) ∧ Listing items (char :: (gap ++ rest)) := by
      refine ⟨String.singleton char :: items, ?_, [], _, by simp, .cons blanks parted laidOut, ?_⟩
      · exact List.forall_mem_cons.2 ⟨isItem_singleton solid, isItem⟩
      · simp
    cases gap with
    | cons space gap => exact alone fun _ _ _ => List.cons_ne_nil space gap
    | nil =>
      cases laidOut with
      | nil => exact alone nofun
      | @cons item items gap rest blanks' parted laidOut =>
        rw [List.forall_mem_cons] at isItem
        refine ⟨String.ofList (char :: item.toList) :: items, ?_, [], _, by simp,
          .cons blanks' parted laidOut, ?_⟩
        · exact List.forall_mem_cons.2 ⟨isItem.1.cons solid, isItem.2⟩
        · simp

/-- **Every text lists its items.** -/
theorem listedIn_items (text : String) : ListedIn (Text.items text) text := by
  obtain ⟨items, isItem, listing⟩ := exists_listing text.toList
  have listed : ListedIn items text := ⟨isItem, listing⟩
  rwa [listed.items_eq]

/-- Items with one space between neighbours are listed. -/
theorem listedIn_intercalate (isItem : ∀ item ∈ items, IsItem item) :
    ListedIn items (" ".intercalate items) := by
  refine ⟨isItem, [], _, by simp, ?_, (List.nil_append _).symm⟩
  clear isItem
  induction items with
  | nil => exact .nil
  | cons item items ih =>
    cases items with
    | nil =>
      have last : LaidOut (isBlank · = true) String.toList (fun _ _ => True) [item]
          (item.toList ++ [] ++ []) := .cons (by simp) (by simp) .nil
      simpa using last
    | cons next items =>
      have space : " ".toList = [' '] := by simp
      have blank : isBlank ' ' = true := by decide
      rw [String.intercalate_cons_cons, String.toList_append, String.toList_append, space]
      exact .cons (List.forall_mem_singleton.2 blank) (fun _ _ _ => List.cons_ne_nil ' ' []) ih

end Text
end Reckoner

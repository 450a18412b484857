/-
# Taking a layout apart

Where two items of a layout stand side by side, or a blank is between them, is
a boundary, provided that no blank is a word character and that items which a
word could join are kept apart.  So a word is replaced in a layout item by
item: the result is a layout of what comes of the items, with the same blanks
(`Layout.replaceFrom`).
-/

import Reckoner.Proofs.Text.Boundary
import Reckoner.Text.Layout

namespace Reckoner
namespace Text

variable {α : Type} {blank : Char → Prop} {spell spell' : α → List Char} {apart : α → α → Prop}
  {items : List α} {item : α} {gap rest text name value : List Char} {matching : Matching}

/-- What holds of the blanks and of the characters of the items holds of a layout. -/
theorem LaidOut.forall_mem {p : Char → Prop} (laidOut : LaidOut blank spell apart items text)
    (blanks : ∀ char, blank char → p char) (spelled : ∀ item ∈ items, ∀ char ∈ spell item, p char) :
    ∀ char ∈ text, p char := by
  induction laidOut with
  | nil => simp
  | cons gap_blank _ _ ih =>
    simp only [List.mem_append]
    rintro char ((mem | mem) | mem)
    · exact spelled _ List.mem_cons_self char mem
    · exact blanks char (gap_blank char mem)
    · exact ih (fun item mem => spelled item (List.mem_cons_of_mem _ mem)) char mem

/-- A layout begins with its first item. -/
theorem LaidOut.head?_eq (laidOut : LaidOut blank spell apart items text)
    (ne_nil : ∀ item, spell item ≠ []) :
    text.head? = items.head?.bind fun item => (spell item).head? := by
  cases laidOut with
  | nil => rfl
  | @cons item _ _ _ _ _ _ =>
    have head := List.head?_eq_some_head (ne_nil item)
    rw [List.append_assoc, List.head?_append, head, Option.some_or, List.head?_cons,
      Option.bind_some, head]

section Boundaries

variable (blanks : ∀ char, blank char → isWordChar char = false)
  (ne_nil : ∀ item, spell item ≠ [])
  (joinable : ∀ a b, ¬ apart a b → Boundary (spell a).getLast? (spell b).head?)

include blanks in
/-- What follows a gap is behind a boundary. -/
theorem boundary_of_gap (gap_blank : ∀ char ∈ gap, blank char) (after : Option Char) :
    Boundary gap.getLast? after :=
  boundary_of_left fun x hx => blanks x (gap_blank x (List.mem_of_getLast? hx))

include blanks ne_nil joinable in
/-- **What follows an item of a layout is behind a boundary.** -/
theorem LaidOut.boundary (laidOut : LaidOut blank spell apart items rest)
    (gap_blank : ∀ char ∈ gap, blank char)
    (parted : ∀ neighbour ∈ items.head?, apart item neighbour → gap ≠ []) :
    Boundary (spell item).getLast? (gap ++ rest).head? := by
  cases gap with
  | cons char gap =>
    refine boundary_of_right fun y hy => ?_
    cases hy
    exact blanks char (gap_blank char List.mem_cons_self)
  | nil =>
    rw [List.nil_append, laidOut.head?_eq ne_nil]
    cases neighbours : items.head? with
    | none => exact boundary_none_right _
    | some neighbour =>
      exact joinable item neighbour fun both => parted neighbour neighbours both rfl

include blanks ne_nil joinable

/-- **Every item of a layout stands between boundaries.** -/
theorem LaidOut.exists_between (laidOut : LaidOut blank spell apart items text)
    (mem : item ∈ items) :
    ∃ before after, text = before ++ spell item ++ after ∧
      Boundary before.getLast? (spell item).head? ∧
        Boundary (spell item).getLast? after.head? := by
  induction laidOut with
  | nil => cases mem
  | @cons first items gap rest gap_blank parted laidOut ih =>
    have after_first := laidOut.boundary blanks ne_nil joinable gap_blank parted
    rcases List.mem_cons.1 mem with rfl | mem
    · exact ⟨[], gap ++ rest, List.append_assoc .., (fun x hx => nomatch hx), after_first⟩
    · obtain ⟨before, after, rfl, left, right⟩ := ih mem
      refine ⟨spell first ++ gap ++ before, after, by simp only [List.append_assoc], ?_, right⟩
      -- The gap and what is before it may both be empty; then the item is next to the first.
      refine boundary_append (fun _ => ?_) left
      have after_gap := boundary_of_gap blanks gap_blank (spell item).head?
      refine boundary_append (fun _ => ?_) after_gap
      subst_vars
      rwa [List.nil_append, List.nil_append, List.head?_append,
        List.head?_eq_some_head (ne_nil item), Option.some_or,
        ← List.head?_eq_some_head (ne_nil item)] at after_first

/-- So does every item of a layout with blanks in front. -/
theorem Layout.exists_between (layout : Layout blank spell apart items text) (mem : item ∈ items) :
    ∃ before after, text = before ++ spell item ++ after ∧
      Boundary before.getLast? (spell item).head? ∧
        Boundary (spell item).getLast? after.head? := by
  obtain ⟨gap, rest, gap_blank, laidOut, rfl⟩ := layout
  obtain ⟨before, after, rfl, left, right⟩ :=
    laidOut.exists_between blanks ne_nil joinable mem
  refine ⟨gap ++ before, after, by simp only [List.append_assoc], ?_, right⟩
  exact boundary_append (fun _ => boundary_of_gap blanks gap_blank _) left

/-- A word is replaced in each item by itself, from the first item on. -/
theorem LaidOut.replaceFrom (word : IsWord name) (laidOut : LaidOut blank spell apart items text)
    (replaced : ∀ item ∈ items,
      Text.replaceFrom matching.admits name value none (spell item) = spell' item) :
    LaidOut blank spell' apart items (Text.replaceFrom matching.admits name value none text) := by
  induction laidOut with
  | nil =>
    rw [Text.replaceFrom]
    exact .nil
  | @cons item items gap rest gap_blank parted laidOut ih =>
    have after_item := laidOut.boundary blanks ne_nil joinable gap_blank parted
    have after_gap := boundary_of_gap blanks gap_blank rest.head?
    have kept : Text.replaceFrom matching.admits name value none gap = gap :=
      replaceFrom_of_no_word word fun char mem => blanks char (gap_blank char mem)
    rw [List.append_assoc, replaceFrom_append word (by rwa [Option.or_none]),
      replaceFrom_append word (by rwa [Option.or_none]), kept,
      replaced item List.mem_cons_self, ← List.append_assoc]
    exact .cons gap_blank parted (ih fun item mem => replaced item (List.mem_cons_of_mem _ mem))

/-- **In a layout a word is replaced item by item.** -/
theorem Layout.replaceFrom (word : IsWord name) (layout : Layout blank spell apart items text)
    (replaced : ∀ item ∈ items,
      Text.replaceFrom matching.admits name value none (spell item) = spell' item) :
    Layout blank spell' apart items (Text.replaceFrom matching.admits name value none text) := by
  obtain ⟨gap, rest, gap_blank, laidOut, rfl⟩ := layout
  have after_gap := boundary_of_gap blanks gap_blank rest.head?
  have kept : Text.replaceFrom matching.admits name value none gap = gap :=
    replaceFrom_of_no_word word fun char mem => blanks char (gap_blank char mem)
  rw [replaceFrom_append word (by rwa [Option.or_none]), kept]
  exact ⟨gap, _, gap_blank, laidOut.replaceFrom blanks ne_nil joinable word replaced, rfl⟩

end Boundaries

end Text
end Reckoner

/-
# Items in pairs

The bindings of an assignment list are its items, taken in pairs from the left:

| items | are |
| --- | --- |
| item `2i` | the name of binding `i` |
| item `2i + 1` | the value of binding `i` |
| an odd number of them | an error with their number |

Nothing is lost by it: the items are the names and values of the bindings in order
(`ofItems?_eq_some_iff`), so these can be written down again as an assignment list
(`Bindings.listing`), which has the same bindings.
-/

import Reckoner.Bindings
import Reckoner.Proofs.Text.Item
import Mathlib.Logic.ExistsUnique

namespace Reckoner
namespace Bindings

/-- The names and values in order. -/
def toItems (bindings : Bindings) : List String :=
  bindings.flatMap fun binding => [binding.name, binding.value]

/-- The names and values in order, with a space between neighbours. -/
def listing (bindings : Bindings) : String := " ".intercalate bindings.toItems

/-- The bindings take the items in pairs, all of them and in their order. -/
structure Pairs (items : List String) (bindings : Bindings) : Prop where
  length_eq : 2 * bindings.length = items.length
  pair : ∀ (i : Nat) (binding : Binding), bindings[i]? = some binding →
    items[2 * i]? = some binding.name ∧ items[2 * i + 1]? = some binding.value

variable {bindings : Bindings} {items : List String} {assignments : String}

/-- **Items are taken in pairs exactly when they are the names and values of the
bindings.** -/
theorem ofItems?_eq_some_iff : ofItems? items = some bindings ↔ items = bindings.toItems := by
  induction items using ofItems?.induct generalizing bindings with
  | case1 => cases bindings <;> simp [ofItems?, Bindings.toItems]
  | case2 item =>
    rcases bindings with - | ⟨binding, bindings⟩ <;> simp [ofItems?, Bindings.toItems]
  | case3 name value rest ih =>
    rw [ofItems?, Option.map_eq_some_iff]
    constructor
    · rintro ⟨bindings, taken, rfl⟩
      rw [ih.1 taken]
      rfl
    · intro split
      cases bindings with
      | nil => cases split
      | cons binding bindings =>
        obtain ⟨name_eq, split⟩ := List.cons.inj split
        obtain ⟨value_eq, split⟩ := List.cons.inj split
        exact ⟨bindings, ih.2 split, by rw [name_eq, value_eq]⟩

/-- Items can be taken in pairs exactly when they are even in number. -/
theorem ofItems?_isSome_iff : ∀ items : List String,
    (ofItems? items).isSome = true ↔ items.length % 2 = 0
  | [] => by simp [ofItems?]
  | [_] => by simp [ofItems?]
  | name :: value :: rest => by
    rw [ofItems?, Option.isSome_map, ofItems?_isSome_iff rest]
    simp only [List.length_cons]
    omega

/-- The bindings take their own names and values in pairs. -/
theorem pairs_toItems (bindings : Bindings) : Pairs bindings.toItems bindings := by
  induction bindings with
  | nil => exact ⟨rfl, nofun⟩
  | cons first bindings ih =>
    have toItems_eq : toItems (first :: bindings) = first.name :: first.value :: toItems bindings := rfl
    refine ⟨?_, fun i binding at_i => ?_⟩
    · rw [toItems_eq, List.length_cons, List.length_cons, List.length_cons, ← ih.length_eq]
      omega
    · rw [toItems_eq]
      cases i with
      | zero =>
        cases at_i
        exact ⟨rfl, rfl⟩
      | succ i => exact ih.pair i binding at_i

/-- An assignment list has these bindings exactly when its items are their names and
values. -/
theorem ofText_eq_ok_iff :
    ofText assignments = .ok bindings ↔ Text.items assignments = bindings.toItems := by
  rw [← ofItems?_eq_some_iff, ofText]
  cases ofItems? (Text.items assignments) <;> simp

/-- An odd number of items is an error, whatever they are. -/
theorem ofText_of_odd (odd : (Text.items assignments).length % 2 = 1) :
    ofText assignments = .error (.unpairedAssignments (Text.items assignments).length) := by
  have none_taken : ofItems? (Text.items assignments) = none := by
    rw [← Option.not_isSome_iff_eq_none, ofItems?_isSome_iff]
    omega
  rw [ofText, none_taken]

/-- An even number of items makes bindings. -/
theorem exists_ofText_of_even (even : (Text.items assignments).length % 2 = 0) :
    ∃ bindings, ofText assignments = .ok bindings := by
  obtain ⟨bindings, taken⟩ := Option.isSome_iff_exists.1 ((ofItems?_isSome_iff _).2 even)
  exact ⟨bindings, by rw [ofText, taken]⟩

/-- The names and values in an assignment list are items of it. -/
theorem isItem_of_ofText (assigned : ofText assignments = .ok bindings) :
    ∀ item ∈ bindings.toItems, Text.IsItem item := by
  rw [← ofText_eq_ok_iff.1 assigned]
  exact (Text.listedIn_items assignments).isItem

/-- Bindings of an assignment list are those of their own listing. -/
theorem ofText_listing (assigned : ofText assignments = .ok bindings) :
    ofText bindings.listing = .ok bindings :=
  ofText_eq_ok_iff.2 (Text.listedIn_intercalate (isItem_of_ofText assigned)).items_eq

/-- **Reading an assignment list undoes listing the items,** however the blanks
between them are chosen.  A text lists exactly one sequence of items.  If they are
even in number, the bindings are their pairs; if they are odd in number, the error
says how many they are.  The names and values of bindings that have been read make
an assignment list with the same bindings. -/
theorem ofText_undoes_listing (text : String) :
    (∃! items, Text.ListedIn items text) ∧
      (∀ items, Text.ListedIn items text →
        (items.length % 2 = 0 → ∃ bindings, ofText text = .ok bindings ∧ Pairs items bindings) ∧
        (items.length % 2 = 1 → ofText text = .error (.unpairedAssignments items.length))) ∧
      ∀ bindings, ofText text = .ok bindings → ofText bindings.listing = .ok bindings := by
  refine ⟨?_, fun items listed => ?_, fun bindings => ofText_listing⟩
  · exact ⟨Text.items text, Text.listedIn_items text, fun items listed => listed.items_eq.symm⟩
  · obtain rfl := listed.items_eq
    refine ⟨fun even => ?_, ofText_of_odd⟩
    obtain ⟨bindings, assigned⟩ := exists_ofText_of_even even
    refine ⟨bindings, assigned, ?_⟩
    rw [ofText_eq_ok_iff.1 assigned]
    exact pairs_toItems bindings

/-- Two bindings of one name, between blanks of seven kinds, and a name without a value. -/
theorem pairs_between_blanks :
    (∃ bindings, ofText "\u3000a\u00a01 \t\na\u2028-2\u0085" = .ok bindings ∧
      Pairs ["a", "1", "a", "-2"] bindings ∧ ofText bindings.listing = .ok bindings) ∧
      ofText "a 1 b" = .error (.unpairedAssignments 3) := by
  have even : Text.ListedIn ["a", "1", "a", "-2"] "\u3000a\u00a01 \t\na\u2028-2\u0085" := by
    have items_eq : Text.items "\u3000a\u00a01 \t\na\u2028-2\u0085" = ["a", "1", "a", "-2"] := by
      decide +kernel
    exact items_eq ▸ Text.listedIn_items _
  have odd : Text.ListedIn ["a", "1", "b"] "a 1 b" := by
    have items_eq : Text.items "a 1 b" = ["a", "1", "b"] := by decide +kernel
    exact items_eq ▸ Text.listedIn_items _
  obtain ⟨-, read, again⟩ := ofText_undoes_listing "\u3000a\u00a01 \t\na\u2028-2\u0085"
  obtain ⟨bindings, assigned, pairs⟩ := (read _ even).1 rfl
  exact ⟨⟨bindings, assigned, pairs, again bindings assigned⟩,
    ((ofText_undoes_listing "a 1 b").2.1 _ odd).2 rfl⟩

end Bindings
end Reckoner

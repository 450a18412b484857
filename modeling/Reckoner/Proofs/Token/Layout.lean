/-
# The tokens of a layout

Two digits that belong to one lexeme have no boundary between them, so the
lexemes of a text are those of its parts between boundaries
(`ofLexemes_append`):

| part | tokens |
| --- | --- |
| spaces | none |
| a mark | the token of the mark |
| one or more digits | one number token |

A layout of marks and digits with spaces therefore has one token for each item
(`ofText_of_layout`).
-/

import Reckoner.Proofs.Text.Layout
import Reckoner.Token.Lexeme
import Mathlib.Data.List.SplitBy

namespace Reckoner
namespace Token

open Text (isWordChar Boundary)

/-- A text of ASCII digits, with one at least. -/
structure IsDigits (text : List Char) : Prop where
  ne_nil : text ≠ []
  digits : ∀ char ∈ text, char.isDigit = true

instance (text : List Char) : Decidable (IsDigits text) :=
  decidable_of_iff (text ≠ [] ∧ text.all Char.isDigit = true)
    ⟨fun h => ⟨h.1, List.all_eq_true.1 h.2⟩, fun h => ⟨h.ne_nil, List.all_eq_true.2 h.digits⟩⟩

variable {α : Type} {spell : α → List Char} {apart : α → α → Prop} {token : α → Token}
  {items : List α} {chars chars' : List Char} {char : Char} {text : String}

/-! ### Characters -/

/-- A digit is a word character. -/
theorem isWordChar_of_isDigit (digit : char.isDigit = true) : isWordChar char = true := by
  simp [isWordChar, Char.isAlphanum, digit]

theorem IsDigits.isWord (digits : IsDigits chars) : Text.IsWord chars where
  ne_nil := digits.ne_nil
  word_chars := fun char mem => isWordChar_of_isDigit (digits.digits char mem)

/-- A mark is no word character. -/
theorem isWordChar_of_ofMark? {kind : Kind} (mark : Kind.ofMark? char = some kind) :
    isWordChar char = false := by
  unfold Kind.ofMark? at mark
  split at mark <;> first | rfl | cases mark

/-- A space is no word character. -/
theorem isWordChar_of_space : ∀ char, char = ' ' → isWordChar char = false := by
  rintro char rfl
  decide

/-- Characters with a boundary between them are not joined in a lexeme. -/
theorem joined_eq_false {x y : Char} (apart : ¬ (isWordChar x = true ∧ isWordChar y = true)) :
    joined x y = false := by
  rw [← Bool.not_eq_true, joined, Bool.and_eq_true]
  rintro ⟨digit, digit'⟩
  exact apart ⟨isWordChar_of_isDigit digit, isWordChar_of_isDigit digit'⟩

/-! ### Lexemes -/

/-- **The tokens on either side of a boundary are those of the sides.** -/
theorem ofLexemes_append (boundary : Boundary chars.getLast? chars'.head?) :
    ofLexemes (chars ++ chars') = ofLexemes chars ++ ofLexemes chars' := by
  have split_eq : (chars ++ chars').splitBy joined =
      chars.splitBy joined ++ chars'.splitBy joined :=
    List.splitBy_append fun x hx y hy => joined_eq_false (boundary x hx y hy)
  rw [ofLexemes, split_eq, List.filterMap_append]
  rfl

/-- Spaces have no tokens. -/
theorem ofLexemes_spaces (spaces : ∀ char ∈ chars, char = ' ') : ofLexemes chars = [] := by
  induction chars with
  | nil => rfl
  | cons char chars ih =>
    obtain rfl := spaces char List.mem_cons_self
    have boundary : Boundary ([' '] : List Char).getLast? chars.head? :=
      Text.boundary_of_left fun x hx => by cases hx; decide
    rw [← List.singleton_append, ofLexemes_append boundary,
      ih fun char mem => spaces char (List.mem_cons_of_mem _ mem)]
    rfl

/-- A mark has its token. -/
theorem ofLexemes_mark {kind : Kind} (mark : Kind.ofMark? char = some kind) :
    ofLexemes [char] = [{ kind, text := String.singleton char }] := by
  have no_digit : char.isDigit = false := by
    rw [← Bool.not_eq_true]
    intro digit
    exact Bool.false_ne_true
      ((isWordChar_of_ofMark? mark).symm.trans (isWordChar_of_isDigit digit))
  simp [ofLexemes, List.splitBy, List.splitBy.loop, ofLexeme?, no_digit, mark]

/-- Digits have one number token. -/
theorem ofLexemes_digits (digits : IsDigits chars) :
    ofLexemes chars = [{ kind := .number, text := String.ofList chars }] := by
  have chain : chars.IsChain fun x y => joined x y = true := by
    refine List.Pairwise.isChain (List.pairwise_iff_forall_sublist.2 fun {x y} pair => ?_)
    rw [joined, digits.digits x (pair.subset (by simp)), digits.digits y (pair.subset (by simp))]
    rfl
  obtain ⟨char, rest, rfl⟩ := List.exists_cons_of_ne_nil digits.ne_nil
  have first_digit := digits.digits char List.mem_cons_self
  rw [ofLexemes, List.splitBy_of_isChain digits.ne_nil chain]
  simp [ofLexeme?, first_digit]

/-! ### Layouts -/

section Layouts

variable (ne_nil : ∀ item, spell item ≠ [])
  (joinable : ∀ a b, ¬ apart a b → Boundary (spell a).getLast? (spell b).head?)

include ne_nil joinable

/-- Items of one token each are laid out with one token each. -/
theorem ofLexemes_of_laidOut (laidOut : Text.LaidOut (· = ' ') spell apart items chars)
    (lexeme : ∀ item ∈ items, ofLexemes (spell item) = [token item]) :
    ofLexemes chars = items.map token := by
  induction laidOut with
  | nil => rfl
  | @cons item items gap rest spaces parted laidOut ih =>
    have after_item := laidOut.boundary isWordChar_of_space ne_nil joinable spaces parted
    have after_gap := Text.boundary_of_gap isWordChar_of_space spaces rest.head?
    rw [List.append_assoc, ofLexemes_append after_item, ofLexemes_append after_gap,
      ofLexemes_spaces spaces, lexeme item List.mem_cons_self,
      ih fun item mem => lexeme item (List.mem_cons_of_mem _ mem)]
    rfl

/-- **A layout with spaces has one token for each item,** where each item by
itself has one. -/
theorem ofText_of_layout (layout : Text.Layout (· = ' ') spell apart items text.toList)
    (lexical : ∀ item ∈ items, ∀ char ∈ spell item, isLexical char = true)
    (lexeme : ∀ item ∈ items, ofLexemes (spell item) = [token item]) :
    ofText text = .ok (items.map token ++ [eof]) := by
  obtain ⟨gap, rest, spaces, laidOut, text_eq⟩ := layout
  have after_gap := Text.boundary_of_gap isWordChar_of_space spaces rest.head?
  have all_lexical : ∀ char ∈ text.toList, isLexical char = true := by
    intro char mem
    rw [text_eq] at mem
    rcases List.mem_append.1 mem with mem | mem
    · rw [spaces char mem]
      rfl
    · exact laidOut.forall_mem (fun char space => space ▸ rfl) lexical char mem
  have none_refused : text.toList.find? (!isLexical ·) = none :=
    List.find?_eq_none.2 fun char mem => by simp [all_lexical char mem]
  have tokens_eq : ofLexemes text.toList = items.map token := by
    rw [text_eq, ofLexemes_append after_gap, ofLexemes_spaces spaces, List.nil_append,
      ofLexemes_of_laidOut ne_nil joinable laidOut lexeme]
  simp only [ofText, none_refused, tokens_eq]

end Layouts

end Token
end Reckoner

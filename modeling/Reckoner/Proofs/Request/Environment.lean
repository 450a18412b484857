/-
# Names as an environment

Bindings are put into the text of an expression, one after another, before it
is cut into tokens.  For an expression of marks, numbers and identifiers, and
bindings of identifiers to digits, that comes to the same as an environment in
which the tokens are looked up: the request is answered with the evaluation of
one token for each item.

| item | its text once some bindings are applied |
| --- | --- |
| a mark, a number | as written |
| a name bound by one of them | the value of the first that binds it |
| another name | as written |

The invariant of the substitution is that the text is a layout of the items
with these texts.  One more binding changes the text of the items that are its
name (`Item.text_concat`), and where they are no words that it could occur in
otherwise, nothing else (`Item.replaceFrom_text`).
-/

import Reckoner.Proofs.Token.Layout
import Reckoner.Request

namespace Reckoner

open Text (isWordChar IsWord Boundary)
open Token (IsDigits)

/-- A letter or the low line, and word characters after it. -/
def IsIdentifier : List Char → Prop
  | [] => False
  | first :: rest => (first.isAlpha = true ∨ first = '_') ∧ ∀ char ∈ rest, isWordChar char = true

instance : DecidablePred IsIdentifier
  | [] => inferInstanceAs (Decidable False)
  | first :: rest =>
    decidable_of_iff ((first.isAlpha = true ∨ first = '_') ∧ rest.all isWordChar = true)
      (and_congr_right fun _ => List.all_eq_true)

namespace Bindings

/-- The value of a name: that of the first binding with this name. -/
def value? (bindings : Bindings) (name : String) : Option String :=
  (bindings.find? (·.name == name)).map (·.value)

/-- The bindings give digits to identifiers. -/
def Numeric (bindings : Bindings) : Prop :=
  ∀ binding ∈ bindings, IsIdentifier binding.name.toList ∧ IsDigits binding.value.toList

/-- No name is part of another name. -/
def Separate (bindings : Bindings) : Prop :=
  ∀ binding ∈ bindings, ∀ other ∈ bindings,
    binding.name.toList <:+: other.name.toList → binding.name = other.name

instance (bindings : Bindings) : Decidable bindings.Numeric :=
  inferInstanceAs (Decidable (∀ binding ∈ bindings, _ ∧ _))

instance (bindings : Bindings) : Decidable bindings.Separate :=
  inferInstanceAs (Decidable (∀ binding ∈ bindings, ∀ other ∈ bindings, _ → _))

end Bindings

/-- An item of an expression with names. -/
inductive Item
  /-- An operator or a parenthesis. -/
  | mark (char : Char) (kind : Token.Kind) (isMark : Token.Kind.ofMark? char = some kind)
  /-- A number as it is written. -/
  | number (digits : String) (isDigits : IsDigits digits.toList)
  /-- A name that stands for a number. -/
  | identifier (name : String) (isIdentifier : IsIdentifier name.toList)

namespace Item

/-- The text of an item once the bindings are applied. -/
def text (bindings : Bindings) : Item → String
  | mark char _ _ => String.singleton char
  | number digits _ => digits
  | identifier name _ => (bindings.value? name).getD name

/-- The characters of that text. -/
def spell (bindings : Bindings) (item : Item) : List Char := (item.text bindings).toList

/-- The kind of token that an item makes. -/
def kind : Item → Token.Kind
  | mark _ kind _ => kind
  | number _ _ => .number
  | identifier _ _ => .number

/-- The token of an item in the environment that the bindings make. -/
def token (bindings : Bindings) (item : Item) : Token :=
  { kind := item.kind, text := item.text bindings }

/-- The item is a number or a name. -/
def Wordy : Item → Prop
  | mark _ _ _ => False
  | number _ _ => True
  | identifier _ _ => True

/-- The item has a binding if it is a name. -/
def Bound (bindings : Bindings) : Item → Prop
  | mark _ _ _ => True
  | number _ _ => True
  | identifier name _ => ∃ binding ∈ bindings, binding.name = name

/-- Items that have to be kept apart: both are numbers or names. -/
def Apart (item neighbour : Item) : Prop := item.Wordy ∧ neighbour.Wordy

end Item

variable {matching : Matching} {name text : List Char} {bindings done : Bindings}
  {binding : Binding} {item : Item} {items : List Item}

/-! ### Identifiers and digits -/

/-- No letter is a digit. -/
theorem isDigit_of_isAlpha {c : Char} (letter : c.isAlpha = true) : c.isDigit = false := by
  have above : 'A'.toNat ≤ c.toNat := by
    rcases Bool.or_eq_true_iff.1 letter with upper | lower
    · exact UInt32.le_iff_toNat_le.1 (of_decide_eq_true upper).1
    · have from_a := of_decide_eq_true (Bool.and_eq_true_iff.1 lower).1
      exact Nat.le_trans (by decide) (UInt32.le_iff_toNat_le.1 from_a)
  rw [← Bool.not_eq_true, Char.isDigit_iff_toNat]
  rintro ⟨-, below⟩
  exact absurd (Nat.le_trans above below) (by decide)

/-- An identifier begins with a word character that is no digit. -/
theorem IsIdentifier.head (identifier : IsIdentifier name) :
    ∃ first rest, name = first :: rest ∧ isWordChar first = true ∧ first.isDigit = false ∧
      ∀ char ∈ rest, isWordChar char = true := by
  cases name with
  | nil => exact identifier.elim
  | cons first rest =>
    obtain ⟨letter, word_chars⟩ := identifier
    refine ⟨first, rest, rfl, ?_, ?_, word_chars⟩
    · rcases letter with letter | rfl
      · simp [isWordChar, Char.isAlphanum, letter]
      · decide
    · rcases letter with letter | rfl
      · exact isDigit_of_isAlpha letter
      · decide

theorem IsIdentifier.isWord (identifier : IsIdentifier name) : IsWord name := by
  obtain ⟨first, rest, rfl, first_word, -, word_chars⟩ := identifier.head
  exact ⟨List.cons_ne_nil first rest, List.forall_mem_cons.2 ⟨first_word, word_chars⟩⟩

/-- No identifier is part of digits. -/
theorem IsIdentifier.not_infix_of_isDigits (identifier : IsIdentifier name)
    (digits : IsDigits text) : ¬ name <:+: text := by
  obtain ⟨first, rest, rfl, -, no_digit, -⟩ := identifier.head
  intro found
  have digit := digits.digits first (found.subset List.mem_cons_self)
  exact Bool.false_ne_true (no_digit.symm.trans digit)

/-- No identifier is part of a mark. -/
theorem IsIdentifier.not_infix_of_mark {char : Char} {kind : Token.Kind}
    (identifier : IsIdentifier name) (mark : Token.Kind.ofMark? char = some kind) :
    ¬ name <:+: [char] := by
  obtain ⟨first, rest, rfl, first_word, -, -⟩ := identifier.head
  intro found
  obtain rfl := List.mem_singleton.1 (found.subset List.mem_cons_self)
  exact Bool.false_ne_true ((Token.isWordChar_of_ofMark? mark).symm.trans first_word)

/-! ### Environments -/

namespace Bindings

/-- A value is that of a binding. -/
theorem exists_of_value? {name value : String} (found : bindings.value? name = some value) :
    ∃ binding ∈ bindings, binding.value = value := by
  obtain ⟨binding, first, rfl⟩ := Option.map_eq_some_iff.1 found
  exact ⟨binding, List.mem_of_find?_eq_some first, rfl⟩

/-- The last binding gives a value to its name if the name has none yet. -/
theorem value?_concat (name : String) :
    (bindings ++ [binding]).value? name =
      (bindings.value? name).or (if binding.name = name then some binding.value else none) := by
  rw [value?, value?, List.find?_append, Option.map_or]
  by_cases same : binding.name = name
  · simp [same]
  · simp [same]

/-- A name that is bound has a value. -/
theorem value?_isSome {name : String} (bound : ∃ binding ∈ bindings, binding.name = name) :
    ∃ value, bindings.value? name = some value := by
  obtain ⟨binding, mem, rfl⟩ := bound
  have some_found : (bindings.find? (·.name == binding.name)).isSome = true :=
    List.find?_isSome.2 ⟨binding, mem, beq_self_eq_true _⟩
  obtain ⟨other, found⟩ := Option.isSome_iff_exists.1 some_found
  exact ⟨other.value, by rw [value?, found, Option.map_some]⟩

theorem Numeric.isDigits (numeric : bindings.Numeric) {name value : String}
    (found : bindings.value? name = some value) : IsDigits value.toList := by
  obtain ⟨binding, mem, rfl⟩ := exists_of_value? found
  exact (numeric binding mem).2

end Bindings

/-! ### Items -/

namespace Item

/-- **An item is an unbound name, or its text is settled:** no name occurs in
it, and further bindings do not change it. -/
theorem unbound_or_settled (numeric : done.Numeric) (item : Item) :
    (∃ name isIdentifier, item = identifier name isIdentifier ∧ done.value? name = none) ∨
      ∀ binding : Binding, IsIdentifier binding.name.toList →
        ¬ binding.name.toList <:+: item.spell done ∧
          item.spell (done ++ [binding]) = item.spell done := by
  cases item with
  | mark char kind isMark =>
    refine .inr fun binding identifier => ⟨?_, rfl⟩
    rw [spell, text, String.toList_singleton]
    exact identifier.not_infix_of_mark isMark
  | number digits isDigits =>
    exact .inr fun binding identifier => ⟨identifier.not_infix_of_isDigits isDigits, rfl⟩
  | identifier name isIdentifier =>
    cases found : done.value? name with
    | none => exact .inl ⟨name, isIdentifier, rfl, found⟩
    | some value =>
      refine .inr fun binding identifier => ?_
      have text_eq : (Item.identifier name isIdentifier).spell done = value.toList := by
        rw [spell, text, found, Option.getD_some]
      have text_eq' : (Item.identifier name isIdentifier).spell (done ++ [binding]) =
          value.toList := by
        rw [spell, text, Bindings.value?_concat, found, Option.some_or, Option.getD_some]
      rw [text_eq', text_eq]
      exact ⟨identifier.not_infix_of_isDigits (numeric.isDigits found), rfl⟩

/-- **One more binding replaces its name in the items,** wherever no other name
holds this name or names stand alone. -/
theorem replaceFrom_spell (numeric : done.Numeric)
    (identifier : IsIdentifier binding.name.toList)
    (separate : matching = .anywhere → ∀ other isIdentifier,
      item = .identifier other isIdentifier → binding.name.toList <:+: other.toList →
        binding.name = other) :
    Text.replaceFrom matching.admits binding.name.toList binding.value.toList none
      (item.spell done) = item.spell (done ++ [binding]) := by
  rcases unbound_or_settled numeric item with ⟨name, isIdentifier, rfl, unbound⟩ | settled
  · have text_eq : (Item.identifier name isIdentifier).spell done = name.toList := by
      rw [spell, text, unbound, Option.getD_none]
    have text_eq' : (Item.identifier name isIdentifier).spell (done ++ [binding]) =
        if binding.name = name then binding.value.toList else name.toList := by
      rw [spell, text, Bindings.value?_concat, unbound, Option.none_or]
      split <;> rfl
    rw [text_eq, text_eq']
    split
    next same => rw [same, Text.replaceFrom_self isIdentifier.isWord.ne_nil]
    next other =>
      cases matching with
      | anywhere =>
        exact Text.replaceFrom_of_not_infix fun found =>
          other (separate rfl name isIdentifier rfl found)
      | wholeWord =>
        exact Text.replaceFrom_wholeWord_of_ne identifier.isWord isIdentifier.isWord
          fun same => other (String.toList_inj.1 same).symm
  · obtain ⟨absent, unchanged⟩ := settled binding identifier
    rw [Text.replaceFrom_of_not_infix absent, unchanged]

/-- The text of an item that is no mark is a word. -/
theorem Wordy.isWord (numeric : bindings.Numeric) (wordy : item.Wordy) :
    IsWord (item.spell bindings) := by
  cases item with
  | mark => exact wordy.elim
  | number digits isDigits => exact isDigits.isWord
  | identifier name isIdentifier =>
    rw [spell, text]
    cases found : bindings.value? name with
    | none => exact isIdentifier.isWord
    | some value => exact (numeric.isDigits found).isWord

theorem spell_ne_nil (numeric : bindings.Numeric) (item : Item) : item.spell bindings ≠ [] := by
  by_cases wordy : item.Wordy
  · exact (wordy.isWord numeric).ne_nil
  · cases item with
    | mark char => simp [spell, text]
    | number | identifier => exact absurd trivial wordy

/-- Items that need not be kept apart have a boundary between them. -/
theorem boundary_of_not_apart (item neighbour : Item) (joinable : ¬ Apart item neighbour) :
    Boundary (item.spell bindings).getLast? (neighbour.spell bindings).head? := by
  have bounded : ∀ char kind isMark, ∀ x ∈ ((mark char kind isMark).spell bindings),
      isWordChar x = false := by
    intro char kind isMark x mem
    rw [spell, text, String.toList_singleton] at mem
    rw [List.mem_singleton.1 mem]
    exact Token.isWordChar_of_ofMark? isMark
  cases item with
  | mark char kind isMark =>
    exact Text.boundary_of_left fun x hx => bounded char kind isMark x (List.mem_of_getLast? hx)
  | number | identifier =>
    cases neighbour with
    | mark char kind isMark =>
      exact Text.boundary_of_right fun x hx => bounded char kind isMark x (List.mem_of_head? hx)
    | number | identifier => exact absurd ⟨trivial, trivial⟩ joinable

/-- **A bound item by itself makes its token,** of lexical characters. -/
theorem lexeme_of_bound (numeric : bindings.Numeric) (bound : item.Bound bindings) :
    (∀ char ∈ item.spell bindings, Token.isLexical char = true) ∧
      Token.ofLexemes (item.spell bindings) = [item.token bindings] := by
  have of_digits : ∀ digits : String, IsDigits digits.toList →
      (∀ char ∈ digits.toList, Token.isLexical char = true) ∧
        Token.ofLexemes digits.toList = [{ kind := .number, text := digits }] := by
    intro digits isDigits
    refine ⟨fun char mem => ?_, ?_⟩
    · simp [Token.isLexical, isDigits.digits char mem]
    · rw [Token.ofLexemes_digits isDigits, String.ofList_toList]
  cases item with
  | mark char kind isMark =>
    rw [spell, text, String.toList_singleton, Token.ofLexemes_mark isMark]
    refine ⟨fun c mem => ?_, rfl⟩
    rw [List.mem_singleton.1 mem]
    simp [Token.isLexical, isMark]
  | number digits isDigits => exact of_digits digits isDigits
  | identifier name isIdentifier =>
    obtain ⟨value, found⟩ := Bindings.value?_isSome bound
    have text_eq : (Item.identifier name isIdentifier).text bindings = value := by
      rw [text, found, Option.getD_some]
    rw [spell, token, text_eq]
    exact of_digits value (numeric.isDigits found)

end Item

/-! ### Requests -/

/-- The items are laid out in the text, with the bindings applied. -/
def LaidOutWith (bindings : Bindings) (items : List Item) (text : String) : Prop :=
  Text.Layout (· = ' ') (Item.spell bindings) Item.Apart items text.toList

/-- **The substitution keeps the layout:** it puts values for names. -/
theorem laidOutWith_substitute {todo : Bindings} {text : String}
    (numeric : (done ++ todo).Numeric)
    (separate : matching = .anywhere → (done ++ todo).Separate)
    (bound : ∀ item ∈ items, item.Bound (done ++ todo)) (laidOut : LaidOutWith done items text) :
    LaidOutWith (done ++ todo) items (todo.substitute matching text) := by
  induction todo generalizing done text with
  | nil => rwa [List.append_nil]
  | cons binding todo ih =>
    have numeric_done : done.Numeric := fun b mem => numeric b (List.mem_append_left _ mem)
    have binding_mem : binding ∈ done ++ binding :: todo :=
      List.mem_append_right _ List.mem_cons_self
    have identifier := (numeric binding binding_mem).1
    have step : LaidOutWith (done ++ [binding]) items
        (Text.replace matching binding.name binding.value text) := by
      rw [LaidOutWith, Text.replace, String.toList_ofList]
      refine laidOut.replaceFrom Token.isWordChar_of_space (Item.spell_ne_nil numeric_done)
        Item.boundary_of_not_apart identifier.isWord fun item mem => ?_
      refine Item.replaceFrom_spell numeric_done identifier ?_
      rintro anywhere other isIdentifier rfl part
      obtain ⟨binding', mem', rfl⟩ := bound _ mem
      exact separate anywhere binding binding_mem binding' mem' part
    rw [List.append_cons] at numeric separate bound ⊢
    exact ih numeric separate bound step

namespace Request

/-- **Names are looked up.**  An expression of marks, numbers and bound names,
laid out with spaces, is answered with the evaluation of one token for each
item, a number token with the value for a name.  Where names have to stand alone
this always holds, and otherwise if no name is part of another one; names that
hold digits do no harm, and of several bindings of a name the first one counts. -/
theorem answer_eq_evaluate {expression assignments : String}
    (laidOut : LaidOutWith [] items expression)
    (assigned : Bindings.ofText assignments = .ok bindings) (numeric : bindings.Numeric)
    (bound : ∀ item ∈ items, item.Bound bindings) :
    answer .wholeWord { expression, assignments } =
        evaluate (items.map (Item.token bindings) ++ [Token.eof]) ∧
      (bindings.Separate → answer .anywhere { expression, assignments } =
        evaluate (items.map (Item.token bindings) ++ [Token.eof])) := by
  have answered : ∀ matching, (matching = .anywhere → bindings.Separate) →
      answer matching { expression, assignments } =
        evaluate (items.map (Item.token bindings) ++ [Token.eof]) := by
    intro matching separate
    have substituted : LaidOutWith ([] ++ bindings) items
        (bindings.substitute matching expression) :=
      laidOutWith_substitute numeric separate bound laidOut
    have tokens_eq := Token.ofText_of_layout (Item.spell_ne_nil numeric)
      Item.boundary_of_not_apart substituted
      (fun item mem => (Item.lexeme_of_bound numeric (bound item mem)).1)
      (fun item mem => (Item.lexeme_of_bound numeric (bound item mem)).2)
    rw [answer, assigned]
    show Token.ofText (bindings.substitute matching expression) >>= evaluate = _
    rw [tokens_eq]
    rfl
  exact ⟨answered .wholeWord (by rintro ⟨⟩), fun separate => answered .anywhere fun _ => separate⟩

/-- With `y 7 x2 6` the expression `x2 *y` is six times seven. -/
theorem answer_product_of_names :
    answer .wholeWord { expression := "x2 *y", assignments := "y 7 x2 6" } = .ok 42 ∧
      answer .anywhere { expression := "x2 *y", assignments := "y 7 x2 6" } = .ok 42 := by
  have x2 : IsIdentifier "x2".toList := by decide
  have y : IsIdentifier "y".toList := by decide
  have last : Text.LaidOut (· = ' ') (Item.spell []) Item.Apart [.identifier "y" y]
      ("y".toList ++ [] ++ []) := .cons (by simp) (by simp) .nil
  have rest : Text.LaidOut (· = ' ') (Item.spell []) Item.Apart
      [.mark '*' .multiply rfl, .identifier "y" y] (['*'] ++ [] ++ ("y".toList ++ [] ++ [])) :=
    .cons (by simp) (by simp [Item.Apart, Item.Wordy]) last
  have laidOut : LaidOutWith [] [.identifier "x2" x2, .mark '*' .multiply rfl, .identifier "y" y]
      "x2 *y" :=
    ⟨[], "x2".toList ++ [' '] ++ (['*'] ++ [] ++ ("y".toList ++ [] ++ [])), by simp,
      .cons (by simp) (by simp) rest, by decide⟩
  have assigned : Bindings.ofText "y 7 x2 6" = .ok [⟨"y", "7"⟩, ⟨"x2", "6"⟩] := by
    decide +kernel
  obtain ⟨wholeWord, anywhere⟩ := answer_eq_evaluate laidOut assigned (by decide)
    (by simp [Item.Bound])
  have outcome :
      evaluate [⟨.number, "6"⟩, ⟨.multiply, "*"⟩, ⟨.number, "7"⟩, Token.eof] = .ok 42 := by
    decide +kernel
  exact ⟨wholeWord.trans outcome, (anywhere (by decide)).trans outcome⟩

end Request

end Reckoner

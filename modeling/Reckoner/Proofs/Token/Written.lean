/-
# Cutting text into tokens undoes writing them out

Every token but the end has one way to be written, its own characters.  A text
of the characters that may stand in an expression is the layout of exactly one
sequence of tokens, with spaces between them and at least one between two
numbers, and cutting the text into tokens finds that sequence:

| text | tokens |
| --- | --- |
| a layout of tokens with spaces | those tokens, and the end |
| with a character outside of `alphabet` | the first such character is refused |

The lexemes of a text flatten to it, and no two neighbours are joined, so the
layout is found by induction on the lexemes (`exists_layout_of_lexemes`); that a
layout has its own tokens is `ofText_of_layout`.
-/

import Reckoner.Proofs.Token.Layout

namespace Reckoner
namespace Token

open Text (Boundary Layout LaidOut)

/-- The characters that may stand in an expression. -/
def alphabet : List Char := " ()+-*/0123456789".toList

/-- A token other than the end, as it is written in an expression. -/
inductive IsWritten : Token → Prop
  | leftParen : IsWritten ⟨.leftParen, "("⟩
  | rightParen : IsWritten ⟨.rightParen, ")"⟩
  | plus : IsWritten ⟨.plus, "+"⟩
  | minus : IsWritten ⟨.minus, "-"⟩
  | multiply : IsWritten ⟨.multiply, "*"⟩
  | divide : IsWritten ⟨.divide, "/"⟩
  | number {digits : String} (isDigits : IsDigits digits.toList) : IsWritten ⟨.number, digits⟩

/-- A token that can be written. -/
structure Written where
  token : Token
  isWritten : token.IsWritten

namespace Written

/-- How the token is written. -/
def chars (written : Written) : List Char := written.token.text.toList

/-- Tokens that have to be kept apart: two numbers. -/
def Apart (written neighbour : Written) : Prop :=
  written.token.kind = .number ∧ neighbour.token.kind = .number

end Written

/-- The tokens are written in the text in this order, with spaces around them. -/
def WrittenIn (body : List Written) (text : List Char) : Prop :=
  Layout (· = ' ') Written.chars Written.Apart body text

variable {char : Char} {chars text : List Char} {lexemes : List (List Char)} {token : Token}
  {tokens : List Token}

/-! ### Characters -/

/-- There are ten digits. -/
theorem isDigit_iff_mem : char.isDigit = true ↔ char ∈ "0123456789".toList := by
  constructor
  · intro digit
    obtain ⟨above, below⟩ := Char.isDigit_iff_toNat.1 digit
    have code : char.toNat ∈ [48, 49, 50, 51, 52, 53, 54, 55, 56, 57] := by
      simp only [List.mem_cons, List.not_mem_nil, or_false]
      simp only [Char.reduceToNat] at above below
      omega
    have codes : ∀ n ∈ [48, 49, 50, 51, 52, 53, 54, 55, 56, 57],
        Char.ofNat n ∈ "0123456789".toList := by decide
    rw [← Char.ofNat_toNat char]
    exact codes char.toNat code
  · exact List.all_eq_true.1 (by decide : "0123456789".toList.all Char.isDigit = true) char

/-- There are six marks. -/
theorem ofMark?_isSome_iff_mem :
    (Kind.ofMark? char).isSome = true ↔ char ∈ "()+-*/".toList := by
  constructor
  · unfold Kind.ofMark?
    split <;> first | exact fun _ => by decide | nofun
  · have marks : "()+-*/".toList.all fun x => (Kind.ofMark? x).isSome := by decide
    exact List.all_eq_true.1 marks char

/-- **The lexical characters are those of the alphabet.** -/
theorem isLexical_iff_mem : isLexical char = true ↔ char ∈ alphabet := by
  have alphabet_eq : alphabet = [' '] ++ "()+-*/".toList ++ "0123456789".toList := by decide
  rw [alphabet_eq, List.mem_append, List.mem_append, List.mem_singleton, ← isDigit_iff_mem,
    ← ofMark?_isSome_iff_mem, isLexical, Bool.or_eq_true, Bool.or_eq_true, beq_iff_eq]
  exact or_right_comm

/-! ### Written tokens -/

/-- A token that can be written is a mark or a number. -/
theorem isWritten_iff : token.IsWritten ↔
    (∃ char kind, Kind.ofMark? char = some kind ∧ token = ⟨kind, String.singleton char⟩) ∨
      (IsDigits token.text.toList ∧ token.kind = .number) := by
  constructor
  · rintro (_ | _ | _ | _ | _ | _ | isDigits)
    · exact .inl ⟨'(', .leftParen, rfl, rfl⟩
    · exact .inl ⟨')', .rightParen, rfl, rfl⟩
    · exact .inl ⟨'+', .plus, rfl, rfl⟩
    · exact .inl ⟨'-', .minus, rfl, rfl⟩
    · exact .inl ⟨'*', .multiply, rfl, rfl⟩
    · exact .inl ⟨'/', .divide, rfl, rfl⟩
    · exact .inr ⟨isDigits, rfl⟩
  · rintro (⟨char, kind, mark, rfl⟩ | ⟨isDigits, number⟩)
    · unfold Kind.ofMark? at mark
      split at mark <;> cases mark
      exacts [.leftParen, .rightParen, .plus, .minus, .multiply, .divide]
    · obtain ⟨kind, text⟩ := token
      obtain rfl : kind = .number := number
      exact .number isDigits

/-- The end is not written. -/
theorem IsWritten.ne_eof (isWritten : token.IsWritten) : token.kind ≠ .eof := by
  cases isWritten <;> exact nofun

/-- No mark is a number. -/
theorem ne_number_of_ofMark? {kind : Kind} (mark : Kind.ofMark? char = some kind) :
    kind ≠ .number := by
  rintro rfl
  unfold Kind.ofMark? at mark
  split at mark <;> cases mark

namespace Written

/-- The text of a number is made of digits. -/
theorem isDigits (written : Written) (number : written.token.kind = .number) :
    IsDigits written.chars := by
  rcases isWritten_iff.1 written.isWritten with ⟨char, kind, mark, eq⟩ | ⟨isDigits, -⟩
  · rw [eq] at number
    exact absurd number (ne_number_of_ofMark? mark)
  · exact isDigits

theorem chars_ne_nil (written : Written) : written.chars ≠ [] := by
  rcases isWritten_iff.1 written.isWritten with ⟨char, kind, mark, eq⟩ | ⟨isDigits, -⟩
  · simp [chars, eq]
  · exact isDigits.ne_nil

/-- A token that is no number is written with no word character. -/
theorem no_word (written : Written) (noNumber : written.token.kind ≠ .number) :
    ∀ x ∈ written.chars, Text.isWordChar x = false := by
  rcases isWritten_iff.1 written.isWritten with ⟨char, kind, mark, eq⟩ | ⟨-, number⟩
  · simpa [chars, eq] using isWordChar_of_ofMark? mark
  · exact absurd number noNumber

/-- Tokens that need not be kept apart have a boundary between them. -/
theorem boundary_of_not_apart (written neighbour : Written) (joinable : ¬ Apart written neighbour) :
    Boundary written.chars.getLast? neighbour.chars.head? := by
  by_cases number : written.token.kind = .number
  · have noNumber : neighbour.token.kind ≠ .number := fun number' => joinable ⟨number, number'⟩
    exact Text.boundary_of_right fun x hx => neighbour.no_word noNumber x (List.mem_of_head? hx)
  · exact Text.boundary_of_left fun x hx => written.no_word number x (List.mem_of_getLast? hx)

/-- A token is written with lexical characters. -/
theorem isLexical_of_mem (written : Written) : ∀ x ∈ written.chars, isLexical x = true := by
  rcases isWritten_iff.1 written.isWritten with ⟨char, kind, mark, eq⟩ | ⟨isDigits, -⟩
  · simp [chars, eq, isLexical, mark]
  · intro x mem
    simp [isLexical, isDigits.digits x mem]

/-- **A token is cut from its own text.** -/
theorem ofLexemes_chars (written : Written) : ofLexemes written.chars = [written.token] := by
  rcases isWritten_iff.1 written.isWritten with ⟨char, kind, mark, eq⟩ | ⟨isDigits, number⟩
  · rw [chars, eq, String.toList_singleton, ofLexemes_mark mark]
  · rw [chars, ofLexemes_digits isDigits, String.ofList_toList, ← number]

end Written

/-! ### Runs of digits -/

/-- Digits that are a longest run of digits in a text. -/
structure IsDigitRun (digits text : List Char) : Prop where
  isDigits : IsDigits digits
  longest : ∃ before after, text = before ++ digits ++ after ∧
    (∀ x ∈ before.getLast?, x.isDigit = false) ∧ ∀ x ∈ after.head?, x.isDigit = false

/-- What is no word character is no digit. -/
theorem isDigit_of_any {neighbour : Option Char} (no_word : neighbour.any Text.isWordChar = false) :
    ∀ x ∈ neighbour, x.isDigit = false := by
  intro x hx
  refine Bool.eq_false_iff.2 fun digit => Bool.false_ne_true ?_
  exact ((Option.any_eq_false _ _).1 no_word x hx).symm.trans (isWordChar_of_isDigit digit)

/-- **A number is written as a longest run of digits.** -/
theorem WrittenIn.isDigitRun {body : List Written} {written : Written}
    (writtenIn : WrittenIn body text) (mem : written ∈ body)
    (number : written.token.kind = .number) : IsDigitRun written.chars text := by
  have isDigits := written.isDigits number
  obtain ⟨before, after, rfl, left, right⟩ := Text.Layout.exists_between isWordChar_of_space
    Written.chars_ne_nil Written.boundary_of_not_apart writtenIn mem
  have head_word : written.chars.head?.any Text.isWordChar = true := by
    simpa using isDigits.isWord.any_head? []
  exact ⟨isDigits, before, after, rfl, isDigit_of_any (left.any_left head_word),
    isDigit_of_any (right.any_right isDigits.isWord.any_getLast?)⟩

/-! ### Lexemes -/

/-- In a lexeme that begins with a digit all characters are digits, and every
other lexeme is a single character. -/
theorem isDigits_or_singleton (ne_nil : chars ≠ [])
    (chain : chars.IsChain fun x y => joined x y = true) :
    IsDigits chars ∨ ∃ char, chars = [char] ∧ char.isDigit = false := by
  induction chars with
  | nil => exact absurd rfl ne_nil
  | cons char rest ih =>
    cases rest with
    | nil =>
      cases digit : char.isDigit with
      | true => exact .inl ⟨ne_nil, by simpa using digit⟩
      | false => exact .inr ⟨char, rfl, digit⟩
    | cons next rest =>
      obtain ⟨both, chain⟩ := List.isChain_cons_cons.1 chain
      obtain ⟨digit, digit'⟩ := Bool.and_eq_true_iff.1 both
      rcases ih (List.cons_ne_nil next rest) chain with isDigits | ⟨other, eq, noDigit⟩
      · exact .inl ⟨ne_nil, List.forall_mem_cons.2 ⟨digit, isDigits.digits⟩⟩
      · cases eq
        exact absurd (noDigit.symm.trans digit') Bool.false_ne_true

/-- **A lexeme is a space or the text of a token.** -/
theorem space_or_written (ne_nil : chars ≠ [])
    (chain : chars.IsChain fun x y => joined x y = true)
    (lexical : ∀ x ∈ chars, isLexical x = true) :
    chars = [' '] ∨ ∃ written : Written,
      ofLexeme? chars = some written.token ∧ written.chars = chars := by
  rcases isDigits_or_singleton ne_nil chain with isDigits | ⟨char, rfl, noDigit⟩
  · have written : IsWritten ⟨.number, String.ofList chars⟩ :=
      .number (by rwa [String.toList_ofList])
    obtain ⟨char, rest, rfl⟩ := List.exists_cons_of_ne_nil ne_nil
    refine .inr ⟨⟨_, written⟩, ?_, String.toList_ofList⟩
    rw [ofLexeme?, if_pos (isDigits.digits char List.mem_cons_self)]
  · have lexical := lexical char List.mem_cons_self
    rw [isLexical, noDigit, Bool.or_false, Bool.or_eq_true, beq_iff_eq] at lexical
    rcases lexical with rfl | mark
    · exact .inl rfl
    · obtain ⟨kind, mark⟩ := Option.isSome_iff_exists.1 mark
      have written := isWritten_iff.2 (.inl ⟨char, kind, mark, rfl⟩)
      refine .inr ⟨⟨_, written⟩, ?_, String.toList_singleton char⟩
      rw [ofLexeme?, noDigit, mark]
      rfl

/-- Behind a lexeme stands nothing that it is joined with. -/
theorem not_joined_of_isChain {lexeme : List Char} (ne_nil : ∀ l ∈ lexemes, l ≠ [])
    (apart : (lexeme :: lexemes).IsChain fun l l' =>
      ∃ ne ne', joined (l.getLast ne) (l'.head ne') = false) :
    ∀ x ∈ lexeme.getLast?, ∀ y ∈ lexemes.flatten.head?, joined x y = false := by
  intro x hx y hy
  cases lexemes with
  | nil => cases hy
  | cons next lexemes =>
    obtain ⟨⟨ne, ne', not_joined⟩, -⟩ := List.isChain_cons_cons.1 apart
    rw [List.getLast?_eq_some_getLast ne, Option.mem_some_iff] at hx
    rw [List.flatten_cons, List.head?_append, List.head?_eq_some_head ne', Option.some_or,
      Option.mem_some_iff] at hy
    rw [← hx, ← hy]
    exact not_joined

/-- **Lexemes that are not joined with their neighbours are a layout of their
tokens.** -/
theorem exists_layout_of_lexemes
    (formed : ∀ l ∈ lexemes, l ≠ [] ∧ (l.IsChain fun x y => joined x y = true) ∧
      ∀ x ∈ l, isLexical x = true)
    (apart : lexemes.IsChain fun l l' => ∃ ne ne', joined (l.getLast ne) (l'.head ne') = false) :
    ∃ body : List Written,
      lexemes.filterMap ofLexeme? = body.map Written.token ∧ WrittenIn body lexemes.flatten := by
  induction lexemes with
  | nil => exact ⟨[], rfl, [], [], by simp, .nil, rfl⟩
  | cons lexeme lexemes ih =>
    obtain ⟨⟨ne_nil, chain, lexical⟩, formed⟩ := List.forall_mem_cons.1 formed
    obtain ⟨body, tokens_eq, gap, rest, spaces, laidOut, flatten_eq⟩ := ih formed apart.tail
    rcases space_or_written ne_nil chain lexical with rfl | ⟨written, token_eq, chars_eq⟩
    · refine ⟨body, ?_, ' ' :: gap, rest, List.forall_mem_cons.2 ⟨rfl, spaces⟩, laidOut, ?_⟩
      · rw [List.filterMap_cons_none (by decide), tokens_eq]
      · rw [List.flatten_cons, flatten_eq]
        rfl
    · have parted : ∀ neighbour ∈ body.head?, Written.Apart written neighbour → gap ≠ [] := by
        -- Two numbers without a gap would have digits side by side, which are joined.
        rintro neighbour first ⟨number, number'⟩ rfl
        have digits := written.isDigits number
        have digits' := neighbour.isDigits number'
        have last := List.getLast?_eq_some_getLast digits.ne_nil
        have head := List.head?_eq_some_head digits'.ne_nil
        have not_joined := not_joined_of_isChain (fun l mem => (formed l mem).1) apart
        rw [flatten_eq, List.nil_append, laidOut.head?_eq Written.chars_ne_nil,
          Option.mem_def.1 first, Option.bind_some, ← chars_eq] at not_joined
        have := not_joined _ last _ head
        rw [joined, digits.digits _ (List.getLast_mem _), digits'.digits _ (List.head_mem _)] at this
        cases this
      refine ⟨written :: body, ?_, [], written.chars ++ gap ++ rest, by simp,
        .cons spaces parted laidOut, ?_⟩
      · rw [List.filterMap_cons_some token_eq, tokens_eq, List.map_cons]
      · rw [List.flatten_cons, flatten_eq, chars_eq, List.nil_append, List.append_assoc]

/-- **A text of lexical characters is a layout of its tokens.** -/
theorem exists_layout (lexical : ∀ x ∈ chars, isLexical x = true) :
    ∃ body : List Written, ofLexemes chars = body.map Written.token ∧ WrittenIn body chars := by
  have formed : ∀ l ∈ chars.splitBy joined, l ≠ [] ∧
      (l.IsChain fun x y => joined x y = true) ∧ ∀ x ∈ l, isLexical x = true := by
    refine fun l mem => ⟨List.ne_nil_of_mem_splitBy mem, List.isChain_of_mem_splitBy mem,
      fun x mem' => lexical x ?_⟩
    rw [← List.flatten_splitBy joined chars]
    exact List.mem_flatten_of_mem mem mem'
  have layout := exists_layout_of_lexemes formed (List.isChain_getLast_head_splitBy joined chars)
  rwa [List.flatten_splitBy] at layout

/-! ### Texts -/

/-- Tokens written in a text are cut from it. -/
theorem ofText_of_writtenIn {text : String} {body : List Written}
    (written : WrittenIn body text.toList) :
    ofText text = .ok (body.map Written.token ++ [eof]) :=
  ofText_of_layout Written.chars_ne_nil Written.boundary_of_not_apart written
    (fun token _ => token.isLexical_of_mem) fun token _ => token.ofLexemes_chars

/-- A text with tokens is a layout of them. -/
theorem exists_writtenIn {text : String} (outcome : ofText text = .ok tokens) :
    ∃ body : List Written, tokens = body.map Written.token ++ [eof] ∧
      WrittenIn body text.toList := by
  rw [ofText] at outcome
  split at outcome
  next => cases outcome
  next none_refused =>
    cases outcome
    have lexical : ∀ x ∈ text.toList, isLexical x = true := fun x mem => by
      simpa using List.find?_eq_none.1 none_refused x mem
    obtain ⟨body, tokens_eq, written⟩ := exists_layout lexical
    exact ⟨body, by rw [tokens_eq], written⟩

/-- **A character is refused exactly when it is the first one outside of the alphabet.** -/
theorem ofText_eq_error {text : String} :
    ofText text = .error (.unexpectedCharacter char) ↔
      ∃ before after, text.toList = before ++ char :: after ∧ (∀ x ∈ before, x ∈ alphabet) ∧
        char ∉ alphabet := by
  have found_iff : ofText text = .error (.unexpectedCharacter char) ↔
      text.toList.find? (!isLexical ·) = some char := by
    rw [ofText]
    split
    next other found => simp [found]
    next none_refused => simp [none_refused]
  simp only [found_iff, List.find?_eq_some_iff_append, ← isLexical_iff_mem]
  constructor
  · rintro ⟨refused, before, after, split, allowed⟩
    exact ⟨before, after, split, by simpa using allowed, by simpa using refused⟩
  · rintro ⟨before, after, split, allowed, refused⟩
    exact ⟨by simpa using refused, before, after, split, by simpa using allowed⟩

/-- **Cutting a text into tokens is the inverse of writing them.**  The tokens are
those of which the text is a layout with spaces, and the end behind them; a text
that is no such layout has a first character outside of the alphabet, which is
the error. -/
theorem ofText_inverts_writing (text : String) :
    (∀ tokens, ofText text = .ok tokens ↔
      ∃ body : List Written, tokens = body.map Written.token ++ [eof] ∧
        WrittenIn body text.toList) ∧
      ∀ char, ofText text = .error (.unexpectedCharacter char) ↔
        ∃ before after, text.toList = before ++ char :: after ∧ (∀ x ∈ before, x ∈ alphabet) ∧
          char ∉ alphabet := by
  refine ⟨fun tokens => ⟨exists_writtenIn, ?_⟩, fun char => ofText_eq_error⟩
  rintro ⟨body, rfl, written⟩
  exact ofText_of_writtenIn written

end Token
end Reckoner

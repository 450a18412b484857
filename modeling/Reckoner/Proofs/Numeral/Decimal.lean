/-
# What digits denote

A numeral is read digit by digit, and a digit that takes the value out of the
bounds ends the reading.  As more digits never bring the value back, what is
read of digits alone depends on what all of them denote:

| digits | denoting | are read as |
| --- | --- | --- |
| without a sign | at most `highest` | what they denote |
| without a sign | more | too large |
| after a minus | at most `-lowest` | its negative |
| after a minus | more | too small |

So the decimal text of a representable integer is read as that integer
(`read_toString`), and digits without a sign have one fault only, and only when
they denote too much (`read_digits`).
-/

import Reckoner.Numeral

namespace Reckoner
namespace Numeral

open Integer

/-- The integer with this sign and magnitude. -/
def Sign.apply : Sign → Nat → Int
  | .plus, n => n
  | .minus, n => -n

variable {sign : Sign} {m n : Nat} {char : Char} {chars : List Char} {text : String} {v : Int}

/-- One more digit on the right of a value is one more on the right of its magnitude. -/
theorem extend_apply (sign : Sign) (n digit : Nat) :
    sign.extend (sign.apply n) digit = sign.apply (10 * n + digit) := by
  cases sign with
  | plus => rw [Sign.extend, Sign.apply, Sign.apply]; omega
  | minus => rw [Sign.extend, Sign.apply, Sign.apply]; omega

/-- Of two magnitudes the smaller one is representable if the greater one is. -/
theorem representable_of_le (le : m ≤ n) (held : Representable (sign.apply n)) :
    Representable (sign.apply m) := by
  obtain ⟨above, below⟩ := held
  have low : lowest ≤ 0 := by decide
  have high : 0 ≤ highest := by decide
  cases sign with
  | plus => rw [Sign.apply] at *; constructor <;> omega
  | minus => rw [Sign.apply] at *; constructor <;> omega

/-- Further digits make no magnitude smaller. -/
theorem le_ofDigitChars (chars : List Char) (n : Nat) : n ≤ Nat.ofDigitChars 10 chars n := by
  induction chars generalizing n with
  | nil => exact Nat.le_of_eq Nat.ofDigitChars_nil.symm
  | cons char chars ih =>
    rw [Nat.ofDigitChars_cons]
    have := ih (10 * n + (char.toNat - '0'.toNat))
    omega

/-- **Digits are read as what they denote, if that is representable,** after a
value that is. -/
theorem scan_digits (digits : ∀ char ∈ chars, char.isDigit = true)
    (held : Representable (sign.apply n)) :
    scan sign (sign.apply n) chars =
      if Representable (sign.apply (Nat.ofDigitChars 10 chars n)) then
        .ok (sign.apply (Nat.ofDigitChars 10 chars n))
      else .error sign.overrun := by
  induction chars generalizing n with
  | nil => rw [scan, Nat.ofDigitChars_nil, if_pos held]
  | cons char chars ih =>
    have digit : digit? char = some (char.toNat - '0'.toNat) :=
      if_pos (digits char List.mem_cons_self)
    rw [scan, digit, Nat.ofDigitChars_cons]
    dsimp only
    rw [extend_apply]
    split
    next fits => exact ih (fun c mem => digits c (List.mem_cons_of_mem _ mem)) fits
    next overruns =>
      -- The digits that follow do not bring the value back.
      have beyond := mt (representable_of_le (le_ofDigitChars chars _)) overruns
      rw [if_neg beyond]

/-- A sign, if there is one, is read before the digits. -/
theorem unsigned_digits (ne_nil : chars ≠ []) (digits : ∀ char ∈ chars, char.isDigit = true) :
    unsigned sign chars =
      if Representable (sign.apply (Nat.ofDigitChars 10 chars 0)) then
        .ok (sign.apply (Nat.ofDigitChars 10 chars 0))
      else .error sign.overrun := by
  have zero : sign.apply 0 = 0 := by cases sign <;> rfl
  have held : Representable (sign.apply 0) := by rw [zero]; decide
  rw [← scan_digits digits held, zero]
  cases chars with
  | nil => exact absurd rfl ne_nil
  | cons char chars => rfl

/-- Digits stand for themselves: the first of them is no sign. -/
theorem ofChars_digits (ne_nil : chars ≠ []) (digits : ∀ char ∈ chars, char.isDigit = true) :
    ofChars chars = unsigned .plus chars := by
  obtain ⟨char, chars, rfl⟩ := List.exists_cons_of_ne_nil ne_nil
  have digit := digits char List.mem_cons_self
  rw [ofChars]
  · exact List.cons_ne_nil char chars
  · rintro rest ⟨⟩
    cases digit
  · rintro rest ⟨⟩
    cases digit

/-- **Digits without a sign are read, or they denote too much.** -/
theorem read_digits (ne_nil : text.toList ≠ [])
    (digits : ∀ char ∈ text.toList, char.isDigit = true) :
    read text =
      if (Nat.ofDigitChars 10 text.toList 0 : Int) ≤ highest then
        .ok (Nat.ofDigitChars 10 text.toList 0)
      else .error .tooLarge := by
  have bound (n : Nat) : Representable (Sign.plus.apply n) ↔ (n : Int) ≤ highest := by
    refine ⟨And.right, fun below => ⟨?_, below⟩⟩
    exact Int.le_trans (by decide) (Int.natCast_nonneg n)
  rw [read, ofChars_digits ne_nil digits, unsigned_digits ne_nil digits]
  simp only [bound]
  rfl

/-- **The decimal text of a representable integer is read as that integer.** -/
theorem read_toString (representable : Representable v) : read (toString v) = .ok v := by
  have digits (n : Nat) : ∀ char ∈ Nat.toDigits 10 n, char.isDigit = true := fun char mem =>
    Nat.isDigit_of_mem_toDigits (by decide) (by decide) mem
  cases v with
  | ofNat n =>
    have chars_eq : (toString (Int.ofNat n)).toList = Nat.toDigits 10 n := Nat.toList_repr
    rw [read, chars_eq, ofChars_digits Nat.toDigits_ne_nil (digits n),
      unsigned_digits Nat.toDigits_ne_nil (digits n), Nat.ofDigitChars_ten_toDigits]
    exact if_pos representable
  | negSucc n =>
    have chars_eq : (toString (Int.negSucc n)).toList = '-' :: Nat.toDigits 10 (n + 1) := by
      show ("-" ++ Nat.repr (n + 1)).toList = _
      rw [String.toList_append, Nat.toList_repr]
      rfl
    rw [read, chars_eq]
    show unsigned .minus (Nat.toDigits 10 (n + 1)) = _
    rw [unsigned_digits Nat.toDigits_ne_nil (digits (n + 1)), Nat.ofDigitChars_ten_toDigits]
    exact if_pos representable

/-- Reading succeeds with representable integers only. -/
theorem representable_of_scan {value : Int} (held : Representable value)
    (scanned : scan sign value chars = .ok v) : Representable v := by
  induction chars generalizing value with
  | nil =>
    cases scanned
    exact held
  | cons char chars ih =>
    rw [scan] at scanned
    split at scanned
    next => cases scanned
    next digit _ =>
      split at scanned
      next fits => exact ih fits scanned
      next => cases scanned

theorem representable_of_unsigned (read : unsigned sign chars = .ok v) : Representable v := by
  cases chars with
  | nil => cases read
  | cons char chars => exact representable_of_scan (by decide) read

/-- **A numeral is read as a representable integer.** -/
theorem representable_of_read (h : read text = .ok v) : Representable v := by
  rw [read] at h
  unfold ofChars at h
  split at h
  · cases h
  · exact representable_of_unsigned h
  · exact representable_of_unsigned h
  · exact representable_of_unsigned h

end Numeral
end Reckoner

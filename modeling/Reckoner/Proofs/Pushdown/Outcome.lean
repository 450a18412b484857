/-
# Outcomes up to the place of an unexpected token

The pass counts its tokens only to say where an unexpected token stands.  From
different counts it goes through the same configurations, and its outcomes are
the same but for that place (`finish_sameOutcome`):

| outcome | is the same as |
| --- | --- |
| a value | this value |
| a division by zero | a division by zero |
| an overflow | an overflow of this operator |
| a malformed number | one with this text and fault |
| an unexpected token | any unexpected token |

The table has no other errors, because no token is to blame for another one.
-/

import Reckoner.Proofs.Pushdown.Stop

namespace Reckoner

/-- The same outcome, whatever token is unexpected and wherever it stands. -/
inductive SameOutcome {α : Type} : Except Error α → Except Error α → Prop
  | value (a : α) : SameOutcome (.ok a) (.ok a)
  | divisionByZero : SameOutcome (.error .divisionByZero) (.error .divisionByZero)
  | overflow (operator : Operator) :
    SameOutcome (.error (.overflow operator)) (.error (.overflow operator))
  | malformedNumber (text : String) (fault : Numeral.Fault) :
    SameOutcome (.error (.malformedNumber text fault)) (.error (.malformedNumber text fault))
  | unexpectedToken (text text' : String) (position position' : Nat) :
    SameOutcome (.error (.unexpectedToken text position))
      (.error (.unexpectedToken text' position'))

namespace Pushdown

variable {α β : Type} {limit : Option Nat} {position position' : Nat} {token token' : Token}
  {tokens : List Token} {x y : Except Error α} {c : Configuration}

/-- An outcome is the same as itself, if its error is the fault of some token. -/
theorem sameOutcome_self
    (blames : ∀ error, x = .error error → ∃ position token, Blames position token error) :
    SameOutcome x x := by
  cases x with
  | ok a => exact .value a
  | error error =>
    obtain ⟨position, token, blamed⟩ := blames error rfl
    cases blamed with
    | unexpectedToken => exact .unexpectedToken ..
    | divisionByZero => exact .divisionByZero
    | overflow operator => exact .overflow operator
    | malformedNumber => exact .malformedNumber ..

/-- Two tokens are refused with the same outcome. -/
theorem refuse_sameOutcome (position position' : Nat) (token token' : Token) :
    SameOutcome (refuse position token : Except Error α) (refuse position' token') :=
  .unexpectedToken ..

/-- What goes on with the same outcome after the same outcome has the same outcome. -/
theorem bind_sameOutcome {f g : α → Except Error β} (same : SameOutcome x y)
    (goesOn : ∀ a, x = .ok a → SameOutcome (f a) (g a)) :
    SameOutcome (x >>= f) (y >>= g) := by
  cases same with
  | value a => exact goesOn a rfl
  | divisionByZero => exact .divisionByZero
  | overflow operator => exact .overflow operator
  | malformedNumber text fault => exact .malformedNumber text fault
  | unexpectedToken => exact .unexpectedToken ..

/-- The place of a token matters only if it is refused. -/
theorem step_eq_or_refuse (limit : Option Nat) (position position' : Nat) (token : Token)
    (c : Configuration) :
    step limit position token c = step limit position' token c ∨
      (step limit position token c = refuse position token ∧
        step limit position' token c = refuse position' token) := by
  cases c with
  | operandDue frame outer =>
    by_cases number : token.kind = .number
    · exact .inl (by rw [step_number number, step_number number])
    by_cases opens : token.kind = .leftParen
    · simp only [step_leftParen opens]
      split
      next => exact .inr ⟨rfl, rfl⟩
      next => exact .inl rfl
    · exact .inr ⟨step_operandDue_refuse number opens, step_operandDue_refuse number opens⟩
  | operatorDue v sum outer =>
    rcases kind_cases token.kind with ⟨operator, mark⟩ | ⟨operator, mark⟩ | closes | refused
    · exact .inl (by rw [step_multiplicative mark, step_multiplicative mark])
    · exact .inl (by rw [step_additive mark, step_additive mark])
    · cases outer with
      | nil =>
        simp only [step_rightParen_nil closes]
        cases resolve sum v with
        | ok total => exact .inr ⟨rfl, rfl⟩
        | error error => exact .inl rfl
      | cons frame outer =>
        exact .inl (by rw [step_rightParen_cons closes, step_rightParen_cons closes])
    · exact .inr ⟨step_operatorDue_refuse refused, step_operatorDue_refuse refused⟩

/-- **A step has the same outcome wherever its token stands.** -/
theorem step_sameOutcome (limit : Option Nat) (position position' : Nat) (token : Token)
    (c : Configuration) :
    SameOutcome (step limit position token c) (step limit position' token c) := by
  rcases step_eq_or_refuse limit position position' token c with same | ⟨refused, refused'⟩
  · rw [← same]
    exact sameOutcome_self fun error failed => ⟨position, token, blames_of_step failed⟩
  · rw [refused, refused']
    exact refuse_sameOutcome ..

/-- So has the end. -/
theorem halt_sameOutcome (position position' : Nat) (token : Token) (c : Configuration) :
    SameOutcome (halt position token c) (halt position' token c) := by
  cases c with
  | operandDue frame outer => exact refuse_sameOutcome ..
  | operatorDue v sum outer =>
    refine bind_sameOutcome (sameOutcome_self fun error failed =>
      ⟨position, token, blames_of_resolve failed⟩) fun total _ => ?_
    split
    next => exact .value total
    next => exact refuse_sameOutcome ..

/-- **The pass has the same outcome from any count of tokens on.** -/
theorem finish_sameOutcome (limit : Option Nat) (count count' : Nat) (tokens : List Token)
    (c : Configuration) :
    SameOutcome (finish limit count tokens c) (finish limit count' tokens c) := by
  induction tokens generalizing count count' c with
  | nil => exact halt_sameOutcome ..
  | cons token tokens ih =>
    by_cases atEnd : token.kind = .eof
    · rw [finish_cons_of_eof atEnd, finish_cons_of_eof atEnd]
      exact halt_sameOutcome ..
    · rw [finish_cons_of_ne atEnd, finish_cons_of_ne atEnd]
      exact bind_sameOutcome (step_sameOutcome ..) fun c' _ => ih ..

/-- An evaluation has the same outcome as itself. -/
theorem value_sameOutcome_self (limit : Option Nat) (tokens : List Token) :
    SameOutcome (value limit tokens) (value limit tokens) := by
  refine sameOutcome_self fun error failed => ?_
  obtain ⟨position, token, -, -, -, blames⟩ := blames_of_value failed
  exact ⟨position, token, blames⟩

end Pushdown
end Reckoner

/-
# Faults of the arithmetic are final

A number that is malformed, a division by zero and an overflow are met at one
token, and the tokens behind it are not looked at.  So the fault stays whatever
follows the sequence, with one exception: a sum is applied at the token after
its last product, and when the sequence ends there, another token takes the
place of the end.

| fault | is met at | stays when there follow |
| --- | --- | --- |
| a malformed number | the number | any tokens |
| a division by zero, an overflow of a product | the end of the factor | any tokens |
| an overflow of a sum | the token after the product | none, or a token that ends a product |

That a sum never divides, so that the end of a sequence has no fault but the
overflow of a sum, is what `Pending.Sound` is for.
-/

import Reckoner.Proofs.Evaluation.ViablePrefix

namespace Reckoner

namespace Error

/-- The faults of a number and of the operators of a product. -/
inductive OfProduct : Error → Prop
  | divisionByZero : OfProduct .divisionByZero
  | malformedNumber (text : String) (fault : Numeral.Fault) :
    OfProduct (.malformedNumber text fault)
  | multiply : OfProduct (.overflow .multiply)
  | divide : OfProduct (.overflow .divide)

/-- The faults of the operators of a sum. -/
inductive OfSum : Error → Prop
  | add : OfSum (.overflow .add)
  | subtract : OfSum (.overflow .subtract)

end Error

namespace Pushdown

open Evaluation (Rank)

variable {limit : Option Nat} {position : Nat} {token : Token} {tokens : List Token}
  {c : Configuration} {sum : Pending} {v : Int} {error : Error}

/-- A sum that cannot be applied overflows. -/
theorem ofSum_of_resolve (sound : sum.Sound .additive) (failed : resolve sum v = .error error) :
    error.OfSum := by
  rcases sum with - | ⟨left, operator⟩
  · cases failed
  · obtain ⟨-, kind, mark⟩ := sound left operator rfl
    rcases Operator.apply_eq_error_iff.1 failed with ⟨undefined, -⟩ | ⟨-, -, rfl⟩
    · obtain ⟨rfl, -⟩ := Operator.not_defined_iff.1 undefined
      cases kind <;> cases mark
    · cases kind <;> cases mark
      · exact .add
      · exact .subtract

/-- **The end is refused, or the sum before it overflows.** -/
theorem halt_eq_error (sound : c.Sound) (failed : halt position token c = .error error) :
    error = .unexpectedToken token.text position ∨
      ∃ v sum outer, c = .operatorDue v sum outer ∧ resolve sum v = .error error ∧ error.OfSum := by
  cases c with
  | operandDue frame outer =>
    cases failed
    exact .inl rfl
  | operatorDue v sum outer =>
    rcases bind_eq_error.1 failed with overflows | ⟨total, -, refused⟩
    · exact .inr ⟨v, sum, outer, rfl, overflows, ofSum_of_resolve sound.2.1 overflows⟩
    · cases outer with
      | nil => cases refused
      | cons frame outer =>
        cases refused
        exact .inl rfl

/-- **An error is met at a token of the sequence, and then it is final,** or at
the end behind all of them. -/
theorem final_or_at_end (failed : value limit tokens = .error error) :
    (∀ rest, value limit (tokens ++ rest) = .error error) ∨
      ∃ c, (∀ t ∈ tokens, t.kind ≠ .eof) ∧ tokens ≠ [] ∧ read limit 0 tokens .start = .ok c ∧
        halt (tokens.length + 1) Token.eof c = .error error := by
  have nonempty := body_ne_nil_of_value failed
  rw [value_eq_finish nonempty] at failed
  obtain ⟨before, token, c, leads, more, taken, stops⟩ := exists_stops failed
  rw [Nat.zero_add] at stops
  rcases List.prefix_concat_iff.1 leads with behind | within
  · obtain ⟨rfl, last⟩ := List.append_inj' behind rfl
    cases last
    refine .inr ⟨c, more, fun empty => nonempty (by rw [empty]; rfl), taken, ?_⟩
    cases stops with
    | step notEnd _ => exact absurd rfl notEnd
    | halt _ failed => exact failed
  · have some_token : before = [] → token.kind ≠ .eof := by
      rintro rfl atEnd
      obtain ⟨rest, rfl⟩ := within
      exact nonempty (Token.body_cons_of_eof atEnd rest)
    exact .inl fun rest =>
      value_of_stops more some_token taken stops (within.trans (List.prefix_append tokens rest))

/-- A sum that overflows at the end does so at any token that ends a product. -/
theorem finish_of_overflow (failed : resolve sum v = .error error)
    (ends : Rank.multiplicative.endsAt token.kind = true) (count : Nat) (rest : List Token)
    (outer : List Frame) :
    finish limit count (token :: rest) (.operatorDue v sum outer) = .error error := by
  by_cases atEnd : token.kind = .eof
  · rw [finish_cons_of_eof atEnd, halt_operatorDue, failed]
    rfl
  · rw [finish_cons_of_ne atEnd, step_operatorDue ends atEnd, failed]
    rfl

end Pushdown

namespace Evaluation

/-- **A fault of the arithmetic wins over what follows.**  A malformed number, a
division by zero and an overflow of a product stay whatever tokens follow.  An
overflow of a sum stays if none do, or if the first of them ends the product
that was read last. -/
theorem fault_wins_over_rest {tokens : List Token} {error : Error}
    (failed : evaluate tokens = .error error) (rest : List Token) :
    (error.OfProduct → evaluate (tokens ++ rest) = .error error) ∧
      (error.OfSum →
        (∀ t ∈ rest.head?, t.kind = .plus ∨ t.kind = .minus ∨ t.kind = .rightParen ∨
          t.kind = .eof) →
        evaluate (tokens ++ rest) = .error error) := by
  simp only [evaluate, Pushdown.evaluateWithin_eq_value] at failed ⊢
  rcases Pushdown.final_or_at_end failed with final | ⟨c, more, ne_nil, taken, halted⟩
  · exact ⟨fun _ => final rest, fun _ _ => final rest⟩
  have sound := Pushdown.sound_of_read Pushdown.sound_start taken
  rcases Pushdown.halt_eq_error sound halted with rfl | ⟨v, sum, outer, rfl, overflows, ofSum⟩
  · constructor <;> rintro ⟨⟩
  refine ⟨fun ofProduct => ?_, fun _ ends => ?_⟩
  · cases ofSum <;> cases ofProduct
  cases rest with
  | nil => rwa [List.append_nil]
  | cons token rest =>
    have nonempty : Token.body (tokens ++ token :: rest) ≠ [] := fun empty =>
      ne_nil ((Token.body_append_cons_eq_nil_iff more token rest).1 empty).1
    have ends : Rank.multiplicative.endsAt token.kind = true := by
      rcases ends token rfl with kind | kind | kind | kind <;> rw [kind] <;> rfl
    rw [Pushdown.value_append more nonempty, taken]
    exact Pushdown.finish_of_overflow overflows ends tokens.length rest outer

/-- In `8 / (3 - 3) ) *` and `9223372036854775807 + 1 ) 7` the parenthesis is
unexpected, and the division and the sum have failed before it. -/
theorem faults_before_misplaced_parenthesis :
    evaluate (Token.ofLexemes "8 / (3 - 3)".toList ++ Token.ofLexemes ") *".toList) =
        .error .divisionByZero ∧
      evaluate (Token.ofLexemes "9223372036854775807 + 1".toList ++
        Token.ofLexemes ") 7".toList) = .error (.overflow .add) := by
  have division : evaluate (Token.ofLexemes "8 / (3 - 3)".toList) = .error .divisionByZero := by
    decide +kernel
  have overflow : evaluate (Token.ofLexemes "9223372036854775807 + 1".toList) =
      .error (.overflow .add) := by decide +kernel
  exact ⟨(fault_wins_over_rest division _).1 .divisionByZero,
    (fault_wins_over_rest overflow _).2 .add (by decide +kernel)⟩

end Evaluation
end Reckoner

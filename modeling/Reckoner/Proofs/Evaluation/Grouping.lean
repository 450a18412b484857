/-
# A group stands for its value

A group may be replaced by the decimal text of its value, wherever it stands and
whatever stands around it, as long as the limit on open parentheses is not
reached by the tokens up to its end.  Behind a group and behind a number of the
same value the pass is in the same configuration, and differs only in its count
of tokens, so what follows has the same outcome (`Pushdown.finish_sameOutcome`).
Where no operand is due, the group and the number are both refused.
-/

import Reckoner.Proofs.Evaluation.Meaning
import Reckoner.Proofs.Numeral.Decimal
import Reckoner.Proofs.Pushdown.Outcome
import Reckoner.Proofs.Pushdown.Placement
import Reckoner.Token.Lexeme

namespace Reckoner

/-- A tree denotes representable integers only. -/
theorem Expression.Denotes.representable {e : Expression} {v : Int} (denotes : e.Denotes v) :
    Integer.Representable v := by
  induction denotes with
  | number read => exact Numeral.representable_of_read read
  | group _ ih => exact ih
  | binary _ _ _ representable => exact representable

namespace Pushdown

open Token (balance)

variable {limit : Option Nat} {opening closing : Token} {sub pre : List Token} {e : Expression}
  {n : Int} {c : Configuration}

/-- **A group and its value make the pass go on alike,** when the limit has room
for the group and the groups in it. -/
theorem group_sameOutcome (opens : opening.kind = .leftParen)
    (closes : closing.kind = .rightParen) (derives : Derives .sum sub e)
    (value_eq : e.value = .ok n) (room : ∀ m ∈ limit, c.depth + (e.nesting + 1) ≤ m)
    (count : Nat) (post : List Token) :
    SameOutcome (finish limit count (opening :: sub ++ closing :: post) c)
      (finish limit count (⟨.number, toString n⟩ :: post) c) := by
  have opening_ne : opening.kind ≠ .eof := by rw [opens]; decide
  have number_ne : (Token.mk .number (toString n)).kind ≠ .eof := by simp
  rw [finish_cons_of_ne number_ne]
  cases c with
  | operatorDue v sum outer =>
    rw [List.cons_append, finish_cons_of_ne opening_ne, step_operatorDue_refuse (.inr (.inl opens)),
      step_operatorDue_refuse (.inl rfl)]
    exact refuse_sameOutcome ..
  | operandDue frame outer =>
    have group := Derives.group opens derives closes
    have taken : read limit count (opening :: sub ++ [closing]) (.operandDue frame outer) =
        frame.accept outer n := by
      rw [passes_of_derives group room count frame, Expression.value, value_eq]
      rfl
    have representable := (Expression.value_eq_ok_iff.1 value_eq).representable
    rw [List.append_cons, finish_append (Evaluation.ne_eof_of_derives group), taken,
      step_number rfl, Numeral.read_toString representable]
    exact bind_sameOutcome (sameOutcome_self fun error failed =>
      ⟨0, opening, blames_of_accept failed⟩) fun c' _ => finish_sameOutcome ..

/-- What the tokens up to a group leave room for, its configuration does. -/
theorem room_of_balance {limit : Nat} (tracks : Tracks c pre) (opens : opening.kind = .leftParen)
    (derives : Derives .sum sub e)
    (room : ∀ before, before <+: pre ++ opening :: sub → balance before ≤ limit) :
    c.depth + (e.nesting + 1) ≤ limit := by
  have reaches : Token.Reaches (c.depth + (e.nesting + 1)) (pre ++ opening :: sub) := by
    refine (derives.reaches_nesting.cons_leftParen opens).append_left ?_
    rw [tracks.balance_eq]
    omega
  obtain ⟨before, leads, le⟩ := reaches
  have := room before leads
  omega

end Pushdown

namespace Evaluation

/-- **A group may be replaced by its value.**  The tokens before it and behind it
are any tokens, with or without an end among them, and the outcome is the same
but for the unexpected token and its place, if there is one. -/
theorem group_replaced_by_value {pre sub post : List Token} {opening closing : Token} {n : Int}
    (opens : opening.kind = .leftParen) (closes : closing.kind = .rightParen)
    (nonempty : sub ≠ []) (more : ∀ t ∈ sub, t.kind ≠ .eof) (outcome : evaluate sub = .ok n)
    (room : ∀ before, before <+: pre ++ opening :: sub → Token.balance before ≤ maxNesting) :
    SameOutcome (evaluate (pre ++ opening :: sub ++ closing :: post))
      (evaluate (pre ++ ⟨.number, toString n⟩ :: post)) := by
  rw [← Token.body_eq_self more] at nonempty
  obtain ⟨e, derives, value_eq, -⟩ := derives_of_evaluateWithin outcome nonempty
  rw [Token.body_eq_self more] at derives
  simp only [evaluate, Pushdown.evaluateWithin_eq_value]
  rcases Token.ne_eof_or_eq_append pre with pre_more | ⟨before, last, after, rfl, -, atEnd⟩
  · have nonempty' {token : Token} (more : token.kind ≠ .eof) (rest : List Token) :
        Token.body (pre ++ token :: rest) ≠ [] := fun empty =>
      more ((Token.body_append_cons_eq_nil_iff pre_more token rest).1 empty).2
    have opening_ne : opening.kind ≠ .eof := by rw [opens]; decide
    have number_ne : (Token.mk .number (toString n)).kind ≠ .eof := by simp
    rw [List.append_assoc, List.cons_append,
      Pushdown.value_append pre_more (nonempty' opening_ne _),
      Pushdown.value_append pre_more (nonempty' number_ne _)]
    refine Pushdown.bind_sameOutcome (Pushdown.sameOutcome_self fun error failed =>
      Pushdown.blames_of_read failed) fun c taken => ?_
    have tracks := (Pushdown.not_misplaced_of_read Pushdown.tracks_start taken).1
    refine Pushdown.group_sameOutcome opens closes derives value_eq ?_ pre.length post
    rintro limit ⟨⟩
    exact Pushdown.room_of_balance tracks opens derives room
  · -- The group stands behind the end, where neither it nor the number is read.
    simp only [List.append_assoc, List.cons_append]
    rw [Pushdown.value_behind_eof atEnd before _ (after ++ ⟨.number, toString n⟩ :: post)]
    exact Pushdown.value_sameOutcome_self ..

/-- In `7 * (2 - 5) / 2)` the group stands for `-3`, and the last parenthesis is
unexpected whichever of the two is there. -/
theorem negative_group_replaced :
    evaluate (Token.ofLexemes "2 - 5".toList) = .ok (-3) ∧
      SameOutcome
        (evaluate (Token.ofLexemes "7 *".toList ++ ⟨.leftParen, "("⟩ ::
          Token.ofLexemes "2 - 5".toList ++ ⟨.rightParen, ")"⟩ :: Token.ofLexemes "/ 2)".toList))
        (evaluate (Token.ofLexemes "7 *".toList ++
          ⟨.number, toString (-3 : Int)⟩ :: Token.ofLexemes "/ 2)".toList)) := by
  have outcome : evaluate (Token.ofLexemes "2 - 5".toList) = .ok (-3) := by decide +kernel
  have length_eq : (Token.ofLexemes "7 *".toList ++
      ⟨.leftParen, "("⟩ :: Token.ofLexemes "2 - 5".toList).length = 6 := by decide +kernel
  refine ⟨outcome, group_replaced_by_value rfl rfl (by decide +kernel) (by decide +kernel) outcome
    fun before leads => ?_⟩
  have := Token.balance_le_length before
  have := leads.length_le
  rw [maxNesting]
  omega

end Evaluation
end Reckoner

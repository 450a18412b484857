/-
# Where the pass stops

A pass that ends with an error ends at one token.  The tokens before it have all
been taken, none of them is the end, and what follows it is not looked at
(`exists_stops`, `Stops.finish_eq`).  The token decides which errors there may
be (`Blames`):

| error | at |
| --- | --- |
| the token is unexpected | any token, with its text and its place |
| a malformed number | a number token, with its text |
| a division by zero, an overflow | a token that makes an operator be applied |

So an error of an evaluation is the fault of one token of the sequence, at the
latest of its end (`blames_of_value`).
-/

import Reckoner.Proofs.Pushdown.Simulation

namespace Reckoner
namespace Pushdown

open Token (body ending)

/-- The errors that a token at a place can be to blame for. -/
inductive Blames (position : Nat) (token : Token) : Error → Prop
  | unexpectedToken : Blames position token (.unexpectedToken token.text position)
  | divisionByZero : Blames position token .divisionByZero
  | overflow (operator : Operator) : Blames position token (.overflow operator)
  | malformedNumber {fault : Numeral.Fault} (number : token.kind = .number)
    (read : Numeral.read token.text = .error fault) :
    Blames position token (.malformedNumber token.text fault)

/-- After a number of tokens the pass stops at this one, which is the end or not. -/
inductive Stops (limit : Option Nat) (count : Nat) (token : Token) (c : Configuration)
    (error : Error) : Prop
  | step (more : token.kind ≠ .eof) (failed : step limit (count + 1) token c = .error error)
  | halt (atEnd : token.kind = .eof) (failed : halt (count + 1) token c = .error error)

variable {limit : Option Nat} {position count : Nat} {token : Token} {tokens : List Token}
  {c : Configuration} {frame : Frame} {outer : List Frame} {sum pending : Pending} {v : Int}
  {error : Error}

/-! ### Which errors a token is to blame for -/

theorem blames_of_refuse {α : Type}
    (h : (refuse position token : Except Error α) = .error error) :
    Blames position token error := by
  cases h
  exact .unexpectedToken

theorem blames_of_resolve (h : resolve pending v = .error error) :
    Blames position token error := by
  rcases pending with - | ⟨left, operator⟩
  · cases h
  · rcases Operator.apply_eq_error_iff.1 h with ⟨-, rfl⟩ | ⟨-, -, rfl⟩
    · exact .divisionByZero
    · exact .overflow operator

theorem blames_of_accept (h : frame.accept outer v = .error error) :
    Blames position token error := by
  rcases bind_eq_error.1 h with h | ⟨w, -, h⟩
  · exact blames_of_resolve h
  · cases h

theorem blames_of_step_operandDue
    (h : step limit position token (.operandDue frame outer) = .error error) :
    Blames position token error := by
  by_cases number : token.kind = .number
  · rw [step_number number] at h
    rcases bind_eq_error.1 h with h | ⟨v, -, h⟩
    · cases read : Numeral.read token.text with
      | ok v => rw [read] at h; cases h
      | error fault =>
        rw [read] at h
        cases h
        exact .malformedNumber number read
    · exact blames_of_accept h
  by_cases opens : token.kind = .leftParen
  · rw [step_leftParen opens] at h
    split at h
    next => exact blames_of_refuse h
    next => cases h
  · rw [step_operandDue_refuse number opens] at h
    exact blames_of_refuse h

theorem blames_of_step_operatorDue
    (h : step limit position token (.operatorDue v sum outer) = .error error) :
    Blames position token error := by
  rcases kind_cases token.kind with ⟨operator, mark⟩ | ⟨operator, mark⟩ | closes | refused
  · rw [step_multiplicative mark] at h
    cases h
  · rw [step_additive mark] at h
    rcases bind_eq_error.1 h with h | ⟨w, -, h⟩
    · exact blames_of_resolve h
    · cases h
  · cases outer with
    | nil =>
      rw [step_rightParen_nil closes] at h
      rcases bind_eq_error.1 h with h | ⟨w, -, h⟩
      · exact blames_of_resolve h
      · exact blames_of_refuse h
    | cons frame outer =>
      rw [step_rightParen_cons closes] at h
      rcases bind_eq_error.1 h with h | ⟨w, -, h⟩
      · exact blames_of_resolve h
      · exact blames_of_accept h
  · rw [step_operatorDue_refuse refused] at h
    exact blames_of_refuse h

/-- **A step fails by the fault of its token.** -/
theorem blames_of_step (h : step limit position token c = .error error) :
    Blames position token error := by
  cases c with
  | operandDue frame outer => exact blames_of_step_operandDue h
  | operatorDue v sum outer => exact blames_of_step_operatorDue h

/-- So does the end. -/
theorem blames_of_halt (h : halt position token c = .error error) :
    Blames position token error := by
  cases c with
  | operandDue frame outer => exact blames_of_refuse h
  | operatorDue v sum outer =>
    rcases bind_eq_error.1 h with h | ⟨w, -, h⟩
    · exact blames_of_resolve h
    · cases outer with
      | nil => cases h
      | cons frame outer => exact blames_of_refuse h

namespace Stops

theorem blames (stops : Stops limit count token c error) : Blames (count + 1) token error := by
  cases stops with
  | step _ failed => exact blames_of_step failed
  | halt _ failed => exact blames_of_halt failed

/-- **What follows the token at which the pass stops does not matter.** -/
theorem finish_eq (stops : Stops limit count token c error) (tokens : List Token) :
    finish limit count (token :: tokens) c = .error error := by
  cases stops with
  | step more failed =>
    rw [finish_cons_of_ne more, failed]
    rfl
  | halt atEnd failed => rw [finish_cons_of_eof atEnd, failed]

/-- An unexpected token is the one at which the pass stops. -/
theorem eq_of_unexpectedToken {text : String}
    (stops : Stops limit count token c (.unexpectedToken text position)) :
    text = token.text ∧ position = count + 1 := by
  cases stops.blames
  exact ⟨rfl, rfl⟩

end Stops

/-! ### The token at which the pass stops -/

/-- **An error stops the pass at one token.**  The tokens before it are taken; it
is one of the sequence, or the end that is read behind all of them. -/
theorem exists_stops (h : finish limit count tokens c = .error error) :
    ∃ before token c', before ++ [token] <+: tokens ++ [Token.eof] ∧
      (∀ t ∈ before, t.kind ≠ .eof) ∧ read limit count before c = .ok c' ∧
        Stops limit (count + before.length) token c' error := by
  induction tokens generalizing count c with
  | nil =>
    refine ⟨[], Token.eof, c, List.prefix_rfl, by simp, rfl, .halt rfl ?_⟩
    rw [← h, finish_nil]
    rfl
  | cons token tokens ih =>
    have first : [] ++ [token] <+: token :: tokens ++ [Token.eof] := ⟨_, rfl⟩
    by_cases atEnd : token.kind = .eof
    · rw [finish_cons_of_eof atEnd] at h
      exact ⟨[], token, c, first, by simp, rfl, .halt atEnd h⟩
    · rw [finish_cons_of_ne atEnd] at h
      rcases bind_eq_error.1 h with stopped | ⟨c₁, stepped, going⟩
      · exact ⟨[], token, c, first, by simp, rfl, .step atEnd stopped⟩
      · obtain ⟨before, last, c', leads, more, taken, stops⟩ := ih going
        refine ⟨token :: before, last, c', List.cons_prefix_cons.2 ⟨rfl, leads⟩,
          List.forall_mem_cons.2 ⟨atEnd, more⟩, ?_, ?_⟩
        · rw [read_cons, stepped]
          exact taken
        · rwa [List.length_cons, Nat.add_comm before.length, ← Nat.add_assoc]

/-- The pass over a sequence with tokens before its end. -/
theorem value_eq_finish (nonempty : body tokens ≠ []) :
    value limit tokens = finish limit 0 tokens .start := if_neg nonempty

/-- Tokens before the end are taken first. -/
theorem value_append {tokens' : List Token} (more : ∀ t ∈ tokens, t.kind ≠ .eof)
    (nonempty : body (tokens ++ tokens') ≠ []) :
    value limit (tokens ++ tokens') =
      read limit 0 tokens .start >>= finish limit tokens.length tokens' := by
  rw [value_eq_finish nonempty, finish_append more, Nat.zero_add]

/-- **What follows an end token does not matter.** -/
theorem value_behind_eof (atEnd : token.kind = .eof) (tokens after after' : List Token) :
    value limit (tokens ++ token :: after) = value limit (tokens ++ token :: after') := by
  refine value_congr ?_ ?_ limit
  · rw [Token.body_append_of_eof atEnd, Token.body_append_of_eof atEnd]
  · rw [Token.ending_append_of_eof atEnd, Token.ending_append_of_eof atEnd]

/-- An end token is read behind the tokens, whether it stands there or not. -/
theorem value_concat_eof (tokens : List Token) :
    value limit (tokens ++ [Token.eof]) = value limit tokens :=
  value_congr (Token.body_concat_eof tokens) (Token.ending_append_of_eof rfl tokens []) limit

/-- Only a sequence with tokens before its end ends with an error. -/
theorem body_ne_nil_of_value (h : value limit tokens = .error error) : body tokens ≠ [] := by
  intro empty
  rw [value, if_pos empty] at h
  cases h

/-- The token at which the pass stops stands before the end, or is the end. -/
theorem mem_body_of_prefix {before : List Token} (more : ∀ t ∈ before, t.kind ≠ .eof)
    (leads : before ++ [token] <+: tokens ++ [Token.eof]) :
    before.length ≤ (body tokens).length ∧ (token ∈ body tokens ∨ token.kind = .eof) := by
  obtain ⟨rest, split⟩ := leads
  have body_eq : body tokens = before ++ body (token :: rest) := by
    rw [← Token.body_concat_eof, ← split, List.append_assoc, Token.body_append more]
    rfl
  constructor
  · rw [body_eq, List.length_append]
    exact Nat.le_add_right ..
  · by_cases atEnd : token.kind = .eof
    · exact .inr atEnd
    · rw [body_eq, Token.body_cons_of_ne atEnd]
      exact .inl (List.mem_append_right _ List.mem_cons_self)

/-- A pass that fails is stopped by the fault of some token. -/
theorem blames_of_read (h : read limit count tokens c = .error error) :
    ∃ position token, Blames position token error := by
  induction tokens generalizing count c with
  | nil => cases h
  | cons token tokens ih =>
    rcases bind_eq_error.1 h with stopped | ⟨c', -, going⟩
    · exact ⟨count + 1, token, blames_of_step stopped⟩
    · exact ih going

/-- **An error of an evaluation is the fault of one token,** before the end or
the end itself. -/
theorem blames_of_value (h : value limit tokens = .error error) :
    ∃ position token, 1 ≤ position ∧ position ≤ (body tokens).length + 1 ∧
      (token ∈ body tokens ∨ token.kind = .eof) ∧ Blames position token error := by
  rw [value_eq_finish (body_ne_nil_of_value h)] at h
  obtain ⟨before, token, c, leads, more, -, stops⟩ := exists_stops h
  obtain ⟨le, stands⟩ := mem_body_of_prefix more leads
  exact ⟨0 + before.length + 1, token, by omega, by omega, stands, stops.blames⟩

end Pushdown
end Reckoner

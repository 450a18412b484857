/-
# The limit on nested groups

The limit is a limit on open parentheses, counted over the tokens before the end,
and on nothing else:

| open parentheses | outcome |
| --- | --- |
| never more than the limit | that of an evaluation without a limit |
| more than the limit from some parenthesis on | an error, at this parenthesis at the latest |

Two passes, one with the limit and one without, go through the same
configurations as long as the tokens stay within it, because a configuration is
as deep as parentheses are open (`Tracks`).  At the first parenthesis beyond the
limit the pass with the limit stops, where the other one may go on.
-/

import Reckoner.Proofs.Pushdown.Placement
import Reckoner.Proofs.Pushdown.Stop
import Reckoner.Token.Lexeme
import Mathlib.Data.List.Induction

namespace Reckoner

namespace Token

/-- Nowhere among the tokens are more parentheses open than the limit allows. -/
def Within (limit : Nat) (tokens : List Token) : Prop :=
  ∀ part, part <+: tokens → balance part ≤ limit

/-- After some tokens within the limit, a left parenthesis is the first token
beyond it. -/
structure FirstBeyond (limit : Nat) (tokens before : List Token) (token : Token) : Prop where
  leads : before ++ [token] <+: tokens
  opens : token.kind = .leftParen
  within : Within limit before
  beyond : (limit : Int) < balance (before ++ [token])

variable {limit : Nat} {tokens before : List Token} {token : Token}

/-- Only a left parenthesis opens one more. -/
theorem balance_concat_le (tokens : List Token) (kind : token.kind ≠ .leftParen) :
    balance (tokens ++ [token]) ≤ balance tokens := by
  by_cases closes : token.kind = .rightParen
  · rw [balance_concat_of_rightParen tokens closes]
    omega
  · exact Int.le_of_eq (balance_concat_of_ne tokens kind closes)

/-- Before the first parenthesis beyond the limit, all that it allows are open. -/
theorem FirstBeyond.balance_eq (first : FirstBeyond limit tokens before token) :
    balance before = limit := by
  have within := first.within before List.prefix_rfl
  have beyond := first.beyond
  rw [balance_concat_of_leftParen before first.opens] at beyond
  omega

/-- No more tokens than the limit are within it. -/
theorem within_of_length_le (le : tokens.length ≤ limit) : Within limit tokens := by
  intro part leads
  have := balance_le_length part
  have := leads.length_le
  omega

/-- **Tokens are within the limit, or one of them is the first beyond it.** -/
theorem within_or_firstBeyond (limit : Nat) (tokens : List Token) :
    Within limit tokens ∨ ∃ before token, FirstBeyond limit tokens before token := by
  induction tokens using List.reverseRecOn with
  | nil =>
    refine .inl fun part leads => ?_
    rw [List.prefix_nil.1 leads, balance_nil]
    exact Int.natCast_nonneg limit
  | append_singleton tokens token ih =>
    rcases ih with within | ⟨before, found, first⟩
    · by_cases beyond : (limit : Int) < balance (tokens ++ [token])
      · refine .inr ⟨tokens, token, List.prefix_rfl, ?_, within, beyond⟩
        by_contra other
        have := balance_concat_le tokens other
        have := within tokens List.prefix_rfl
        omega
      · refine .inl fun part leads => ?_
        rcases List.prefix_concat_iff.1 leads with rfl | leads
        · exact Int.not_lt.1 beyond
        · exact within part leads
    · exact .inr ⟨before, found, { first with leads := first.leads.trans (List.prefix_append ..) }⟩

end Token

namespace Pushdown

open Token (balance body FirstBeyond Within)

variable {limit count position : Nat} {token : Token} {tokens before : List Token}
  {c : Configuration}

/-- **A step that opens no group beyond the limit does not depend on it.** -/
theorem step_eq_unlimited (room : token.kind = .leftParen → c.depth < limit) :
    step (some limit) position token c = step none position token c := by
  cases c with
  | operatorDue => rfl
  | operandDue frame outer =>
    by_cases opens : token.kind = .leftParen
    · have within : outer.length < limit := room opens
      rw [step_leftParen opens, step_leftParen opens, if_neg, if_neg] <;> simp [within]
    · cases kind : token.kind <;> first | exact absurd kind opens | simp only [step, kind]

/-- **A pass over tokens within the limit does not depend on it.** -/
theorem read_eq_unlimited (tracks : Tracks c before)
    (within : ∀ part, part <+: tokens → balance (before ++ part) ≤ limit) :
    read (some limit) count tokens c = read none count tokens c := by
  induction tokens generalizing count c before with
  | nil => rfl
  | cons token tokens ih =>
    have room : token.kind = .leftParen → c.depth < limit := by
      intro opens
      have first := within [token] ⟨tokens, rfl⟩
      rw [Token.balance_concat_of_leftParen before opens, tracks.balance_eq] at first
      omega
    rw [read_cons, read_cons, step_eq_unlimited room]
    cases stepped : step none (count + 1) token c with
    | error error => rfl
    | ok c' =>
      refine ih ((step_eq_ok_iff.1 stepped).tracks tracks) fun part leads => ?_
      rw [← List.append_cons]
      exact within (token :: part) (List.cons_prefix_cons.2 ⟨rfl, leads⟩)

/-- Within the limit an evaluation does not depend on it. -/
theorem value_eq_unlimited (within : Within limit (body tokens)) :
    value (some limit) tokens = value none tokens := by
  rw [value, value, finish, finish, read_eq_unlimited tracks_start within]

/-- A parenthesis beyond the limit is refused. -/
theorem step_beyond_limit (opens : token.kind = .leftParen) (full : c.depth = limit) :
    step (some limit) position token c = refuse position token := by
  cases c with
  | operandDue frame outer =>
    have full : outer.length = limit := full
    rw [step_leftParen opens, if_pos (by simp [full])]
  | operatorDue => exact step_operatorDue_refuse (.inr (.inl opens))

/-- **At the first parenthesis beyond the limit an evaluation ends,** because it
is refused, or has ended before it as it does without a limit. -/
theorem value_of_firstBeyond (first : FirstBeyond limit (body tokens) before token) :
    ∃ error, (∀ rest, value (some limit) (before ++ token :: rest) = .error error) ∧
      (error = .unexpectedToken token.text (before.length + 1) ∨
        ∀ rest, value none (before ++ token :: rest) = .error error) := by
  have more : ∀ t ∈ before, t.kind ≠ .eof := fun t mem =>
    Token.ne_eof_of_mem_body (first.leads.subset (List.mem_append_left _ mem))
  have notEnd : token.kind ≠ .eof := by rw [first.opens]; decide
  have nonempty (rest : List Token) : body (before ++ token :: rest) ≠ [] := fun empty =>
    notEnd ((Token.body_append_cons_eq_nil_iff more token rest).1 empty).2
  have unlimited : read (some limit) 0 before .start = read none 0 before .start :=
    read_eq_unlimited tracks_start first.within
  cases passed : read none 0 before .start with
  | error error =>
    refine ⟨error, fun rest => ?_, .inr fun rest => ?_⟩
    · rw [value_append more (nonempty rest), unlimited, passed]
      rfl
    · rw [value_append more (nonempty rest), passed]
      rfl
  | ok c =>
    have taken := unlimited.trans passed
    have full : c.depth = limit := by
      have balance_eq := (not_misplaced_of_read tracks_start taken).1.balance_eq
      rw [List.nil_append, first.balance_eq] at balance_eq
      omega
    refine ⟨_, fun rest => ?_, .inl rfl⟩
    rw [value_append more (nonempty rest), taken]
    show finish (some limit) before.length (token :: rest) c = _
    rw [finish_cons_of_ne notEnd, step_beyond_limit first.opens full]
    rfl

end Pushdown

namespace Evaluation

/-- **The limit counts open parentheses and nothing else.**  When no more than
`maxNesting` of them are ever open before the end, the outcome is that of an
evaluation without a limit.  Otherwise there is a first parenthesis beyond the
limit, and the outcome is an error, the same for every sequence with the same
tokens up to this one: it is unexpected, or there is an error that an evaluation
without a limit has as well. -/
theorem limit_counts_open_parentheses (tokens : List Token) :
    (Token.Within maxNesting (Token.body tokens) → evaluate tokens = evaluateWithin none tokens) ∧
      (¬ Token.Within maxNesting (Token.body tokens) →
        ∃ before token, Token.FirstBeyond maxNesting (Token.body tokens) before token ∧
          ∃ error, evaluate tokens = .error error ∧
            (∀ rest, evaluate (before ++ token :: rest) = .error error) ∧
            (error = .unexpectedToken token.text (before.length + 1) ∨
              evaluateWithin none tokens = .error error)) := by
  simp only [evaluate, Pushdown.evaluateWithin_eq_value]
  refine ⟨Pushdown.value_eq_unlimited, fun beyond => ?_⟩
  obtain ⟨before, token, first⟩ := (Token.within_or_firstBeyond _ _).resolve_left beyond
  obtain ⟨error, limited, cause⟩ := Pushdown.value_of_firstBeyond first
  obtain ⟨rest, split⟩ : before ++ [token] <+: tokens :=
    first.leads.trans (List.takeWhile_prefix _)
  rw [List.append_assoc, List.singleton_append] at split
  refine ⟨before, token, first, error, ?_, limited, cause.imp_right fun unlimited => ?_⟩
  · rw [← split]
    exact limited rest
  · rw [← split]
    exact unlimited rest

/-- The tokens of `1` in so many groups. -/
def grouped (depth : Nat) : List Token :=
  Token.ofLexemes (List.replicate depth '(' ++ '1' :: List.replicate depth ')')

/-- In two groups `1` has its value as without a limit.  In 257 groups it has one
without a limit only, and a parenthesis is unexpected. -/
theorem innermost_of_257_groups :
    evaluate (grouped 2) = evaluateWithin none (grouped 2) ∧
      evaluateWithin none (grouped 257) = .ok 1 ∧
      ∃ before token, Token.FirstBeyond maxNesting (Token.body (grouped 257)) before token ∧
        evaluate (grouped 257) = .error (.unexpectedToken token.text (before.length + 1)) := by
  have unlimited : evaluateWithin none (grouped 257) = .ok 1 := by
    rw [Pushdown.evaluateWithin_eq_value]
    decide +kernel
  have beyond : ¬ Token.Within maxNesting (Token.body (grouped 257)) := by
    intro within
    have leads : List.replicate 257 ⟨.leftParen, "("⟩ <+: Token.body (grouped 257) := by
      decide +kernel
    exact absurd (within _ leads) (by decide +kernel)
  obtain ⟨before, token, first, error, failed, -, cause⟩ :=
    (limit_counts_open_parentheses _).2 beyond
  rcases cause with rfl | failed'
  · exact ⟨(limit_counts_open_parentheses _).1 (Token.within_of_length_le (by decide +kernel)),
      unlimited, before, token, first, failed⟩
  · rw [unlimited] at failed'
    cases failed'

end Evaluation
end Reckoner

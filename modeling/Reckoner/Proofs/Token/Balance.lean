/-
# Counting parentheses

`Token.balance` adds up over the tokens: a left parenthesis counts `1`, a right
one `-1`, any other token nothing.  Tokens reach a depth when some first part of
them has at least this balance; to go deeper than a limit allows they would have
to reach one more.
-/

import Reckoner.Token.Placement

namespace Reckoner
namespace Token

/-- At some place among the tokens so many more parentheses are open than before them. -/
def Reaches (depth : Nat) (tokens : List Token) : Prop :=
  ∃ before, before <+: tokens ∧ (depth : Int) ≤ balance before

variable {depth depth' : Nat} {tokens tokens' : List Token} {token : Token}

theorem balance_singleton_of_leftParen (kind : token.kind = .leftParen) : balance [token] = 1 := by
  simp [balance, kind]

theorem balance_singleton_of_rightParen (kind : token.kind = .rightParen) :
    balance [token] = -1 := by
  simp [balance, kind]

theorem balance_singleton_of_ne (noOpening : token.kind ≠ .leftParen)
    (noClosing : token.kind ≠ .rightParen) : balance [token] = 0 := by
  simp [balance, noOpening, noClosing]

theorem balance_concat_of_leftParen (tokens : List Token) {token : Token}
    (kind : token.kind = .leftParen) : balance (tokens ++ [token]) = balance tokens + 1 := by
  rw [balance_append, balance_singleton_of_leftParen kind]

theorem balance_concat_of_rightParen (tokens : List Token) {token : Token}
    (kind : token.kind = .rightParen) : balance (tokens ++ [token]) = balance tokens - 1 := by
  rw [balance_append, balance_singleton_of_rightParen kind, Int.sub_eq_add_neg]

theorem balance_concat_of_ne (tokens : List Token) {token : Token}
    (noOpening : token.kind ≠ .leftParen) (noClosing : token.kind ≠ .rightParen) :
    balance (tokens ++ [token]) = balance tokens := by
  rw [balance_append, balance_singleton_of_ne noOpening noClosing, Int.add_zero]

/-- No more parentheses are open than there are tokens. -/
theorem balance_le_length (tokens : List Token) : balance tokens ≤ tokens.length := by
  have : tokens.countP (·.kind == .leftParen) ≤ tokens.length := List.countP_le_length
  rw [balance]
  omega

/-- Every sequence reaches what is open before it. -/
theorem reaches_zero (tokens : List Token) : Reaches 0 tokens :=
  ⟨[], List.nil_prefix, Int.le_refl 0⟩

/-- Further tokens do not matter. -/
theorem Reaches.append_right (reaches : Reaches depth tokens) (tokens' : List Token) :
    Reaches depth (tokens ++ tokens') := by
  obtain ⟨before, leads, le⟩ := reaches
  exact ⟨before, leads.trans (List.prefix_append ..), le⟩

/-- Tokens before add their balance. -/
theorem Reaches.append_left (reaches : Reaches depth tokens)
    (sum : (depth' : Int) = balance tokens' + depth) : Reaches depth' (tokens' ++ tokens) := by
  obtain ⟨before, leads, le⟩ := reaches
  refine ⟨tokens' ++ before, (List.prefix_append_right_inj tokens').2 leads, ?_⟩
  rw [balance_append]
  omega

/-- Behind a left parenthesis one more is reached. -/
theorem Reaches.cons_leftParen (reaches : Reaches depth tokens) (kind : token.kind = .leftParen) :
    Reaches (depth + 1) (token :: tokens) := by
  rw [← List.singleton_append]
  refine reaches.append_left ?_
  rw [balance_singleton_of_leftParen kind]
  omega

/-- Of two depths both are reached if the greater one is, and it is one of them. -/
theorem Reaches.max (reaches : Reaches depth tokens) (reaches' : Reaches depth' tokens) :
    Reaches (max depth depth') tokens := by
  rcases Nat.le_total depth depth' with le | le
  · rwa [Nat.max_eq_right le]
  · rwa [Nat.max_eq_left le]

end Token
end Reckoner

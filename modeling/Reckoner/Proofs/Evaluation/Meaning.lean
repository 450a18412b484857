/-
# What the tokens of an expression mean

The evaluation of a sequence of tokens is tied to the tree that they spell,
before their end and with groups no deeper than `maxNesting`:

| outcome | when |
| --- | --- |
| a value | the tree denotes it; without tokens, `0` |
| an error, tokens that spell a tree | the first fault of the tree |

One direction is the contract of the reading (`Reads`): what it has read spells
a tree.  The other is the pass over a derivation (`Pushdown.value_of_derives`).
-/

import Reckoner.Proofs.Pushdown.Derivation

namespace Reckoner
namespace Evaluation

/-- No derivation holds the end token. -/
theorem ne_eof_of_derives {level : Level} {tokens : List Token} {e : Expression}
    (derives : Derives level tokens e) : ∀ token ∈ tokens, token.kind ≠ .eof := by
  induction derives with
  | number number => simp [number]
  | group opens _ closes ih => simpa [opens, closes, or_imp, forall_and] using ih
  | factor _ ih => exact ih
  | times _ mark _ ihl ihr =>
    have := Rank.ne_eof_of_operator? mark
    simp only [List.mem_append, List.mem_cons]
    rintro token (mem | rfl | mem)
    exacts [ihl token mem, this, ihr token mem]
  | product _ ih => exact ih
  | plus _ mark _ ihl ihr =>
    have := Rank.ne_eof_of_operator? mark
    simp only [List.mem_append, List.mem_cons]
    rintro token (mem | rfl | mem)
    exacts [ihl token mem, this, ihr token mem]

/-- **An evaluation that succeeds has read a tree,** and all tokens before the
end belong to it. -/
theorem derives_of_evaluateWithin {limit : Option Nat} {tokens : List Token} {v : Int}
    (outcome : evaluateWithin limit tokens = .ok v) (nonempty : Token.body tokens ≠ []) :
    ∃ e, Derives .sum (Token.body tokens) e ∧ e.value = .ok v ∧ ∀ n ∈ limit, e.nesting ≤ n := by
  rw [evaluateWithin] at outcome
  split at outcome
  next value s' result =>
    cases outcome
    obtain ⟨_, _, next_eq, going⟩ := run_bind_eq_ok.1 result
    cases next_eq
    split at going
    next atEnd =>
      exact absurd ((State.body_unread_eq_nil_iff (State.start tokens)).2 atEnd) nonempty
    next =>
      obtain ⟨_, _, back_eq, reading⟩ := run_bind_eq_ok.1 going
      cases back_eq
      obtain ⟨x, t, sum_eq, ending⟩ := run_bind_eq_ok.1 reading
      obtain ⟨last, _, next_eq, checking⟩ := run_bind_eq_ok.1 ending
      cases next_eq
      split at checking
      next atEnd =>
        cases checking
        obtain ⟨reads, -⟩ := sumWithin_reads (Nat.le_refl _) sum_eq
        obtain ⟨read, e, unread_eq, -, derives, value_eq, nesting⟩ := reads.spells
        have body_eq : Token.body tokens = read := by
          change tokens = read ++ t.unread at unread_eq
          rw [unread_eq, Token.body_append (ne_eof_of_derives derives),
            (State.body_unread_eq_nil_iff t).2 atEnd, List.append_nil]
        exact ⟨e, body_eq ▸ derives, value_eq, nesting⟩
      next => cases checking
  next => cases outcome

/-- Tokens that spell a tree have the outcome of the tree, where the limit has
room for its groups. -/
theorem evaluate_of_derives {tokens : List Token} {e : Expression}
    (derives : Derives .sum (Token.body tokens) e) (nesting : e.nesting ≤ maxNesting) :
    evaluate tokens = e.value := by
  rw [evaluate, Pushdown.evaluateWithin_eq_value]
  refine Pushdown.value_of_derives derives fun n hn => ?_
  cases hn
  exact nesting

/-- **A value is the value of the tree,** in unbounded integers with every single
result representable; without tokens before the end it is `0`. -/
theorem evaluate_eq_ok_iff (tokens : List Token) (v : Int) :
    evaluate tokens = .ok v ↔
      (Token.body tokens = [] ∧ v = 0) ∨
        ∃ e, Derives .sum (Token.body tokens) e ∧ e.nesting ≤ maxNesting ∧ e.Denotes v := by
  by_cases empty : Token.body tokens = []
  · have outcome : evaluate tokens = .ok 0 := by
      rw [evaluate, Pushdown.evaluateWithin_eq_value, Pushdown.value, if_pos empty]
    rw [outcome]
    constructor
    · rintro ⟨⟩
      exact .inl ⟨empty, rfl⟩
    · rintro (⟨-, rfl⟩ | ⟨e, derives, -⟩)
      · rfl
      · exact absurd empty derives.ne_nil
  · constructor
    · intro outcome
      obtain ⟨e, derives, value_eq, nesting⟩ := derives_of_evaluateWithin outcome empty
      exact .inr ⟨e, derives, nesting _ rfl, Expression.value_eq_ok_iff.1 value_eq⟩
    · rintro (⟨h, -⟩ | ⟨e, derives, nesting, denotes⟩)
      · exact absurd h empty
      · rw [evaluate_of_derives derives nesting]
        exact Expression.value_eq_ok_iff.2 denotes

/-- **Of several faults the first one is reported,** in the order in which the
tree is evaluated: left operand, right operand, operator. -/
theorem evaluate_eq_error_iff {tokens : List Token} {e : Expression} {error : Error}
    (derives : Derives .sum (Token.body tokens) e) (nesting : e.nesting ≤ maxNesting) :
    evaluate tokens = .error error ↔ e.Fails error := by
  rw [evaluate_of_derives derives nesting]
  exact Expression.value_eq_error_iff

/-- In `9223372036854775807 + 1 - 5 / 0` the sum is too large and the divisor is
zero, and the sum comes first. -/
theorem evaluate_overflow_before_division :
    evaluate [⟨.number, "9223372036854775807"⟩, ⟨.plus, "+"⟩, ⟨.number, "1"⟩, ⟨.minus, "-"⟩,
      ⟨.number, "5"⟩, ⟨.divide, "/"⟩, ⟨.number, "0"⟩, Token.eof] = .error (.overflow .add) := by
  have sum : Derives .sum ([⟨.number, "9223372036854775807"⟩] ++ ⟨.plus, "+"⟩ :: [⟨.number, "1"⟩])
      (.binary .add (.number "9223372036854775807") (.number "1")) :=
    .plus (.product (.factor (.number rfl))) rfl (.factor (.number rfl))
  have quotient : Derives .product ([⟨.number, "5"⟩] ++ ⟨.divide, "/"⟩ :: [⟨.number, "0"⟩])
      (.binary .divide (.number "5") (.number "0")) :=
    .times (.factor (.number rfl)) rfl (.number rfl)
  have mark : Rank.additive.operator? (Token.mk .minus "-").kind = some .subtract := rfl
  have yields := Operator.Yields.sum 9223372036854775807 1
  have too_large : ¬ Integer.Representable (9223372036854775807 + 1) := by decide
  have derives := Derives.plus sum mark quotient
  refine Iff.mpr (evaluate_eq_error_iff derives (by decide)) (.left ?_)
  exact .overflow (.number (by decide +kernel)) (.number (by decide +kernel)) yields too_large

end Evaluation
end Reckoner

/-
# What a reading that succeeds leaves behind

Factors, products and sums are read under one contract, `Reads`: the groups
that are open stay the same, the cursor moves on over tokens that spell a tree
of the level, and the value is the value of that tree.  Groups in the tree nest
no deeper than the limit leaves room for.

| reading | has the contract at | and ends before |
| --- | --- | --- |
| `chainFrom`, `chain` | `Rank.level` | a token for which `Rank.endsAt` holds |
| `factorWithin` | `Level.factor` | anything |
| `productWithin` | `Level.product` | an operator of a sum, `)` or the end |
| `sumWithin` | `Level.sum` | `)` or the end |

A chain keeps the contract from operand to operand (`Reads.chain`), since a
derivation recurs on the left.  The bound on the tokens not yet read is never
exhausted: each operand has at least one token (`Reads.remaining_lt`).
-/

import Reckoner.Expression.Grammar
import Reckoner.Proofs.Evaluation.Steps

namespace Reckoner

/-! ### Levels and ranks -/

namespace Evaluation

/-- The level of a chain of operators of a rank. -/
def Rank.level : Rank → Level
  | .additive => .sum
  | .multiplicative => .product

/-- The level of the operands of a rank. -/
def Rank.operandLevel : Rank → Level
  | .additive => .product
  | .multiplicative => .factor

end Evaluation

open Evaluation

/-- An operand alone is a chain. -/
theorem Derives.alone {rank : Rank} {tokens : List Token} {e : Expression}
    (operand : Derives rank.operandLevel tokens e) : Derives rank.level tokens e := by
  cases rank with
  | additive => exact .product operand
  | multiplicative => exact .factor operand

/-- An operator and an operand make a chain longer. -/
theorem Derives.chain {rank : Rank} {tokens tokens' : List Token} {token : Token}
    {operator : Operator} {e e' : Expression} (left : Derives rank.level tokens e)
    (mark : rank.operator? token.kind = some operator)
    (right : Derives rank.operandLevel tokens' e') :
    Derives rank.level (tokens ++ token :: tokens') (.binary operator e e') := by
  cases rank with
  | additive => exact .plus left mark right
  | multiplicative => exact .times left mark right

namespace Evaluation

/-- An operator is not the end. -/
theorem Rank.ne_eof_of_operator? {rank : Rank} {kind : Token.Kind} {operator : Operator}
    (mark : rank.operator? kind = some operator) : kind ≠ .eof := by
  rintro rfl
  cases rank <;> cases mark

/-! ### The contract -/

/-- From the first state to the second, tokens have been read that spell a tree
of the level with this value, and nothing else has changed. -/
structure Reads (limit : Option Nat) (level : Level) (s : State) (value : Int) (s' : State) :
    Prop where
  depth_eq : s'.depth = s.depth
  tokens_eq : s'.cursor.tokens = s.cursor.tokens
  spells : ∃ read e, s.unread = read ++ s'.unread ∧
    s'.cursor.position = s.cursor.position + read.length ∧
    Derives level read e ∧ e.value = .ok value ∧ ∀ n ∈ limit, e.nesting ≤ n - s.depth

namespace Reads

variable {limit : Option Nat} {level : Level} {rank : Rank} {s t s' t' : State} {x y value : Int}

/-- At least one token has been read. -/
theorem remaining_lt (reads : Reads limit level s value s') :
    s'.cursor.remaining < s.cursor.remaining := by
  obtain ⟨read, e, unread_eq, -, derives, -⟩ := reads.spells
  have := List.length_pos_iff.2 derives.ne_nil
  rw [State.remaining_eq, State.remaining_eq, unread_eq, List.length_append]
  omega

/-- The moves that led to a state do not matter. -/
theorem congr_right (reads : Reads limit level s value s') (cursor : t'.cursor = s'.cursor)
    (depth : t'.depth = s'.depth) : Reads limit level s value t' where
  depth_eq := depth.trans reads.depth_eq
  tokens_eq := cursor ▸ reads.tokens_eq
  spells := by
    rw [State.unread_congr cursor, cursor]
    exact reads.spells

/-- An operand alone is a chain. -/
theorem alone (reads : Reads limit rank.operandLevel s value s') :
    Reads limit rank.level s value s' where
  depth_eq := reads.depth_eq
  tokens_eq := reads.tokens_eq
  spells := by
    obtain ⟨read, e, unread_eq, position, derives, rest⟩ := reads.spells
    exact ⟨read, e, unread_eq, position, derives.alone, rest⟩

/-- **A chain goes on with an operator and an operand.** -/
theorem chain {operator : Operator} (left : Reads limit rank.level s x t)
    (mark : rank.operator? t.cursor.current.kind = some operator)
    (right : Reads limit rank.operandLevel (t.move .next) y s')
    (applied : operator.apply x y = .ok value) : Reads limit rank.level s value s' where
  depth_eq := right.depth_eq.trans left.depth_eq
  tokens_eq := (right.tokens_eq.trans (Cursor.tokens_move ..)).trans left.tokens_eq
  spells := by
    obtain ⟨read, e, unread_eq, position, derives, value_eq, nesting⟩ := left.spells
    obtain ⟨read', e', unread_eq', position', derives', value_eq', nesting'⟩ := right.spells
    have more := Rank.ne_eof_of_operator? mark
    refine ⟨read ++ t.cursor.current :: read', .binary operator e e', ?_, ?_,
      derives.chain mark derives', ?_, fun n hn => ?_⟩
    · rw [unread_eq, State.unread_eq_cons more, unread_eq', List.append_assoc, List.cons_append]
    · rw [position', State.position_move_next, position, List.length_append, List.length_cons]
      omega
    · rw [Expression.value, value_eq, value_eq']
      exact applied
    · have := nesting n hn
      have := nesting' n hn
      rw [State.depth_move, left.depth_eq] at this
      rw [Expression.nesting]
      omega

/-- A number is a factor. -/
theorem number (kind : s.cursor.current.kind = .number)
    (read : (Numeral.read s.cursor.current.text).mapError
      (Error.malformedNumber s.cursor.current.text) = .ok value) :
    Reads limit .factor s value (s.move .next) where
  depth_eq := rfl
  tokens_eq := Cursor.tokens_move ..
  spells := by
    refine ⟨[s.cursor.current], .number s.cursor.current.text, ?_, rfl, .number kind, read,
      fun n _ => Nat.zero_le _⟩
    exact State.unread_eq_cons (by rw [kind]; decide)

/-- **A sum in parentheses is a factor.**  The group is open while the sum is
read, so the limit must have room for it. -/
theorem group (opens : s.cursor.current.kind = .leftParen) (room : ∀ n ∈ limit, s.depth < n)
    (cursor : t.cursor = s.cursor.move .next) (depth : t.depth = s.depth + 1)
    (inner : Reads limit .sum t value t') (closes : t'.cursor.current.kind = .rightParen)
    (cursor' : s'.cursor = t'.cursor.move .next) (depth' : s'.depth = t'.depth - 1) :
    Reads limit .factor s value s' where
  depth_eq := by rw [depth', inner.depth_eq, depth, Nat.add_sub_cancel]
  tokens_eq := by
    rw [cursor', Cursor.tokens_move, inner.tokens_eq, cursor, Cursor.tokens_move]
  spells := by
    obtain ⟨read, e, unread_eq, position, derives, value_eq, nesting⟩ := inner.spells
    have first : s.unread = s.cursor.current :: t.unread := by
      rw [State.unread_eq_cons (by rw [opens]; decide), State.unread_congr cursor.symm]
    have last : t'.unread = t'.cursor.current :: s'.unread := by
      rw [State.unread_eq_cons (by rw [closes]; decide), State.unread_congr cursor'.symm]
    refine ⟨s.cursor.current :: read ++ [t'.cursor.current], .group e, ?_, ?_,
      .group opens derives closes, value_eq, fun n hn => ?_⟩
    · rw [first, unread_eq, last]
      simp
    · rw [cursor', Cursor.move, position, cursor, Cursor.move]
      simp only [List.length_append, List.length_cons, List.length_nil]
      omega
    · have := nesting n hn
      have := room n hn
      rw [Expression.nesting]
      omega

end Reads

/-! ### Every reading keeps the contract -/

section

variable {limit : Option Nat} {part inner : Eval Int} {s t s' : State} {v w : Int}
  {bound room : Nat}

/-- Opening a group counts it, if the limit has room for one more. -/
theorem run_enter (limit : Option Nat) (token : Token) (s : State) :
    (enter limit token).run s =
      if limit.any (· ≤ s.depth) then
        .error (.unexpectedToken token.text s.cursor.position) s
      else .ok () { s with depth := s.depth + 1 } := by
  rw [enter, EStateM.run_bind, EStateM.run_get]
  dsimp only
  split <;> rfl

/-- **A chain keeps the contract** when its operands do, and ends before a token
that ends chains of its rank.  The induction is on the room, and what has been
read so far is a chain at every operator. -/
theorem chainFrom_reads (rank : Rank)
    (partReads : ∀ {x t t'}, t.cursor.remaining ≤ bound → part.run t = .ok x t' →
      Reads limit rank.operandLevel t x t')
    (within : room ≤ bound) (enough : t.cursor.remaining ≤ room)
    (reads : Reads limit rank.level s v t) (run : (chainFrom rank part room v).run t = .ok w s') :
    Reads limit rank.level s w s' ∧ rank.endsAt s'.cursor.current.kind = true := by
  induction room generalizing t v with
  | zero =>
    cases run
    refine ⟨reads.congr_right rfl rfl, ?_⟩
    show rank.endsAt t.cursor.current.kind = true
    rw [State.current_eq_eof enough]
    cases rank <;> rfl
  | succ room ih =>
    rw [chainFrom, run_bind_eq_ok] at run
    obtain ⟨token, u, read, run⟩ := run
    cases read
    split at run
    next operator mark =>
      obtain ⟨y, u, hy, applying⟩ := run_bind_eq_ok.1 run
      obtain ⟨result, u', lifted, going⟩ := run_bind_eq_ok.1 applying
      obtain ⟨applied, rfl⟩ := run_ofExcept_eq_ok.1 lifted
      have fewer := State.remaining_move_next (Rank.ne_eof_of_operator? mark)
      have right := partReads (by omega) hy
      have := right.remaining_lt
      exact ih (by omega) (by omega) (reads.chain mark right applied) going
    next =>
      split at run
      next ends =>
        cases run
        exact ⟨reads.congr_right rfl rfl, ends⟩
      next => cases run

/-- A chain from its first operand on. -/
theorem chain_reads (rank : Rank)
    (partReads : ∀ {x t t'}, t.cursor.remaining ≤ room → part.run t = .ok x t' →
      Reads limit rank.operandLevel t x t')
    (enough : s.cursor.remaining ≤ room) (run : (chain rank part room).run s = .ok w s') :
    Reads limit rank.level s w s' ∧ rank.endsAt s'.cursor.current.kind = true := by
  obtain ⟨first, t, read, run⟩ := run_bind_eq_ok.1 run
  have reads := partReads enough read
  have := reads.remaining_lt
  exact chainFrom_reads rank partReads (Nat.le_refl _) (by omega) reads.alone run

/-- A number or a group is a factor, when what stands in a group is a sum. -/
theorem operand_reads
    (innerReads : ∀ {x t t'}, t.cursor.remaining < s.cursor.remaining → inner.run t = .ok x t' →
      Reads limit .sum t x t')
    (run : (operand limit inner).run s = .ok w s') : Reads limit .factor s w s' := by
  obtain ⟨token, u, next_eq, dispatch⟩ := run_bind_eq_ok.1 run
  cases next_eq
  split at dispatch
  next number =>
    obtain ⟨value_eq, rfl⟩ := run_ofExcept_eq_ok.1 dispatch
    exact .number number value_eq
  next opens =>
    obtain ⟨_, t, entered, reading⟩ := run_bind_eq_ok.1 dispatch
    obtain ⟨value, t', inner_eq, closing⟩ := run_bind_eq_ok.1 reading
    rw [run_enter] at entered
    split at entered
    next => cases entered
    next room =>
      cases entered
      have fewer := State.remaining_move_next (s := s) (by rw [opens]; decide)
      have reads := innerReads (by exact Nat.lt_of_succ_le (Nat.le_of_eq fewer)) inner_eq
      obtain ⟨_, _, left, reading⟩ := run_bind_eq_ok.1 closing
      cases left
      obtain ⟨token, _, next_eq, checking⟩ := run_bind_eq_ok.1 reading
      cases next_eq
      split at checking
      next closes =>
        cases checking
        exact .group opens (not_limit_any_iff.1 room) rfl rfl reads closes rfl rfl
      next => cases checking
  next => cases dispatch

/-- Factors are read under the contract. -/
theorem factorWithin_reads (enough : s.cursor.remaining ≤ room)
    (run : (factorWithin limit room).run s = .ok w s') : Reads limit .factor s w s' := by
  induction room generalizing s w s' with
  | zero => cases run
  | succ room ih =>
    refine operand_reads (fun fewer read => ?_) run
    have products {x t t'} (enough : t.cursor.remaining ≤ room)
        (read : (chain .multiplicative (factorWithin limit room) room).run t = .ok x t') :
        Reads limit .product t x t' :=
      (chain_reads .multiplicative ih enough read).1
    exact (chain_reads .additive products (by omega) read).1

/-- Products are read under the contract, up to a token that ends them. -/
theorem productWithin_reads (enough : s.cursor.remaining ≤ room)
    (run : (productWithin limit room).run s = .ok w s') :
    Reads limit .product s w s' ∧ Rank.multiplicative.endsAt s'.cursor.current.kind = true :=
  chain_reads .multiplicative factorWithin_reads enough run

/-- Sums are read under the contract, up to a token that ends them. -/
theorem sumWithin_reads (enough : s.cursor.remaining ≤ room)
    (run : (sumWithin limit room).run s = .ok w s') :
    Reads limit .sum s w s' ∧ Rank.additive.endsAt s'.cursor.current.kind = true :=
  chain_reads .additive (fun enough read => (productWithin_reads enough read).1)
    enough run

end

end Evaluation
end Reckoner

/-
# The contract of a level

Each level of the grammar has a reading of its own, and the readings call each other.
Whatever the state is that a reading starts in, if it yields a value then the groups
that were open are open again, and the cursor has moved over tokens that spell a tree of
the level with this value:

| reading | spells a | stops before |
| --- | --- | --- |
| `sum` | sum | the end, `)` |
| `product` | product | the end, `)`, `+`, `-` |
| `factor` | factor | any token |

The groups of the tree are opened inside of those that were open before, so the limit
leaves room for both together.
-/

import Reckoner.Proofs.Evaluation.Meaning

namespace Reckoner

open Evaluation

/-- The reading of a level. -/
def Level.reading (limit : Option Nat) : Level → Eval Int
  | .sum => Evaluation.sum limit
  | .product => Evaluation.product limit
  | .factor => Evaluation.factor limit

/-- The reading of the level may stop before a token of this kind. -/
def Level.StopsBefore : Level → Token.Kind → Prop
  | .sum, kind => kind = .eof ∨ kind = .rightParen
  | .product, kind => kind = .eof ∨ kind = .rightParen ∨ kind = .plus ∨ kind = .minus
  | .factor, _ => True

namespace Evaluation

variable {limit : Option Nat} {level : Level} {s s' : State} {v : Int}

/-- The tokens from the place of one state up to that of another. -/
def State.between (s s' : State) : List Token :=
  (s.cursor.tokens.extract s.cursor.position s'.cursor.position).toList

/-- A chain of sums ends where a sum may stop. -/
theorem stopsBefore_of_additive {kind : Token.Kind} (ends : Rank.additive.endsAt kind = true) :
    Level.sum.StopsBefore kind := by
  revert ends
  cases kind <;> simp [Rank.endsAt, Level.StopsBefore]

/-- A chain of products ends where a product may stop. -/
theorem stopsBefore_of_multiplicative {kind : Token.Kind}
    (ends : Rank.multiplicative.endsAt kind = true) : Level.product.StopsBefore kind := by
  revert ends
  cases kind <;> simp [Rank.endsAt, Level.StopsBefore]

/-- **The reading of a level keeps its contract** and stops where it may. -/
theorem reading_reads (run : (level.reading limit).run s = .ok v s') :
    Reads limit level s v s' ∧ level.StopsBefore s'.cursor.current.kind := by
  cases level with
  | sum =>
    obtain ⟨reads, ends⟩ := sumWithin_reads (Nat.le_refl _) run
    exact ⟨reads, stopsBefore_of_additive ends⟩
  | product =>
    obtain ⟨reads, ends⟩ := productWithin_reads (Nat.le_refl _) run
    exact ⟨reads, stopsBefore_of_multiplicative ends⟩
  | factor => exact ⟨factorWithin_reads (Nat.le_refl _) run, trivial⟩

/-- What has been read stands between the two places, all of it among the tokens. -/
theorem Reads.between (reads : Reads limit level s v s') :
    s.cursor.position < s'.cursor.position ∧ s'.cursor.position ≤ s.cursor.tokens.size ∧
      ∃ e, Derives level (s.between s') e ∧ e.value = .ok v ∧
        ∀ n ∈ limit, e.nesting ≤ n - s.depth := by
  obtain ⟨read, e, unread_eq, position, derives, rest⟩ := reads.spells
  have some_read := List.length_pos_iff.2 derives.ne_nil
  have length_eq := congrArg List.length unread_eq
  rw [State.unread, List.length_append, List.length_drop, Array.length_toList] at length_eq
  have between_eq : s.between s' = read := by
    rw [State.between, Array.toList_extract, List.extract_eq_take_drop, position,
      Nat.add_sub_cancel_left, ← State.unread, unread_eq, List.take_left]
  exact ⟨by omega, by omega, e, between_eq ▸ derives, rest⟩

/-- **The contract of a level.**  A reading that yields a value closes every group that
it opens and keeps the tokens.  It moves the cursor on, at most behind the last token,
over tokens without an end among them that spell a tree of the level.  The tree
denotes the value, its groups fit into the limit together with those that are open, and
the token behind it is one that the reading stops before. -/
theorem reading_contract (depth : s.depth ≤ maxNesting)
    (run : (level.reading (some maxNesting)).run s = .ok v s') :
    s'.depth = s.depth ∧ s'.cursor.tokens = s.cursor.tokens ∧
      s.cursor.position < s'.cursor.position ∧
      s'.cursor.position ≤ s.cursor.tokens.size ∧
      (∀ token ∈ s.between s', token.kind ≠ .eof) ∧
      (∃ e, Derives level (s.between s') e ∧ e.Denotes v ∧ s.depth + e.nesting ≤ maxNesting) ∧
      level.StopsBefore s'.cursor.current.kind := by
  obtain ⟨reads, stops⟩ := reading_reads run
  obtain ⟨moves, within, e, derives, value_eq, nesting⟩ := reads.between
  have room := nesting maxNesting rfl
  exact ⟨reads.depth_eq, reads.tokens_eq, moves, within, ne_eof_of_derives derives,
    ⟨e, derives, Expression.value_eq_ok_iff.1 value_eq, by omega⟩, stops⟩

/-- In `(2 - 5)`, where a group is open, the sum is read from the second token on, up
to its parenthesis. -/
theorem sum_within_group :
    ∃ s s' : State,
      s.cursor = { tokens := #[⟨.leftParen, "("⟩, ⟨.number, "2"⟩, ⟨.minus, "-"⟩, ⟨.number, "5"⟩,
        ⟨.rightParen, ")"⟩], position := 1 } ∧
      s.depth = 1 ∧ (Level.sum.reading (some maxNesting)).run s = .ok (-3) s' ∧
      s'.depth = 1 ∧ s'.cursor.current = ⟨.rightParen, ")"⟩ ∧
      ∃ e, Derives .sum [⟨.number, "2"⟩, ⟨.minus, "-"⟩, ⟨.number, "5"⟩] e ∧ e.Denotes (-3) := by
  let s : State :=
    { cursor := { tokens := #[⟨.leftParen, "("⟩, ⟨.number, "2"⟩, ⟨.minus, "-"⟩, ⟨.number, "5"⟩,
        ⟨.rightParen, ")"⟩], position := 1 }
      depth := 1 }
  let s' : State :=
    { s with
      cursor := { s.cursor with position := 4 }
      trail := [.back, .next, .back, .next, .next, .next, .back, .next, .next] }
  have run : (Level.sum.reading (some maxNesting)).run s = .ok (-3) s' := by
    simp only [s, s']
    rfl
  have between : s.between s' = [⟨.number, "2"⟩, ⟨.minus, "-"⟩, ⟨.number, "5"⟩] := by decide
  obtain ⟨depth_eq, -, -, -, -, ⟨e, derives, denotes, -⟩, -⟩ := reading_contract (by decide) run
  exact ⟨s, s', rfl, rfl, run, depth_eq, rfl, e, between ▸ derives, denotes⟩

end Evaluation
end Reckoner

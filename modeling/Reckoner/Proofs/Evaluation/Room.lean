/-
# The room is never used up

The readings call each other with room for the tokens that are not yet read: a group
passes one token less on to the sum in it.  More room than there are tokens makes no
difference (`factorWithin_room`), so a reading that is called within another one is the
reading of its level, and the three call each other as the grammar has it:

| reading | is | |
| --- | --- | --- |
| `sum` | a chain of products | `run_sum` |
| `product` | a chain of factors | `run_product` |
| `factor` | a number, or a sum in parentheses | `run_factor` |

The induction is on the room.  A chain keeps within it because each of its operands has
at least one token, which is part of the contract of a reading (`Reads.remaining_lt`).
-/

import Reckoner.Proofs.Evaluation.Contract

namespace Reckoner
namespace Evaluation

/-- The two do the same wherever at most so many tokens are left. -/
def AlikeWithin (bound : Nat) (x y : Eval Int) : Prop :=
  ∀ s : State, s.cursor.remaining ≤ bound → x.run s = y.run s

/-- Whatever is read, at least one token is. -/
def Advances (bound : Nat) (x : Eval Int) : Prop :=
  ∀ {s v s'}, s.cursor.remaining ≤ bound → x.run s = .ok v s' →
    s'.cursor.remaining < s.cursor.remaining

variable {limit : Option Nat} {rank : Rank} {part part' inner inner' : Eval Int} {s : State}
  {v : Int} {bound room room' : Nat}

/-! ### Chains and operands -/

/-- At the end a chain ends, whatever room it has. -/
theorem run_chainFrom_of_eof (atEnd : s.cursor.current.kind = .eof) (rank : Rank)
    (part : Eval Int) (room : Nat) (v : Int) :
    (chainFrom rank part room v).run s = .ok v ((s.move .next).move .back) := by
  cases room with
  | zero => rfl
  | succ room =>
    rw [chainFrom, run_next_bind, atEnd]
    cases rank <;> rfl

/-- **Chains of operands that do the same do the same,** with any room that suffices. -/
theorem chainFrom_alike (alike : AlikeWithin bound part part') (advances : Advances bound part)
    (within : s.cursor.remaining ≤ bound) (enough : s.cursor.remaining ≤ room)
    (enough' : s.cursor.remaining ≤ room') :
    (chainFrom rank part room v).run s = (chainFrom rank part' room' v).run s := by
  induction room generalizing s v room' with
  | zero =>
    have atEnd : s.cursor.current.kind = .eof := by rw [State.current_eq_eof enough]; rfl
    rw [run_chainFrom_of_eof atEnd, run_chainFrom_of_eof atEnd]
  | succ room ih =>
    by_cases atEnd : s.cursor.current.kind = .eof
    · rw [run_chainFrom_of_eof atEnd, run_chainFrom_of_eof atEnd]
    have fewer := State.remaining_move_next atEnd
    obtain ⟨room', rfl⟩ : ∃ n, room' = n + 1 := ⟨room' - 1, by omega⟩
    rw [chainFrom, chainFrom, run_next_bind, run_next_bind]
    split
    next operator mark =>
      rw [EStateM.run_bind, EStateM.run_bind, ← alike (s.move .next) (by omega)]
      cases read : part.run (s.move .next) with
      | error error t => rfl
      | ok x t =>
        have := advances (by omega) read
        dsimp only
        rw [EStateM.run_bind, EStateM.run_bind, run_ofExcept]
        cases operator.apply v x with
        | error error => rfl
        | ok w => exact ih (by omega) (by omega) (by omega)
    next => rfl

/-- So do chains from their first operand on. -/
theorem chain_alike (alike : AlikeWithin bound part part') (advances : Advances bound part)
    (within : s.cursor.remaining ≤ bound) (enough : s.cursor.remaining ≤ room)
    (enough' : s.cursor.remaining ≤ room') :
    (chain rank part room).run s = (chain rank part' room').run s := by
  rw [chain, chain, EStateM.run_bind, EStateM.run_bind, ← alike s within]
  cases read : part.run s with
  | error error t => rfl
  | ok x t =>
    have := advances within read
    exact chainFrom_alike alike advances (by omega) (by omega) (by omega)

/-- An operand depends on what stands in a group only behind its parenthesis. -/
theorem operand_alike
    (alike : ∀ t : State, t.cursor.remaining < s.cursor.remaining → inner.run t = inner'.run t) :
    (operand limit inner).run s = (operand limit inner').run s := by
  rw [operand, operand, run_next_bind, run_next_bind]
  split
  next => rfl
  next opens =>
    have fewer := State.remaining_move_next (s := s) (by rw [opens]; decide)
    rw [group, group, EStateM.run_bind, EStateM.run_bind, run_enter]
    by_cases full : limit.any (· ≤ (s.move .next).depth) = true
    · rw [if_pos full]
    · rw [if_neg full]
      dsimp only
      rw [EStateM.run_bind, EStateM.run_bind, alike]
      exact Nat.lt_of_succ_le (Nat.le_of_eq fewer)
  next => rfl

/-- At the end there is no operand. -/
theorem run_operand_of_eof (atEnd : s.cursor.current.kind = .eof) (limit : Option Nat)
    (inner : Eval Int) :
    (operand limit inner).run s =
      .error (.unexpectedToken s.cursor.current.text (s.cursor.position + 1)) (s.move .next) := by
  rw [operand, run_next_bind, atEnd]
  rfl

/-- Neither is there a factor, with any room. -/
theorem run_factorWithin_of_eof (atEnd : s.cursor.current.kind = .eof) (limit : Option Nat)
    (room : Nat) :
    (factorWithin limit room).run s =
      .error (.unexpectedToken s.cursor.current.text (s.cursor.position + 1)) (s.move .next) := by
  cases room with
  | zero => rfl
  | succ room => exact run_operand_of_eof atEnd limit _

/-! ### Rooms that suffice -/

/-- Products are read alike if the factors in them are. -/
theorem productWithin_alike
    (factors : AlikeWithin s.cursor.remaining (factorWithin limit room) (factorWithin limit room'))
    (enough : s.cursor.remaining ≤ room) (enough' : s.cursor.remaining ≤ room') :
    (productWithin limit room).run s = (productWithin limit room').run s := by
  refine chain_alike factors (fun le read => ?_) (Nat.le_refl _) enough enough'
  exact (factorWithin_reads (Nat.le_trans le enough) read).remaining_lt

/-- Sums are read alike if the factors in them are. -/
theorem sumWithin_alike
    (factors : AlikeWithin s.cursor.remaining (factorWithin limit room) (factorWithin limit room'))
    (enough : s.cursor.remaining ≤ room) (enough' : s.cursor.remaining ≤ room') :
    (sumWithin limit room).run s = (sumWithin limit room').run s := by
  refine chain_alike (fun t le => ?_) (fun le read => ?_) (Nat.le_refl _) enough enough'
  · exact productWithin_alike (fun u le' => factors u (Nat.le_trans le' le))
      (Nat.le_trans le enough) (Nat.le_trans le enough')
  · exact (productWithin_reads (Nat.le_trans le enough) read).1.remaining_lt

/-- **A factor is read alike with any room that suffices.** -/
theorem factorWithin_room (enough : s.cursor.remaining ≤ room)
    (enough' : s.cursor.remaining ≤ room') :
    (factorWithin limit room).run s = (factorWithin limit room').run s := by
  induction room generalizing s room' with
  | zero =>
    have atEnd : s.cursor.current.kind = .eof := by rw [State.current_eq_eof enough]; rfl
    rw [run_factorWithin_of_eof atEnd, run_factorWithin_of_eof atEnd]
  | succ room ih =>
    by_cases atEnd : s.cursor.current.kind = .eof
    · rw [run_factorWithin_of_eof atEnd, run_factorWithin_of_eof atEnd]
    have fewer := State.remaining_move_next atEnd
    obtain ⟨room', rfl⟩ : ∃ n, room' = n + 1 := ⟨room' - 1, by omega⟩
    refine operand_alike fun t less => ?_
    exact sumWithin_alike (fun u le => ih (by omega) (by omega)) (by omega) (by omega)

/-! ### How the readings call each other -/

/-- **A factor is a number, or a sum in parentheses.** -/
theorem run_factor (limit : Option Nat) (s : State) :
    (factor limit).run s = (operand limit (sum limit)).run s := by
  show (factorWithin limit s.cursor.remaining).run s = _
  by_cases atEnd : s.cursor.current.kind = .eof
  · rw [run_factorWithin_of_eof atEnd, run_operand_of_eof atEnd]
  · obtain ⟨room, remaining⟩ : ∃ n, s.cursor.remaining = n + 1 :=
      ⟨_, (State.remaining_move_next atEnd).symm⟩
    rw [remaining]
    refine operand_alike fun t less => ?_
    exact sumWithin_alike (fun u le => factorWithin_room (by omega) le) (by omega) (Nat.le_refl _)

/-- **A product is a chain of factors,** with any room that suffices. -/
theorem run_product (enough : s.cursor.remaining ≤ room) :
    (product limit).run s = (chain .multiplicative (factor limit) room).run s :=
  chain_alike (fun _ le => factorWithin_room le (Nat.le_refl _))
    (fun le read => (factorWithin_reads le read).remaining_lt)
    (Nat.le_refl _) (Nat.le_refl _) enough

/-- **A sum is a chain of products,** with any room that suffices. -/
theorem run_sum (enough : s.cursor.remaining ≤ room) :
    (sum limit).run s = (chain .additive (product limit) room).run s := by
  refine chain_alike (fun t le => ?_)
    (fun le read => (productWithin_reads le read).1.remaining_lt)
    (Nat.le_refl _) (Nat.le_refl _) enough
  exact productWithin_alike (fun u le' => factorWithin_room (Nat.le_trans le' le) le') le
    (Nat.le_refl _)

end Evaluation
end Reckoner

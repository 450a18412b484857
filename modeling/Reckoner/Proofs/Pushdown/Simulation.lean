/-
# The recursive reading and the pass with a stack agree

A reading that is under way stands for a configuration: the groups that are open
around it are the frames on the stack, and what a chain has come to waits in the
frame on top.  `resume` is the outcome of the pass from a state and a
configuration on, and each reading makes the pass go on from its own result:

| reading | from | goes on from |
| --- | --- | --- |
| `factorWithin` | an operand is due | the frame with the factor accepted |
| `productWithin` | an operand is due | an operator is due, after the product |
| `sumWithin` | an operand is due, nothing waits | an operator is due, after the sum |

The two kinds of chain are one induction, `resume_chainFrom`.  A sum is applied
by the recursion before the token that ends its last product is read a second
time, and by the pass at that token; `resume_operatorDue` says that this is the
same.  All readings together give `evaluateWithin_eq_value`.
-/

import Reckoner.Proofs.Evaluation.Contract
import Reckoner.Proofs.Pushdown.Transition

namespace Reckoner
namespace Pushdown

open Evaluation

/-! ### Going on from a state -/

/-- The outcome of the pass from a state of the reading and a configuration on. -/
def resume (limit : Option Nat) (s : State) (c : Configuration) : Except Error Int :=
  finish limit s.cursor.position s.unread c

section

variable {limit : Option Nat} {s s' t : State} {c : Configuration} {rank : Rank}
  {part : Eval Int} {bound room depth : Nat} {v : Int} {sum : Pending} {frame : Frame}
  {outer : List Frame}

theorem resume_congr (same : s.cursor = s'.cursor) (c : Configuration) :
    resume limit s c = resume limit s' c := by
  rw [resume, resume, State.unread_congr same, same]

theorem resume_of_eof (h : s.cursor.current.kind = .eof) (c : Configuration) :
    resume limit s c = halt (s.cursor.position + 1) s.cursor.current c := by
  rw [State.current_eq] at h ⊢
  rw [resume]
  cases unread : s.unread with
  | nil => exact finish_nil ..
  | cons token tokens =>
    rw [unread] at h
    exact finish_cons_of_eof h ..

theorem resume_of_ne (h : s.cursor.current.kind ≠ .eof) (c : Configuration) :
    resume limit s c =
      step limit (s.cursor.position + 1) s.cursor.current c >>= resume limit (s.move .next) := by
  rw [resume, State.unread_eq_cons h, finish_cons_of_ne h]
  rfl

/-- **Before a token that ends a product, the sum may be applied at once.** -/
theorem resume_operatorDue (ends : Rank.multiplicative.endsAt s.cursor.current.kind = true)
    (v : Int) (sum : Pending) (outer : List Frame) :
    resume limit s (.operatorDue v sum outer) =
      resolve sum v >>= fun total => resume limit s (.operatorDue total none outer) := by
  by_cases atEnd : s.cursor.current.kind = .eof
  · simp only [resume_of_eof atEnd]
    exact halt_operatorDue
  · simp only [resume_of_ne atEnd]
    rw [step_operatorDue ends atEnd, bind_assoc]

/-! ### Chains -/

/-- **A chain makes the pass go on from its value.**  While the chain rests at a
value, its operators make the pass wait for a part; a part makes the pass rest
again, at the value that the operator gives.  Which tokens have to be refused is
asked only at states that are ready, and each part leaves such a state. -/
theorem resume_chainFrom (ready : State → Prop) (rest : Int → Configuration)
    (wait : Int → Operator → Configuration)
    (goesOn : ∀ {position token operator v}, rank.operator? token.kind = some operator →
      step limit position token (rest v) = .ok (wait v operator))
    (refuses : ∀ {position t v}, ready t → rank.operator? t.cursor.current.kind = none →
      rank.endsAt t.cursor.current.kind = false →
        step limit position t.cursor.current (rest v) = refuse position t.cursor.current)
    (resume_part : ∀ {t} v operator, t.cursor.remaining ≤ bound → t.depth = depth →
      resume limit t (wait v operator) =
        proceed (part.run t) fun x t' => operator.apply v x >>= fun w => resume limit t' (rest w))
    (keeps : ∀ {t x t'}, t.cursor.remaining ≤ bound → t.depth = depth → part.run t = .ok x t' →
      t'.cursor.remaining < t.cursor.remaining ∧ t'.depth = depth ∧ ready t')
    (within : room ≤ bound) (enough : t.cursor.remaining ≤ room) (deep : t.depth = depth)
    (isReady : ready t) :
    resume limit t (rest v) =
      proceed ((chainFrom rank part room v).run t) fun w t' => resume limit t' (rest w) := by
  induction room generalizing t v with
  | zero => exact resume_congr (show t.cursor = ((t.move .next).move .back).cursor from rfl) _
  | succ room ih =>
    rw [chainFrom, proceed_bind, run_next, proceed_ok]
    split
    next operator mark =>
      have more := Rank.ne_eof_of_operator? mark
      have fewer := State.remaining_move_next more
      rw [resume_of_ne more, goesOn mark, proceed_bind]
      show resume limit (t.move .next) (wait v operator) = _
      rw [resume_part (t := t.move .next) v operator (by omega) deep]
      refine proceed_congr fun x t' run => ?_
      obtain ⟨less, deep', isReady'⟩ := keeps (t := t.move .next) (by omega) deep run
      rw [proceed_bind, proceed_ofExcept]
      exact bind_congr fun w => ih (by omega) (by omega) deep' isReady'
    next mark =>
      split
      next ends => exact resume_congr rfl _
      next goes =>
        have goes := Bool.eq_false_iff.2 goes
        have more : t.cursor.current.kind ≠ .eof := fun kind => by
          rw [kind] at goes
          cases rank <;> cases goes
        rw [resume_of_ne more, refuses isReady mark goes]
        rfl

/-- A product makes the pass go on after it. -/
theorem resume_productWithin
    (resume_factorWithin : ∀ {t frame outer}, t.cursor.remaining ≤ room → t.depth = outer.length →
      resume limit t (.operandDue frame outer) =
        proceed ((factorWithin limit room).run t) fun x t' =>
          frame.accept outer x >>= resume limit t')
    (enough : t.cursor.remaining ≤ room) (deep : t.depth = outer.length) :
    resume limit t (.operandDue { sum } outer) =
      proceed ((productWithin limit room).run t) fun x t' =>
        resume limit t' (.operatorDue x sum outer) := by
  have keeps {t : State} {x t'} (enough : t.cursor.remaining ≤ room)
      (deep : t.depth = outer.length) (run : (factorWithin limit room).run t = .ok x t') :
      t'.cursor.remaining < t.cursor.remaining ∧ t'.depth = outer.length ∧ True := by
    have reads := factorWithin_reads enough run
    exact ⟨reads.remaining_lt, reads.depth_eq.trans deep, trivial⟩
  rw [productWithin, chain, proceed_bind, resume_factorWithin enough deep]
  refine proceed_congr fun x t' run => ?_
  obtain ⟨less, deep', -⟩ := keeps enough deep run
  rw [accept_of_product_eq_none]
  refine resume_chainFrom (fun _ => True) (.operatorDue · sum outer)
    (fun v operator => .operandDue { sum, product := some (v, operator) } outer)
    step_multiplicative (fun _ mark goes => step_operatorDue_refuse
      ((eq_operand_of_not_endsAt mark goes).imp_right .inl)) (fun v operator enough deep => ?_)
    keeps (Nat.le_refl _) (by omega) deep' trivial
  rw [resume_factorWithin enough deep]
  refine proceed_congr fun x t' _ => ?_
  rw [Frame.accept, bind_assoc]
  rfl

/-- A sum makes the pass go on after it. -/
theorem resume_sumWithin
    (resume_factorWithin : ∀ {t frame outer}, t.cursor.remaining ≤ room → t.depth = outer.length →
      resume limit t (.operandDue frame outer) =
        proceed ((factorWithin limit room).run t) fun x t' =>
          frame.accept outer x >>= resume limit t')
    (enough : t.cursor.remaining ≤ room) (deep : t.depth = outer.length) :
    resume limit t (.operandDue {} outer) =
      proceed ((sumWithin limit room).run t) fun x t' =>
        resume limit t' (.operatorDue x none outer) := by
  have keeps {t : State} {x t'} (enough : t.cursor.remaining ≤ room)
      (deep : t.depth = outer.length) (run : (productWithin limit room).run t = .ok x t') :
      t'.cursor.remaining < t.cursor.remaining ∧ t'.depth = outer.length ∧
        Rank.multiplicative.endsAt t'.cursor.current.kind = true := by
    obtain ⟨reads, ends⟩ := productWithin_reads enough run
    exact ⟨reads.remaining_lt, reads.depth_eq.trans deep, ends⟩
  rw [sumWithin, chain, proceed_bind, resume_productWithin resume_factorWithin enough deep]
  refine proceed_congr fun x t' run => ?_
  obtain ⟨less, deep', ends⟩ := keeps enough deep run
  refine resume_chainFrom (fun t => Rank.multiplicative.endsAt t.cursor.current.kind = true)
    (.operatorDue · none outer) (fun v operator => .operandDue { sum := some (v, operator) } outer)
    step_additive (fun ends mark goes => ?_) (fun v operator enough deep => ?_)
    keeps (Nat.le_refl _) (by omega) deep' ends
  · rw [additive_endsAt ends mark] at goes
    cases goes
  · rw [resume_productWithin resume_factorWithin enough deep]
    exact proceed_congr fun x t' run =>
      resume_operatorDue (keeps enough deep run).2.2 x (some (v, operator)) outer

/-! ### Factors -/

/-- The end of a group: its sum is a factor of the group around it, if the next
token is the closing parenthesis. -/
theorem resume_closing (ends : Rank.additive.endsAt t.cursor.current.kind = true) :
    resume limit t (.operatorDue v none (frame :: outer)) =
      proceed
        ((do
          leave
          let closing ← next
          if closing.kind = .rightParen then return v else unexpected closing : Eval Int).run t)
        fun x t' => frame.accept outer x >>= resume limit t' := by
  have left : leave.run t = .ok () { t with depth := t.depth - 1 } := rfl
  rw [proceed_bind, left, proceed_ok, proceed_bind, run_next, proceed_ok]
  by_cases atEnd : t.cursor.current.kind = .eof
  · have stays : ¬ t.cursor.current.kind = .rightParen := by rw [atEnd]; decide
    rw [resume_of_eof atEnd]
    simp only [if_neg stays]
    rfl
  · have closes := eq_rightParen_of_endsAt ends atEnd
    rw [resume_of_ne atEnd, step_rightParen_cons closes, if_pos closes, resolve_none]
    rfl

/-- **A factor makes the pass go on with the factor accepted.** -/
theorem resume_factorWithin (enough : t.cursor.remaining ≤ room) (deep : t.depth = outer.length) :
    resume limit t (.operandDue frame outer) =
      proceed ((factorWithin limit room).run t) fun x t' =>
        frame.accept outer x >>= resume limit t' := by
  induction room generalizing t frame outer with
  | zero =>
    have atEnd := State.current_eq_eof enough
    rw [resume_of_eof (by rw [atEnd]; rfl)]
    rfl
  | succ room ih =>
    rw [factorWithin, operand, proceed_bind, run_next, proceed_ok]
    split
    next kind =>
      rw [number, proceed_ofExcept, resume_of_ne (by rw [kind]; decide), step_number kind,
        bind_assoc]
    next kind =>
      have fewer := State.remaining_move_next (s := t) (by rw [kind]; decide)
      have enough : (t.move .next).cursor.remaining ≤ room := by omega
      rw [group, proceed_bind, run_enter, resume_of_ne (by rw [kind]; decide), step_leftParen kind,
        State.depth_move, deep]
      split
      next => rfl
      next =>
        rw [proceed_ok, proceed_bind]
        refine (resume_sumWithin (t := { t.move .next with depth := outer.length + 1 }) ih enough
          (show outer.length + 1 = (frame :: outer).length from rfl)).trans ?_
        refine proceed_congr fun x t' run => ?_
        obtain ⟨reads, ends⟩ := sumWithin_reads (by exact enough) run
        exact resume_closing ends
    next noNumber noGroup =>
      by_cases atEnd : t.cursor.current.kind = .eof
      · rw [resume_of_eof atEnd]
        rfl
      · rw [resume_of_ne atEnd, step_operandDue_refuse noNumber noGroup]
        rfl

end

/-! ### The whole evaluation -/

/-- The end of an expression: its sum is the value, if the end token is next. -/
theorem resume_last {limit : Option Nat} {t : State} {v : Int}
    (ends : Rank.additive.endsAt t.cursor.current.kind = true) :
    resume limit t (.operatorDue v none []) =
      proceed
        ((do
          let last ← next
          if last.kind = .eof then return v else unexpected last : Eval Int).run t)
        fun x _ => .ok x := by
  rw [proceed_bind, run_next, proceed_ok]
  by_cases atEnd : t.cursor.current.kind = .eof
  · rw [resume_of_eof atEnd, if_pos atEnd]
    rfl
  · have closes := eq_rightParen_of_endsAt ends atEnd
    rw [resume_of_ne atEnd, if_neg atEnd, step_rightParen_nil closes, resolve_none]
    rfl

/-- **The recursive reading and the pass with a stack have the same outcome,**
for every sequence of tokens and every limit. -/
theorem evaluateWithin_eq_value (limit : Option Nat) (tokens : List Token) :
    evaluateWithin limit tokens = value limit tokens := by
  have outcome : evaluateWithin limit tokens =
      proceed ((expression limit).run (State.start tokens)) fun v _ => .ok v := by
    rw [evaluateWithin, run]
    cases (expression limit).run (State.start tokens) <;> rfl
  rw [outcome, expression, proceed_bind, run_next, proceed_ok, value]
  have atEnd_iff := State.body_unread_eq_nil_iff (State.start tokens)
  rw [State.unread_start] at atEnd_iff
  by_cases atEnd : (State.start tokens).cursor.current.kind = .eof
  · rw [if_pos atEnd, if_pos (atEnd_iff.2 atEnd)]
    rfl
  · rw [if_neg atEnd, if_neg (mt atEnd_iff.1 atEnd), proceed_bind, run_back, proceed_ok,
      proceed_bind]
    show proceed ((sumWithin limit (State.start tokens).cursor.remaining).run _) _ =
      resume limit (((State.start tokens).move .next).move .back) (.operandDue {} [])
    rw [resume_sumWithin resume_factorWithin (Nat.le_refl _) rfl]
    refine proceed_congr fun x t run => ?_
    obtain ⟨-, ends⟩ := sumWithin_reads (by exact Nat.le_refl _) run
    exact (resume_last ends).symm

end Pushdown
end Reckoner

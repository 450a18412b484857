/-
# The pass over a derivation

Over tokens that spell a tree the pass does what the evaluation of the tree
does: it goes through the left operand, then through the right one, and applies
the operator to their values.  What the pass makes of a derivation depends on
its level (`Passes`):

| level | from | to |
| --- | --- | --- |
| factor | an operand is due | the frame with the value accepted |
| product | an operand is due | an operator is due, after the value |
| sum | an operand is due, nothing waits | an operator is due, after the value |

After a sum the last operator is still waiting, and the pass is in the same
configuration only for what begins by applying it.  Every token that ends a sum
does, and the end too (`AppliesSum`).  Derivations recur on the left, so the
induction is on the derivation and follows the pass.
-/

import Reckoner.Proofs.Expression.Fault
import Reckoner.Proofs.Pushdown.Simulation

namespace Reckoner
namespace Pushdown

open Evaluation

variable {α : Type} {limit : Option Nat} {outer : List Frame}

/-- What goes on after a sum and begins by applying it. -/
def AppliesSum (outer : List Frame) (k : Configuration → Except Error α) : Prop :=
  ∀ v sum, k (.operatorDue v sum outer) =
    resolve sum v >>= fun total => k (.operatorDue total none outer)

/-- The end applies the sum before it. -/
theorem appliesSum_halt (position : Nat) (token : Token) :
    AppliesSum outer (halt position token) := fun _ _ => halt_operatorDue

/-- A token that ends a product applies the sum before it. -/
theorem appliesSum_read {token : Token} (ends : Rank.multiplicative.endsAt token.kind = true)
    (more : token.kind ≠ .eof) (limit : Option Nat) (count : Nat) (tokens : List Token) :
    AppliesSum outer (read limit count (token :: tokens)) := fun v sum => by
  rw [read_cons, step_operatorDue ends more, bind_assoc]
  rfl

theorem AppliesSum.bind {β : Type} {k : Configuration → Except Error α}
    (applies : AppliesSum outer k) (f : α → Except Error β) :
    AppliesSum outer fun c => k c >>= f := fun v sum => by
  dsimp only
  rw [applies v sum, bind_assoc]

/-- What the pass makes of tokens that spell a tree at a level. -/
def Passes (limit : Option Nat) (outer : List Frame) (tokens : List Token) (e : Expression) :
    Level → Prop
  | .factor => ∀ count frame,
    read limit count tokens (.operandDue frame outer) = e.value >>= frame.accept outer
  | .product => ∀ count sum,
    read limit count tokens (.operandDue { sum } outer) =
      e.value >>= fun v => .ok (.operatorDue v sum outer)
  | .sum => ∀ (α : Type) count (k : Configuration → Except Error α), AppliesSum outer k →
    read limit count tokens (.operandDue {} outer) >>= k =
      e.value >>= fun v => k (.operatorDue v none outer)

/-- Room for the groups of both operands. -/
theorem room_of_binary {depth : Nat} {operator : Operator} {e e' : Expression}
    (room : ∀ n ∈ limit, depth + (Expression.binary operator e e').nesting ≤ n) :
    (∀ n ∈ limit, depth + e.nesting ≤ n) ∧ ∀ n ∈ limit, depth + e'.nesting ≤ n :=
  ⟨fun n hn => Nat.le_trans (Nat.add_le_add_left (Nat.le_max_left ..) _) (room n hn),
    fun n hn => Nat.le_trans (Nat.add_le_add_left (Nat.le_max_right ..) _) (room n hn)⟩

namespace Passes

variable {tokens tokens' : List Token} {token opening closing : Token} {operator : Operator}
  {e e' : Expression}

/-- The pass over a group passes over the sum in it, in a frame of its own. -/
theorem group (opens : opening.kind = .leftParen) (closes : closing.kind = .rightParen)
    (room : ∀ n ∈ limit, outer.length < n)
    (inner : ∀ frame, Passes limit (frame :: outer) tokens e .sum) :
    Passes limit outer (opening :: tokens ++ [closing]) (.group e) .factor := by
  intro count frame
  have opened : step limit (count + 1) opening (.operandDue frame outer) =
      .ok (.operandDue {} (frame :: outer)) := by
    rw [step_leftParen opens, if_neg (not_limit_any_iff.2 room)]
  have more : closing.kind ≠ .eof := by rw [closes]; decide
  have ends : Rank.multiplicative.endsAt closing.kind = true := by rw [closes]; rfl
  rw [List.cons_append, read_cons, opened]
  show read limit (count + 1) (tokens ++ [closing]) (.operandDue {} (frame :: outer)) = _
  rw [read_append, inner frame _ _ _ (appliesSum_read ends more _ _ _)]
  refine bind_congr fun v => ?_
  rw [read_singleton, step_rightParen_cons closes]
  rfl

/-- The pass over a longer product. -/
theorem times (mark : Rank.multiplicative.operator? token.kind = some operator)
    (left : Passes limit outer tokens e .product) (right : Passes limit outer tokens' e' .factor) :
    Passes limit outer (tokens ++ token :: tokens') (.binary operator e e') .product := by
  intro count sum
  rw [read_append, left, Expression.value_binary, bind_assoc, bind_assoc]
  refine bind_congr fun x => ?_
  show read limit _ (token :: tokens') (.operatorDue x sum outer) = _
  rw [read_cons, step_multiplicative mark, bind_assoc]
  show read limit _ tokens' (.operandDue { sum, product := some (x, operator) } outer) = _
  rw [right]
  rfl

/-- The pass over a longer sum: its last operator is applied by what goes on. -/
theorem plus (mark : Rank.additive.operator? token.kind = some operator)
    (left : Passes limit outer tokens e .sum) (right : Passes limit outer tokens' e' .product) :
    Passes limit outer (tokens ++ token :: tokens') (.binary operator e e') .sum := by
  intro α count k applies
  have more := Rank.ne_eof_of_operator? mark
  have ends := endsAt_of_additive mark
  rw [read_append, bind_assoc, left _ _ _ ((appliesSum_read ends more _ _ _).bind k),
    Expression.value_binary, bind_assoc]
  refine bind_congr fun x => ?_
  rw [read_cons, step_additive mark, bind_assoc]
  show read limit _ tokens' (.operandDue { sum := some (x, operator) } outer) >>= k = _
  rw [right, bind_assoc, bind_assoc]
  exact bind_congr fun y => applies y (some (x, operator))

end Passes

/-- **The pass evaluates the tree of a derivation,** when the limit has room for
the groups in it. -/
theorem passes_of_derives {level : Level} {tokens : List Token} {e : Expression}
    (derives : Derives level tokens e) (room : ∀ n ∈ limit, outer.length + e.nesting ≤ n) :
    Passes limit outer tokens e level := by
  induction derives generalizing outer with
  | @number token kind =>
    intro count frame
    rw [read_singleton, step_number kind]
    rfl
  | @group opening closing tokens e opens inner closes ih =>
    have deeper : ∀ n ∈ limit, outer.length + (e.nesting + 1) ≤ n := room
    refine .group opens closes (fun n hn => ?_) fun frame => ih fun n hn => ?_
    · have := deeper n hn
      omega
    · have := deeper n hn
      rw [List.length_cons]
      omega
  | factor _ ih => exact fun count sum => ih room count { sum }
  | times left mark right ihl ihr =>
    obtain ⟨rooml, roomr⟩ := room_of_binary room
    exact .times mark (ihl rooml) (ihr roomr)
  | product _ ih =>
    intro α count k _
    rw [ih room count none, bind_assoc]
    rfl
  | plus left mark right ihl ihr =>
    obtain ⟨rooml, roomr⟩ := room_of_binary room
    exact .plus mark (ihl rooml) (ihr roomr)

/-- **The value of tokens that spell a tree is the value of the tree,** and
their fault its fault, when the limit has room for the groups in it. -/
theorem value_of_derives {tokens : List Token} {e : Expression}
    (derives : Derives .sum (Token.body tokens) e) (room : ∀ n ∈ limit, e.nesting ≤ n) :
    value limit tokens = e.value := by
  have passes : Passes limit [] (Token.body tokens) e .sum :=
    passes_of_derives derives (by simpa using room)
  rw [value, if_neg derives.ne_nil, finish]
  refine (passes _ _ _ (appliesSum_halt _ _)).trans ?_
  exact bind_pure _

end Pushdown
end Reckoner

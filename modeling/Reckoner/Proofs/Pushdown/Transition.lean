/-
# What one token can do to the pass

A token either takes the pass from one configuration to the next, or it is
refused, or what it applies has no value.  `Takes` lists the first:

| due | token | then due |
| --- | --- | --- |
| an operand | a number | an operator, the product applied |
| an operand | `(` below the limit | an operand, in a new group |
| an operator | `*`, `/` | an operand |
| an operator | `+`, `-` | an operand, the sum applied |
| an operator | `)` in a group | an operator, the sum and then the product around applied |

`Configuration.Refuses` lists the second, by the kind of the token alone.  An
error of a step that is no refusal comes from a number or an operator, and is
never an unexpected token (`resolve_ne_unexpected`).
-/

import Reckoner.Proofs.Evaluation.Steps
import Reckoner.Proofs.Expression.Fault
import Reckoner.Proofs.Pushdown.Basic

namespace Reckoner
namespace Pushdown

open Evaluation (Rank not_limit_any_iff)

variable {α β : Type} {limit : Option Nat} {position q : Nat} {token : Token} {text : String}
  {operator : Operator} {c c' : Configuration} {frame : Frame} {outer : List Frame}
  {sum : Pending} {v : Int}

/-! ### Outcomes in sequence -/

/-- A sequence of two outcomes is a value when both are. -/
theorem bind_eq_ok {x : Except Error α} {f : α → Except Error β} {b : β} :
    x >>= f = .ok b ↔ ∃ a, x = .ok a ∧ f a = .ok b := by
  cases x with
  | ok a => exact ⟨fun h => ⟨a, rfl, h⟩, fun ⟨_, rfl, h⟩ => h⟩
  | error error => exact ⟨nofun, fun ⟨_, h, _⟩ => nomatch h⟩

/-- A sequence of two outcomes is an error when the first is, or else the second. -/
theorem bind_eq_error {x : Except Error α} {f : α → Except Error β} {error : Error} :
    x >>= f = .error error ↔ x = .error error ∨ ∃ a, x = .ok a ∧ f a = .error error := by
  cases x with
  | ok a => exact ⟨fun h => .inr ⟨a, rfl, h⟩, fun | .inr ⟨_, rfl, h⟩ => h⟩
  | error error' => exact ⟨fun | rfl => .inl rfl, fun | .inl rfl => rfl⟩

/-- An outcome with its error reworded is a value when the outcome is. -/
theorem mapError_eq_ok {ε ε' : Type} {x : Except ε α} {f : ε → ε'} {a : α} :
    x.mapError f = .ok a ↔ x = .ok a := by
  cases x <;> simp [Except.mapError]

/-! ### Ranks and kinds -/

/-- A token that ends a product goes on with a sum or ends it. -/
theorem additive_endsAt {kind : Token.Kind} (ends : Rank.multiplicative.endsAt kind = true)
    (mark : Rank.additive.operator? kind = none) : Rank.additive.endsAt kind = true := by
  revert ends mark
  cases kind <;> decide

/-- An operator of a sum ends a product. -/
theorem endsAt_of_additive {kind : Token.Kind}
    (mark : Rank.additive.operator? kind = some operator) :
    Rank.multiplicative.endsAt kind = true := by
  revert mark
  cases kind <;> first | exact fun _ => rfl | exact nofun

/-- Before the end, only a closing parenthesis ends a sum. -/
theorem eq_rightParen_of_endsAt {kind : Token.Kind} (ends : Rank.additive.endsAt kind = true)
    (more : kind ≠ .eof) : kind = .rightParen := by
  revert ends more
  cases kind <;> decide

/-- What neither goes on with a product nor ends it begins another operand. -/
theorem eq_operand_of_not_endsAt {kind : Token.Kind}
    (mark : Rank.multiplicative.operator? kind = none)
    (goes : Rank.multiplicative.endsAt kind = false) : kind = .number ∨ kind = .leftParen := by
  revert mark goes
  cases kind <;> decide

/-- The kinds of token that matter after an operand. -/
theorem kind_cases (kind : Token.Kind) :
    (∃ operator, Rank.multiplicative.operator? kind = some operator) ∨
      (∃ operator, Rank.additive.operator? kind = some operator) ∨
        kind = .rightParen ∨ kind = .number ∨ kind = .leftParen ∨ kind = .eof := by
  cases kind <;> simp [Rank.operator?]

/-! ### A step, kind by kind -/

theorem resolve_none (v : Int) : resolve none v = .ok v := rfl

/-- With nothing waiting, an operand is the product so far. -/
theorem accept_of_product_eq_none (sum : Pending) (outer : List Frame) (v : Int) :
    ({ sum } : Frame).accept outer v = .ok (.operatorDue v sum outer) := rfl

/-- An operand is accepted when what waits for it can be applied. -/
theorem accept_eq_ok : frame.accept outer v = .ok c ↔
    ∃ w, resolve frame.product v = .ok w ∧ c = .operatorDue w frame.sum outer := by
  rw [Frame.accept, bind_eq_ok]
  exact exists_congr fun w => and_congr_right fun _ => ⟨fun | rfl => rfl, fun | rfl => rfl⟩

theorem step_number (kind : token.kind = .number) :
    step limit position token (.operandDue frame outer) =
      (Numeral.read token.text).mapError (Error.malformedNumber token.text) >>=
        frame.accept outer := by
  simp only [step, kind]

theorem step_leftParen (kind : token.kind = .leftParen) :
    step limit position token (.operandDue frame outer) =
      if limit.any (· ≤ outer.length) then refuse position token
      else .ok (.operandDue {} (frame :: outer)) := by
  simp only [step, kind]

/-- Where an operand is due, anything but a number and a group is refused. -/
theorem step_operandDue_refuse (noNumber : token.kind ≠ .number)
    (noGroup : token.kind ≠ .leftParen) :
    step limit position token (.operandDue frame outer) = refuse position token := by
  cases kind : token.kind <;> first | exact absurd kind noNumber | exact absurd kind noGroup |
    simp only [step, kind]

theorem step_multiplicative (mark : Rank.multiplicative.operator? token.kind = some operator) :
    step limit position token (.operatorDue v sum outer) =
      .ok (.operandDue { sum, product := some (v, operator) } outer) := by
  cases kind : token.kind <;> rw [kind] at mark <;> cases mark <;> simp only [step, kind]

theorem step_additive (mark : Rank.additive.operator? token.kind = some operator) :
    step limit position token (.operatorDue v sum outer) =
      resolve sum v >>= fun total => .ok (.operandDue { sum := some (total, operator) } outer) := by
  cases kind : token.kind <;> rw [kind] at mark <;> cases mark <;> simp only [step, kind] <;> rfl

theorem step_rightParen_nil (kind : token.kind = .rightParen) :
    step limit position token (.operatorDue v sum []) =
      resolve sum v >>= fun _ => refuse position token := by
  simp only [step, kind]

theorem step_rightParen_cons (kind : token.kind = .rightParen) :
    step limit position token (.operatorDue v sum (frame :: outer)) =
      resolve sum v >>= frame.accept outer := by
  simp only [step, kind]

/-- After an operand, another one is refused. -/
theorem step_operatorDue_refuse
    (kind : token.kind = .number ∨ token.kind = .leftParen ∨ token.kind = .eof) :
    step limit position token (.operatorDue v sum outer) = refuse position token := by
  rcases kind with kind | kind | kind <;> simp only [step, kind]

/-- **A token that ends a product, the end apart, makes the sum be applied first.** -/
theorem step_operatorDue (ends : Rank.multiplicative.endsAt token.kind = true)
    (more : token.kind ≠ .eof) :
    step limit position token (.operatorDue v sum outer) =
      resolve sum v >>= fun total => step limit position token (.operatorDue total none outer) := by
  cases kind : token.kind <;> rw [kind] at ends more <;> cases ends <;>
    first | exact absurd rfl more | simp only [step, kind]; rfl

/-- So does the end. -/
theorem halt_operatorDue :
    halt position token (.operatorDue v sum outer) =
      resolve sum v >>= fun total => halt position token (.operatorDue total none outer) := rfl

/-! ### Taking a token -/

/-- The token takes the pass from one configuration to the next. -/
inductive Takes (limit : Option Nat) (token : Token) : Configuration → Configuration → Prop
  | number {frame : Frame} {outer : List Frame} {v w : Int} (kind : token.kind = .number)
    (read : Numeral.read token.text = .ok v) (applied : resolve frame.product v = .ok w) :
    Takes limit token (.operandDue frame outer) (.operatorDue w frame.sum outer)
  | opening {frame : Frame} {outer : List Frame} (kind : token.kind = .leftParen)
    (room : ∀ n ∈ limit, outer.length < n) :
    Takes limit token (.operandDue frame outer) (.operandDue {} (frame :: outer))
  | times {v : Int} {sum : Pending} {outer : List Frame} {operator : Operator}
    (mark : Rank.multiplicative.operator? token.kind = some operator) :
    Takes limit token (.operatorDue v sum outer)
      (.operandDue { sum, product := some (v, operator) } outer)
  | plus {v w : Int} {sum : Pending} {outer : List Frame} {operator : Operator}
    (mark : Rank.additive.operator? token.kind = some operator)
    (applied : resolve sum v = .ok w) :
    Takes limit token (.operatorDue v sum outer) (.operandDue { sum := some (w, operator) } outer)
  | closing {v w x : Int} {sum : Pending} {frame : Frame} {outer : List Frame}
    (kind : token.kind = .rightParen) (applied : resolve sum v = .ok w)
    (accepted : resolve frame.product w = .ok x) :
    Takes limit token (.operatorDue v sum (frame :: outer)) (.operatorDue x frame.sum outer)

/-- A token that is taken makes the step succeed. -/
theorem Takes.step_eq (takes : Takes limit token c c') :
    step limit position token c = .ok c' := by
  cases takes with
  | number kind read applied =>
    rw [step_number kind, mapError_eq_ok.2 read]
    exact accept_eq_ok.2 ⟨_, applied, rfl⟩
  | opening kind room => rw [step_leftParen kind, if_neg (not_limit_any_iff.2 room)]
  | times mark => exact step_multiplicative mark
  | plus mark applied =>
    rw [step_additive mark, applied]
    rfl
  | closing kind applied accepted =>
    rw [step_rightParen_cons kind, applied]
    exact accept_eq_ok.2 ⟨_, accepted, rfl⟩

/-- Where an operand is due, a step that succeeds takes a number or opens a group. -/
theorem takes_of_step_operandDue
    (h : step limit position token (.operandDue frame outer) = .ok c') :
    Takes limit token (.operandDue frame outer) c' := by
  by_cases number : token.kind = .number
  · rw [step_number number] at h
    obtain ⟨v, read, accepted⟩ := bind_eq_ok.1 h
    obtain ⟨w, applied, rfl⟩ := accept_eq_ok.1 accepted
    exact .number number (mapError_eq_ok.1 read) applied
  by_cases opens : token.kind = .leftParen
  · rw [step_leftParen opens] at h
    split at h
    next => cases h
    next room =>
      cases h
      exact .opening opens (not_limit_any_iff.1 room)
  · rw [step_operandDue_refuse number opens] at h
    cases h

/-- Where an operator is due, a step that succeeds takes one or closes a group. -/
theorem takes_of_step_operatorDue
    (h : step limit position token (.operatorDue v sum outer) = .ok c') :
    Takes limit token (.operatorDue v sum outer) c' := by
  rcases kind_cases token.kind with ⟨operator, mark⟩ | ⟨operator, mark⟩ | closes | refused
  · rw [step_multiplicative mark] at h
    cases h
    exact .times mark
  · rw [step_additive mark] at h
    obtain ⟨w, applied, eq⟩ := bind_eq_ok.1 h
    cases eq
    exact .plus mark applied
  · cases outer with
    | nil =>
      rw [step_rightParen_nil closes] at h
      obtain ⟨w, -, refused⟩ := bind_eq_ok.1 h
      cases refused
    | cons frame outer =>
      rw [step_rightParen_cons closes] at h
      obtain ⟨w, applied, accepted⟩ := bind_eq_ok.1 h
      obtain ⟨x, applied', rfl⟩ := accept_eq_ok.1 accepted
      exact .closing closes applied applied'
  · rw [step_operatorDue_refuse refused] at h
    cases h

/-- **A step succeeds exactly when the token is taken.** -/
theorem step_eq_ok_iff :
    step limit position token c = .ok c' ↔ Takes limit token c c' := by
  refine ⟨fun h => ?_, Takes.step_eq⟩
  cases c with
  | operandDue frame outer => exact takes_of_step_operandDue h
  | operatorDue v sum outer => exact takes_of_step_operatorDue h

/-! ### Refusing a token -/

/-- A token of this kind is refused, unless what it applies has no value. -/
def Configuration.Refuses (limit : Option Nat) (kind : Token.Kind) : Configuration → Prop
  | .operandDue _ outer =>
    kind ≠ .number ∧ ¬ (kind = .leftParen ∧ ∀ n ∈ limit, outer.length < n)
  | .operatorDue _ _ outer =>
    kind = .number ∨ kind = .leftParen ∨ (kind = .rightParen ∧ outer = []) ∨
      (kind = .eof ∧ outer ≠ [])

/-- Applying an operator never makes a token unexpected. -/
theorem resolve_ne_unexpected {pending : Pending} :
    resolve pending v ≠ .error (.unexpectedToken text q) := by
  rcases pending with - | ⟨left, operator⟩
  · nofun
  · intro h
    rcases Operator.apply_eq_error_iff.1 h with ⟨-, eq⟩ | ⟨-, -, eq⟩ <;> cases eq

theorem accept_ne_unexpected : frame.accept outer v ≠ .error (.unexpectedToken text q) := by
  intro h
  rcases bind_eq_error.1 h with h | ⟨w, -, h⟩
  · exact resolve_ne_unexpected h
  · cases h

/-- A token that is taken is not refused. -/
theorem Takes.not_refuses (takes : Takes limit token c c') : ¬ c.Refuses limit token.kind := by
  cases takes with
  | number kind => simp [Configuration.Refuses, kind]
  | opening kind room => exact fun refuses => refuses.2 ⟨kind, room⟩
  | times mark =>
    revert mark
    cases token.kind <;> simp [Configuration.Refuses, Rank.operator?]
  | plus mark =>
    revert mark
    cases token.kind <;> simp [Configuration.Refuses, Rank.operator?]
  | closing kind => simp [Configuration.Refuses, kind]

theorem refuses_of_step_operandDue
    (h : step limit position token (.operandDue frame outer) = .error (.unexpectedToken text q)) :
    (Configuration.operandDue frame outer).Refuses limit token.kind ∧
      text = token.text ∧ q = position := by
  by_cases number : token.kind = .number
  · rw [step_number number] at h
    rcases bind_eq_error.1 h with h | ⟨v, -, h⟩
    · cases read : Numeral.read token.text <;> rw [read] at h <;> cases h
    · exact absurd h accept_ne_unexpected
  by_cases opens : token.kind = .leftParen
  · rw [step_leftParen opens] at h
    split at h
    next full =>
      cases h
      exact ⟨⟨number, fun both => not_limit_any_iff.2 both.2 full⟩, rfl, rfl⟩
    next => cases h
  · rw [step_operandDue_refuse number opens] at h
    cases h
    exact ⟨⟨number, fun both => opens both.1⟩, rfl, rfl⟩

theorem refuses_of_step_operatorDue (more : token.kind ≠ .eof)
    (h : step limit position token (.operatorDue v sum outer) =
      .error (.unexpectedToken text q)) :
    (Configuration.operatorDue v sum outer).Refuses limit token.kind ∧
      text = token.text ∧ q = position := by
  rcases kind_cases token.kind with ⟨operator, mark⟩ | ⟨operator, mark⟩ | closes | refused
  · rw [step_multiplicative mark] at h
    cases h
  · rw [step_additive mark] at h
    rcases bind_eq_error.1 h with h | ⟨w, -, h⟩
    · exact absurd h resolve_ne_unexpected
    · cases h
  · cases outer with
    | nil =>
      rw [step_rightParen_nil closes] at h
      rcases bind_eq_error.1 h with h | ⟨w, -, h⟩
      · exact absurd h resolve_ne_unexpected
      · cases h
        exact ⟨.inr (.inr (.inl ⟨closes, rfl⟩)), rfl, rfl⟩
    | cons frame outer =>
      rw [step_rightParen_cons closes] at h
      rcases bind_eq_error.1 h with h | ⟨w, -, h⟩
      · exact absurd h resolve_ne_unexpected
      · exact absurd h accept_ne_unexpected
  · rw [step_operatorDue_refuse refused] at h
    cases h
    rcases refused with number | opens | atEnd
    · exact ⟨.inl number, rfl, rfl⟩
    · exact ⟨.inr (.inl opens), rfl, rfl⟩
    · exact absurd atEnd more

/-- **An unexpected token is the one that is refused,** and no other error says so. -/
theorem refuses_of_step (more : token.kind ≠ .eof)
    (h : step limit position token c = .error (.unexpectedToken text q)) :
    c.Refuses limit token.kind ∧ text = token.text ∧ q = position := by
  cases c with
  | operandDue frame outer => exact refuses_of_step_operandDue h
  | operatorDue v sum outer => exact refuses_of_step_operatorDue more h

/-- The end is refused where an operand is due or a group is open. -/
theorem refuses_of_halt (limit : Option Nat) (atEnd : token.kind = .eof)
    (h : halt position token c = .error (.unexpectedToken text q)) :
    c.Refuses limit token.kind ∧ text = token.text ∧ q = position := by
  cases c with
  | operandDue frame outer =>
    cases h
    simp [Configuration.Refuses, atEnd]
  | operatorDue v sum outer =>
    rcases bind_eq_error.1 h with h | ⟨w, -, h⟩
    · exact absurd h resolve_ne_unexpected
    · cases outer with
      | nil => cases h
      | cons frame outer =>
        cases h
        simp [Configuration.Refuses, atEnd]

/-- Where the end has a value it is not refused. -/
theorem not_refuses_of_halt (atEnd : token.kind = .eof) (h : halt position token c = .ok v) :
    ¬ c.Refuses limit token.kind := by
  cases c with
  | operandDue frame outer => cases h
  | operatorDue x sum outer =>
    obtain ⟨w, -, h⟩ := bind_eq_ok.1 h
    cases outer with
    | nil => simp [Configuration.Refuses, atEnd]
    | cons frame outer => cases h

end Pushdown
end Reckoner

/-
# Completing what has been read

Whatever a pass has read can be completed to an expression with the value `1`.
What waits in a group is disposed of from the inside out, and no step on the way
leaves the representable integers or divides by zero:

| tokens | what they do |
| --- | --- |
| `* 0` | make the product `0`, so that the sum so far is what waited, `l`, or `0` |
| `- l` | make the sum `0` |
| `+ 1` | make the sum `1` |
| `)` | hand the `1` to the product that waits in the group around |

A product takes a `1` whether it multiplies or divides by it.  That needs two
facts on what waits, and a step keeps them (`Takes.sound`): the left operand is
representable, and its operator is one of the rank that it waits for.
-/

import Reckoner.Proofs.Numeral.Decimal
import Reckoner.Proofs.Pushdown.Simulation

namespace Reckoner
namespace Pushdown

open Evaluation (Rank)
open Integer (Representable)

/-! ### What waits -/

/-- What waits for an operand of this rank: a representable integer, and an
operator of the rank. -/
def Pending.Sound (rank : Rank) (pending : Pending) : Prop :=
  ∀ left operator, pending = some (left, operator) →
    Representable left ∧ ∃ kind, rank.operator? kind = some operator

/-- What waits in a group is sound. -/
structure Frame.Sound (frame : Frame) : Prop where
  sum : frame.sum.Sound .additive
  product : frame.product.Sound .multiplicative

/-- The value is representable, and what waits is sound in every group. -/
def Configuration.Sound : Configuration → Prop
  | .operandDue frame outer => frame.Sound ∧ ∀ f ∈ outer, f.Sound
  | .operatorDue value sum outer =>
    Representable value ∧ sum.Sound .additive ∧ ∀ f ∈ outer, f.Sound

variable {limit : Option Nat} {count : Nat} {token : Token} {tokens : List Token}
  {c c' : Configuration} {rank : Rank} {pending sum : Pending} {outer : List Frame} {v w : Int}
  {operator : Operator} {kind : Token.Kind}

theorem sound_none (rank : Rank) : Pending.Sound rank none := nofun

theorem sound_some (representable : Representable v) (mark : rank.operator? kind = some operator) :
    Pending.Sound rank (some (v, operator)) := by
  rintro left operator ⟨⟩
  exact ⟨representable, kind, mark⟩

/-- What is applied gives a representable integer. -/
theorem representable_of_resolve (representable : Representable v)
    (applied : resolve pending v = .ok w) : Representable w := by
  rcases pending with - | ⟨left, operator⟩
  · cases applied
    exact representable
  · exact (Operator.apply_eq_ok_iff.1 applied).2.2

/-- Before the first token nothing waits. -/
theorem sound_start : Configuration.start.Sound :=
  ⟨⟨sound_none _, sound_none _⟩, by simp⟩

/-- **A step keeps what waits sound.** -/
theorem Takes.sound (takes : Takes limit token c c') (sound : c.Sound) : c'.Sound := by
  cases takes with
  | number kind read applied =>
    obtain ⟨frame_sound, outer_sound⟩ := sound
    have representable := Numeral.representable_of_read read
    exact ⟨representable_of_resolve representable applied, frame_sound.sum, outer_sound⟩
  | opening kind room =>
    obtain ⟨frame_sound, outer_sound⟩ := sound
    exact ⟨⟨sound_none _, sound_none _⟩, List.forall_mem_cons.2 ⟨frame_sound, outer_sound⟩⟩
  | times mark =>
    obtain ⟨representable, sum_sound, outer_sound⟩ := sound
    exact ⟨⟨sum_sound, sound_some representable mark⟩, outer_sound⟩
  | plus mark applied =>
    obtain ⟨representable, -, outer_sound⟩ := sound
    have total := representable_of_resolve representable applied
    exact ⟨⟨sound_some total mark, sound_none _⟩, outer_sound⟩
  | closing kind applied accepted =>
    obtain ⟨representable, -, outer_sound⟩ := sound
    obtain ⟨frame_sound, outer_sound⟩ := List.forall_mem_cons.1 outer_sound
    have total := representable_of_resolve representable applied
    exact ⟨representable_of_resolve total accepted, frame_sound.sum, outer_sound⟩

/-- **A pass keeps what waits sound.** -/
theorem sound_of_read (sound : c.Sound) (h : read limit count tokens c = .ok c') : c'.Sound := by
  induction tokens generalizing count c with
  | nil =>
    cases h
    exact sound
  | cons token tokens ih =>
    obtain ⟨c₁, stepped, going⟩ := bind_eq_ok.1 h
    exact ih ((step_eq_ok_iff.1 stepped).sound sound) going

/-! ### Tokens that are taken -/

theorem Takes.read_eq (takes : Takes limit token c c') (count : Nat) (tokens : List Token) :
    read limit count (token :: tokens) c = read limit (count + 1) tokens c' := by
  rw [read_cons, takes.step_eq]
  rfl

/-- The end is not taken. -/
theorem Takes.ne_eof (takes : Takes limit token c c') : token.kind ≠ .eof := by
  cases takes with
  | number kind | opening kind | closing kind => rw [kind]; decide
  | times mark | plus mark => exact Rank.ne_eof_of_operator? mark

theorem Takes.finish_eq (takes : Takes limit token c c') (count : Nat) (tokens : List Token) :
    finish limit count (token :: tokens) c = finish limit (count + 1) tokens c' := by
  rw [finish_cons_of_ne takes.ne_eof, takes.step_eq]
  rfl

/-! ### Disposing of what waits -/

/-- The left operand that waits, `0` if there is none. -/
def Pending.left (pending : Pending) : Int := pending.elim 0 Prod.fst

theorem Pending.Sound.representable (sound : pending.Sound rank) : Representable pending.left := by
  rcases pending with - | ⟨left, operator⟩
  · decide
  · exact (sound left operator rfl).1

/-- A sum takes a `0` without a change. -/
theorem resolve_zero (sound : sum.Sound .additive) : resolve sum 0 = .ok sum.left := by
  rcases sum with - | ⟨left, operator⟩
  · rfl
  · obtain ⟨representable, kind, mark⟩ := sound left operator rfl
    refine Operator.apply_eq_ok_iff.2 ⟨?_, ?_, representable⟩
    · rintro rfl
      cases kind <;> cases mark
    · cases kind <;> cases mark
      · exact Int.add_zero left
      · exact Int.sub_zero left

/-- A product takes a `1` without a change. -/
theorem exists_resolve_one (sound : pending.Sound .multiplicative) :
    ∃ w, resolve pending 1 = .ok w := by
  rcases pending with - | ⟨left, operator⟩
  · exact ⟨1, rfl⟩
  · obtain ⟨representable, kind, mark⟩ := sound left operator rfl
    refine ⟨left, Operator.apply_eq_ok_iff.2 ⟨fun _ => by decide, ?_, representable⟩⟩
    cases kind <;> cases mark
    · exact Int.mul_one left
    · exact Int.tdiv_one left

/-- The tokens after which the sum of a group is `0 + 1`. -/
def settling (sum : Pending) : List Token :=
  [⟨.multiply, "*"⟩, ⟨.number, "0"⟩, ⟨.minus, "-"⟩, ⟨.number, toString sum.left⟩, ⟨.plus, "+"⟩,
    ⟨.number, "1"⟩]

/-- **After a value the sum of a group can be settled,** whatever waits in it. -/
theorem read_settling (limit : Option Nat) (count : Nat) (v : Int) (sound : sum.Sound .additive)
    (outer : List Frame) :
    read limit count (settling sum) (.operatorDue v sum outer) =
      .ok (.operatorDue 1 (some (0, .add)) outer) := by
  have product : resolve (some (v, .multiply)) 0 = .ok 0 :=
    Operator.apply_eq_ok_iff.2 ⟨nofun, Int.mul_zero v, by decide⟩
  have difference : resolve (some (sum.left, .subtract)) sum.left = .ok 0 :=
    Operator.apply_eq_ok_iff.2 ⟨nofun, Int.sub_self sum.left, by decide⟩
  have times : Takes limit ⟨.multiply, "*"⟩ (.operatorDue v sum outer)
      (.operandDue { sum, product := some (v, .multiply) } outer) := .times rfl
  have zero : Takes limit ⟨.number, "0"⟩ (.operandDue { sum, product := some (v, .multiply) } outer)
      (.operatorDue 0 sum outer) := .number rfl (by decide +kernel) product
  have minus : Takes limit ⟨.minus, "-"⟩ (.operatorDue 0 sum outer)
      (.operandDue { sum := some (sum.left, .subtract) } outer) := .plus rfl (resolve_zero sound)
  have left : Takes limit ⟨.number, toString sum.left⟩
      (.operandDue { sum := some (sum.left, .subtract) } outer)
      (.operatorDue sum.left (some (sum.left, .subtract)) outer) :=
    .number rfl (Numeral.read_toString sound.representable) rfl
  have plus : Takes limit ⟨.plus, "+"⟩ (.operatorDue sum.left (some (sum.left, .subtract)) outer)
      (.operandDue { sum := some (0, .add) } outer) := .plus rfl difference
  have one : Takes limit ⟨.number, "1"⟩ (.operandDue { sum := some (0, .add) } outer)
      (.operatorDue 1 (some (0, .add)) outer) := .number rfl (by decide +kernel) rfl
  rw [settling, times.read_eq, zero.read_eq, minus.read_eq, left.read_eq, plus.read_eq,
    one.read_eq]
  rfl

/-- The tokens that settle a group and the groups around it. -/
def closing (sum : Pending) : List Frame → List Token
  | [] => settling sum
  | frame :: outer => settling sum ++ ⟨.rightParen, ")"⟩ :: closing frame.sum outer

/-- The tokens that complete an expression. -/
def Configuration.completion : Configuration → List Token
  | .operandDue frame outer => ⟨.number, "1"⟩ :: closing frame.sum outer
  | .operatorDue _ sum outer => closing sum outer

theorem ne_eof_of_mem_settling (sum : Pending) : ∀ t ∈ settling sum, t.kind ≠ .eof := by
  simp [settling]

/-- **After a value the groups can be closed,** from the inside out. -/
theorem finish_closing (limit : Option Nat) (count : Nat) (v : Int) (sound : sum.Sound .additive)
    (outer_sound : ∀ f ∈ outer, f.Sound) :
    finish limit count (closing sum outer) (.operatorDue v sum outer) = .ok 1 := by
  induction outer generalizing count v sum with
  | nil =>
    rw [closing, ← List.append_nil (settling sum), finish_append (ne_eof_of_mem_settling sum),
      read_settling limit count v sound]
    rfl
  | cons frame outer ih =>
    obtain ⟨frame_sound, outer_sound⟩ := List.forall_mem_cons.1 outer_sound
    obtain ⟨w, accepted⟩ := exists_resolve_one frame_sound.product
    have closes : Takes limit ⟨.rightParen, ")"⟩
        (.operatorDue 1 (some (0, .add)) (frame :: outer)) (.operatorDue w frame.sum outer) :=
      .closing rfl rfl accepted
    rw [closing, finish_append (ne_eof_of_mem_settling sum), read_settling limit count v sound]
    show finish limit _ (⟨.rightParen, ")"⟩ :: closing frame.sum outer) _ = _
    rw [closes.finish_eq]
    exact ih (count + (settling sum).length + 1) w frame_sound.sum outer_sound

/-- **What has been read can be completed.** -/
theorem finish_completion (limit : Option Nat) (count : Nat) (sound : c.Sound) :
    finish limit count c.completion c = .ok 1 := by
  cases c with
  | operatorDue v sum outer =>
    obtain ⟨-, sum_sound, outer_sound⟩ := sound
    exact finish_closing limit count v sum_sound outer_sound
  | operandDue frame outer =>
    obtain ⟨frame_sound, outer_sound⟩ := sound
    obtain ⟨w, applied⟩ := exists_resolve_one frame_sound.product
    have one : Takes limit ⟨.number, "1"⟩ (.operandDue frame outer)
        (.operatorDue w frame.sum outer) := .number rfl (by decide +kernel) applied
    rw [Configuration.completion, one.finish_eq]
    exact finish_closing limit (count + 1) w frame_sound.sum outer_sound

end Pushdown
end Reckoner

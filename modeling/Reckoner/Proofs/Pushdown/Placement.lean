/-
# Unexpected tokens are misplaced tokens

Where a token may stand depends on the tokens before it alone: on the last of
them, and on the number of groups that are open (`Token.Misplaced`).  The pass
refuses by its configuration.  The two agree, because a configuration keeps
track of the tokens it has taken (`Tracks`):

| configuration | tokens taken |
| --- | --- |
| an operand is due | `Token.OperandDue` |
| frames on the stack | `Token.balance` |

One step keeps track of its token (`Takes.tracks`), so a pass keeps track of
all of them.  A pass that goes through has met no misplaced token
(`not_misplaced_of_read`), and one that ends at an unexpected token has met none
before it (`misplaced_of_read`).  So an evaluation has a value only when no
token is misplaced, and the unexpected token is always the first misplaced one.
-/

import Reckoner.Proofs.Expression.Nesting
import Reckoner.Proofs.Pushdown.Simulation

namespace Reckoner

namespace Token

/-- Whether an operand is due is decided by the last token. -/
theorem operandDue_concat (tokens : List Token) (token : Token) :
    OperandDue (tokens ++ [token]) ↔
      token.kind = .leftParen ∨ token.kind.operator?.isSome = true := by
  simp [OperandDue]

end Token

namespace Pushdown

open Token (balance OperandDue Misplaced MisplacedAt body ending)

/-- The number of groups that are open. -/
def Configuration.depth : Configuration → Nat
  | .operandDue _ outer => outer.length
  | .operatorDue _ _ outer => outer.length

/-- Whether an operand is due. -/
def Configuration.Due : Configuration → Prop
  | .operandDue _ _ => True
  | .operatorDue _ _ _ => False

/-- The configuration is one after these tokens. -/
structure Tracks (c : Configuration) (before : List Token) : Prop where
  balance_eq : balance before = c.depth
  operandDue_iff : OperandDue before ↔ c.Due

variable {limit : Nat} {limit? : Option Nat} {count position q : Nat} {token : Token}
  {tokens before : List Token} {text : String} {c c' : Configuration} {v : Int}

/-- Before the first token an operand is due and no group is open. -/
theorem tracks_start : Tracks .start [] where
  balance_eq := rfl
  operandDue_iff := by simp [OperandDue, Configuration.start, Configuration.Due]

/-- **A step keeps track of its token.** -/
theorem Takes.tracks (takes : Takes limit? token c c') (tracks : Tracks c before) :
    Tracks c' (before ++ [token]) := by
  have balance_eq := tracks.balance_eq
  cases takes with
  | number kind =>
    constructor
    · rw [Token.balance_concat_of_ne before (by rw [kind]; decide) (by rw [kind]; decide)]
      exact balance_eq
    · rw [Token.operandDue_concat, kind]
      exact iff_of_false (by decide) id
  | @opening frame outer kind =>
    constructor
    · rw [Token.balance_concat_of_leftParen before kind, balance_eq]
      exact (Int.natCast_succ outer.length).symm
    · rw [Token.operandDue_concat]
      exact iff_of_true (.inl kind) trivial
  | times mark | plus mark =>
    obtain ⟨operator, noOpening, noClosing⟩ := Evaluation.Rank.operator_of_operator? mark
    constructor
    · rw [Token.balance_concat_of_ne before noOpening noClosing]
      exact balance_eq
    · rw [Token.operandDue_concat]
      exact iff_of_true (.inr operator) trivial
  | @closing v w x sum frame outer kind =>
    constructor
    · rw [Token.balance_concat_of_rightParen before kind, balance_eq]
      show ((outer.length + 1 : Nat) : Int) - 1 = outer.length
      omega
    · rw [Token.operandDue_concat, kind]
      exact iff_of_false (by decide) id

/-- **What is refused is misplaced.** -/
theorem Tracks.refuses_iff (tracks : Tracks c before) :
    c.Refuses (some limit) token.kind ↔ Misplaced limit before token := by
  rw [Misplaced, tracks.balance_eq, tracks.operandDue_iff]
  cases c with
  | operandDue frame outer =>
    simp [Configuration.Refuses, Configuration.Due, Configuration.depth]
  | operatorDue v sum outer =>
    have some_open : (1 : Int) ≤ outer.length ↔ outer ≠ [] := by
      rw [← List.length_pos_iff]
      omega
    simp [Configuration.Refuses, Configuration.Due, Configuration.depth, some_open]

/-! ### Passes -/

/-- **A pass that goes through has met no misplaced token,** and keeps track of
all tokens. -/
theorem not_misplaced_of_read (tracks : Tracks c before)
    (h : read (some limit) count tokens c = .ok c') :
    Tracks c' (before ++ tokens) ∧
      ∀ i t, tokens[i]? = some t → ¬ Misplaced limit (before ++ tokens.take i) t := by
  induction tokens generalizing count c before with
  | nil =>
    cases h
    exact ⟨by simpa using tracks, by simp⟩
  | cons token tokens ih =>
    obtain ⟨c₁, stepped, going⟩ := bind_eq_ok.1 h
    have takes := step_eq_ok_iff.1 stepped
    obtain ⟨tracks', placed⟩ := ih (takes.tracks tracks) going
    refine ⟨by simpa using tracks', fun i t found => ?_⟩
    cases i with
    | zero =>
      cases found
      rw [List.take_zero, List.append_nil, ← tracks.refuses_iff]
      exact takes.not_refuses
    | succ i => simpa using placed i t found

/-- **A pass that ends at an unexpected token ends at the first misplaced one.** -/
theorem misplaced_of_read (tracks : Tracks c before) (more : ∀ t ∈ tokens, t.kind ≠ .eof)
    (h : read (some limit) count tokens c = .error (.unexpectedToken text q)) :
    ∃ i t, tokens[i]? = some t ∧ Misplaced limit (before ++ tokens.take i) t ∧
      (∀ j < i, ∀ u, tokens[j]? = some u → ¬ Misplaced limit (before ++ tokens.take j) u) ∧
        text = t.text ∧ q = count + i + 1 := by
  induction tokens generalizing count c before with
  | nil => cases h
  | cons token tokens ih =>
    rcases bind_eq_error.1 h with stopped | ⟨c₁, stepped, going⟩
    · obtain ⟨refuses, rfl, rfl⟩ := refuses_of_step (more token List.mem_cons_self) stopped
      refine ⟨0, token, rfl, ?_, by simp, rfl, rfl⟩
      rwa [List.take_zero, List.append_nil, ← tracks.refuses_iff]
    · have takes := step_eq_ok_iff.1 stepped
      obtain ⟨i, t, found, misplaced, first, text_eq, q_eq⟩ :=
        ih (takes.tracks tracks) (fun t mem => more t (List.mem_cons_of_mem _ mem)) going
      refine ⟨i + 1, t, found, by simpa using misplaced, fun j lt u found' => ?_, text_eq,
        by omega⟩
      cases j with
      | zero =>
        cases found'
        rw [List.take_zero, List.append_nil, ← tracks.refuses_iff]
        exact takes.not_refuses
      | succ j => simpa using first j (by omega) u found'

/-! ### Evaluations -/

/-- A misplaced token of a sequence stands before the end, or is the end. -/
theorem misplacedAt_iff {i : Nat} :
    MisplacedAt limit tokens i ↔
      (∃ t, (body tokens)[i]? = some t ∧ Misplaced limit ((body tokens).take i) t) ∨
        (i = (body tokens).length ∧ Misplaced limit (body tokens) (ending tokens)) := by
  rw [MisplacedAt]
  rcases Nat.lt_trichotomy i (body tokens).length with lt | rfl | gt
  · simp [lt, Nat.le_of_lt lt, Nat.ne_of_lt lt]
  · simp
  · simp [Nat.not_le_of_lt gt, Nat.ne_of_gt gt, Nat.le_of_lt gt]

variable (nonempty : body tokens ≠ [])
include nonempty

/-- **An evaluation with a value has no misplaced token.** -/
theorem not_misplacedAt_of_value (h : value (some limit) tokens = .ok v) (i : Nat) :
    ¬ MisplacedAt limit tokens i := by
  rw [value, if_neg nonempty] at h
  obtain ⟨c, passed, halted⟩ := bind_eq_ok.1 h
  obtain ⟨tracks, placed⟩ := not_misplaced_of_read tracks_start passed
  rw [List.nil_append] at tracks
  rw [misplacedAt_iff]
  rintro (⟨t, found, misplaced⟩ | ⟨-, misplaced⟩)
  · exact placed i t found misplaced
  · exact not_refuses_of_halt (Token.ending_kind tokens) halted (tracks.refuses_iff.2 misplaced)

/-- **An unexpected token is the first misplaced one,** and is reported with its
text and the number of tokens up to it. -/
theorem misplacedAt_of_value (h : value (some limit) tokens = .error (.unexpectedToken text q)) :
    ∃ i, MisplacedAt limit tokens i ∧ (∀ j < i, ¬ MisplacedAt limit tokens j) ∧
      text = ((body tokens)[i]?.getD (ending tokens)).text ∧ q = i + 1 := by
  rw [value, if_neg nonempty] at h
  rcases bind_eq_error.1 h with stopped | ⟨c, passed, refused⟩
  · obtain ⟨i, t, found, misplaced, first, rfl, rfl⟩ :=
      misplaced_of_read tracks_start (fun t => Token.ne_eof_of_mem_body) stopped
    have lt := (List.getElem?_eq_some_iff.1 found).1
    refine ⟨i, misplacedAt_iff.2 (.inl ⟨t, found, misplaced⟩), fun j less misplaced => ?_,
      by rw [found]; rfl, by omega⟩
    rcases misplacedAt_iff.1 misplaced with ⟨u, found, misplaced⟩ | ⟨rfl, -⟩
    · exact first j less u found misplaced
    · omega
  · obtain ⟨tracks, placed⟩ := not_misplaced_of_read tracks_start passed
    obtain ⟨refuses, rfl, rfl⟩ := refuses_of_halt (some limit) (Token.ending_kind tokens) refused
    rw [List.nil_append] at tracks
    refine ⟨_, misplacedAt_iff.2 (.inr ⟨rfl, tracks.refuses_iff.1 refuses⟩),
      fun j less misplaced => ?_, by simp, by omega⟩
    rcases misplacedAt_iff.1 misplaced with ⟨u, found, misplaced⟩ | ⟨rfl, -⟩
    · exact placed j u found misplaced
    · omega

end Pushdown

namespace Evaluation

/-- **The first misplaced token decides.**  Without tokens the value is `0`.
With none misplaced there is no unexpected token.  With one misplaced there is
no value, and the unexpected token, unless some other error comes first, is the
first misplaced one. -/
theorem unexpected_is_first_misplaced (tokens : List Token) :
    (Token.body tokens = [] → evaluate tokens = .ok 0) ∧
      (Token.body tokens ≠ [] → (∀ i, ¬ Token.MisplacedAt maxNesting tokens i) →
        ∀ text position, evaluate tokens ≠ .error (.unexpectedToken text position)) ∧
      ∀ k, Token.body tokens ≠ [] → Token.MisplacedAt maxNesting tokens k →
        (∀ i < k, ¬ Token.MisplacedAt maxNesting tokens i) →
          (∀ v, evaluate tokens ≠ .ok v) ∧
            ∀ text position, evaluate tokens = .error (.unexpectedToken text position) →
              text = ((Token.body tokens)[k]?.getD (Token.ending tokens)).text ∧
                position = k + 1 := by
  rw [evaluate, Pushdown.evaluateWithin_eq_value]
  refine ⟨fun empty => by rw [Pushdown.value, if_pos empty],
    fun nonempty placed text position unexpected => ?_,
    fun k nonempty misplaced first => ⟨fun v outcome => ?_, fun text position unexpected => ?_⟩⟩
  · obtain ⟨i, misplaced, -⟩ := Pushdown.misplacedAt_of_value nonempty unexpected
    exact placed i misplaced
  · exact Pushdown.not_misplacedAt_of_value nonempty outcome k misplaced
  · obtain ⟨i, misplaced', first', text_eq, position_eq⟩ :=
      Pushdown.misplacedAt_of_value nonempty unexpected
    have least : ¬ i < k := fun less => first i less misplaced'
    have least' : ¬ k < i := fun less => first' k less misplaced
    obtain rfl : i = k := by omega
    exact ⟨text_eq, position_eq⟩

/-- In `2 + * 3` the third token is the first one that is misplaced. -/
theorem second_operator_is_misplaced :
    (∀ v, evaluate [⟨.number, "2"⟩, ⟨.plus, "+"⟩, ⟨.multiply, "*"⟩, ⟨.number, "3"⟩] ≠ .ok v) ∧
      ∀ text position, evaluate [⟨.number, "2"⟩, ⟨.plus, "+"⟩, ⟨.multiply, "*"⟩, ⟨.number, "3"⟩] =
        .error (.unexpectedToken text position) → text = "*" ∧ position = 3 := by
  refine (unexpected_is_first_misplaced _).2.2 2 (by decide) ?_ ?_
  · simp [Token.MisplacedAt, Token.Misplaced, Token.OperandDue, Token.body, Token.Kind.operator?]
  · intro i less
    rcases (show i = 0 ∨ i = 1 by omega) with rfl | rfl <;>
      simp [Token.MisplacedAt, Token.Misplaced, Token.OperandDue, Token.body,
        Token.Kind.operator?]

end Evaluation
end Reckoner

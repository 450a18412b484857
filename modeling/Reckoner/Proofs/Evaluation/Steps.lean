/-
# How an evaluation goes on

An evaluation is a chain of steps, and the first step that fails ends it.
Two views of that are used.  `run_bind_eq_ok` takes a chain that has succeeded
apart, step by step.  `proceed` says what comes of a step, whether it succeeds
or not, given what is to come after it; equations between outcomes are stated
with it.

What a state has not read yet is `State.unread`.  Reading takes the first token
off it (`unread_eq_cons`), and at its end nothing but the end token is read.
-/

import Reckoner.Evaluation
import Reckoner.Proofs.Token.Body
import Mathlib.Data.List.Basic

namespace Reckoner
namespace Evaluation

variable {α β : Type}

/-- **A chain succeeds exactly when its steps succeed in turn.** -/
theorem run_bind_eq_ok {x : Eval α} {f : α → Eval β} {s s' : State} {b : β} :
    (x >>= f).run s = .ok b s' ↔ ∃ a t, x.run s = .ok a t ∧ (f a).run t = .ok b s' := by
  rw [EStateM.run_bind]
  cases x.run s with
  | ok a t => simp
  | error error t => simp

/-- A chain that begins by reading goes on with the token read. -/
theorem run_next_bind (f : Token → Eval α) (s : State) :
    (next >>= f).run s = (f s.cursor.current).run (s.move .next) := rfl

/-- Lifting a result keeps the state. -/
theorem run_ofExcept (x : Except Error α) (s : State) :
    (ofExcept x : Eval α).run s =
      match x with
      | .ok a => .ok a s
      | .error error => .error error s := by
  cases x <;> rfl

/-- A lifted result succeeds exactly when it is a value, and keeps the state. -/
theorem run_ofExcept_eq_ok {x : Except Error α} {s s' : State} {a : α} :
    (ofExcept x : Eval α).run s = .ok a s' ↔ x = .ok a ∧ s' = s := by
  rw [run_ofExcept]
  cases x <;> simp [eq_comm]

/-- The outcome of a step and of what comes after it. -/
def proceed (result : EStateM.Result Error State α) (k : α → State → Except Error β) :
    Except Error β :=
  match result with
  | .ok a s => k a s
  | .error error _ => .error error

@[simp]
theorem proceed_ok (a : α) (s : State) (k : α → State → Except Error β) :
    proceed (.ok a s) k = k a s := rfl

/-- A chain proceeds step by step. -/
theorem proceed_bind (x : Eval α) (f : α → Eval β) (s : State) {γ : Type}
    (k : β → State → Except Error γ) :
    proceed ((x >>= f).run s) k = proceed (x.run s) fun a t => proceed ((f a).run t) k := by
  rw [EStateM.run_bind]
  cases x.run s <;> rfl

/-- A lifted result proceeds as the result does. -/
theorem proceed_ofExcept (x : Except Error α) (s : State) (k : α → State → Except Error β) :
    proceed ((ofExcept x : Eval α).run s) k = x >>= fun a => k a s := by
  cases x <;> rfl

/-- What comes after a step matters only at what the step can yield. -/
theorem proceed_congr {result : EStateM.Result Error State α}
    {k k' : α → State → Except Error β}
    (agree : ∀ a s, result = .ok a s → k a s = k' a s) :
    proceed result k = proceed result k' := by
  cases result with
  | ok a s => exact agree a s rfl
  | error error s => rfl

/-- The test for a full limit fails when there is room for one more group. -/
theorem not_limit_any_iff {limit : Option Nat} {depth : Nat} :
    ¬ limit.any (· ≤ depth) = true ↔ ∀ n ∈ limit, depth < n := by
  cases limit <;> simp

namespace State

/-- The tokens that are still to be read. -/
def unread (s : State) : List Token := s.cursor.tokens.toList.drop s.cursor.position

@[simp]
theorem depth_move (s : State) (m : Cursor.Move) : (s.move m).depth = s.depth := rfl

@[simp]
theorem cursor_move (s : State) (m : Cursor.Move) : (s.move m).cursor = s.cursor.move m := rfl

@[simp]
theorem position_move_next (s : State) :
    (s.move .next).cursor.position = s.cursor.position + 1 := rfl

@[simp]
theorem unread_start (tokens : List Token) : (start tokens).unread = tokens := rfl

theorem remaining_eq (s : State) : s.cursor.remaining = s.unread.length := by
  simp [Cursor.remaining, unread]

/-- The token at the cursor is the first unread one, or the end token. -/
theorem current_eq (s : State) : s.cursor.current = s.unread.head?.getD Token.eof := by
  simp [Cursor.current, unread]

/-- With nothing left to read, the end token is read. -/
theorem current_eq_eof {s : State} (h : s.cursor.remaining ≤ 0) : s.cursor.current = Token.eof := by
  rw [remaining_eq, Nat.le_zero, List.length_eq_zero_iff] at h
  rw [current_eq, h]
  rfl

/-- Nothing stands before the end exactly when the end is read next. -/
theorem body_unread_eq_nil_iff (s : State) :
    Token.body s.unread = [] ↔ s.cursor.current.kind = .eof := by
  rw [current_eq]
  cases s.unread with
  | nil => exact iff_of_true rfl rfl
  | cons token tokens =>
    by_cases h : token.kind = .eof
    · simp [Token.body_cons_of_eof h, h]
    · simp [Token.body_cons_of_ne h, h]

theorem unread_move_next (s : State) : (s.move .next).unread = s.unread.tail := by
  simp [unread, Cursor.move]

/-- What is unread depends on the cursor alone. -/
theorem unread_congr {s s' : State} (same : s.cursor = s'.cursor) : s.unread = s'.unread := by
  rw [unread, unread, same]

/-- Reading takes the first unread token, unless the end is reached. -/
theorem unread_eq_cons {s : State} (more : s.cursor.current.kind ≠ .eof) :
    s.unread = s.cursor.current :: (s.move .next).unread := by
  rw [current_eq] at more ⊢
  rw [unread_move_next]
  cases unread : s.unread with
  | nil => rw [unread] at more; exact absurd rfl more
  | cons token tokens => rfl

/-- After a token that is not the end, one token less is unread. -/
theorem remaining_move_next {s : State} (more : s.cursor.current.kind ≠ .eof) :
    (s.move .next).cursor.remaining + 1 = s.cursor.remaining := by
  rw [remaining_eq, remaining_eq, unread_eq_cons more, List.length_cons]

end State

end Evaluation
end Reckoner

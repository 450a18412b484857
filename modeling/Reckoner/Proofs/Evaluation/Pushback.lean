/-
# Only the token read last is given back

The readings give back the token that ends a chain, and what reads next reads that token
again.  One token may be given back several times, by a product, by a sum and at the
start of a run, but each time it has just been read.  So a cursor that can go one token
back is all that a run needs, whether it yields a value or fails:

| a move of a run | is made |
| --- | --- |
| `next` | at the first end at the latest, so the place is never beyond the one behind it |
| `back` | directly after a `next`, so never in front of the first token |

`Cursor.Orderly` has these two rules as its constructors.  A state is `Ready` when orderly
moves have led to it and the end is still to be read.  A reading that starts in such a
state leaves such a state with its value, and if it fails its moves have been orderly
(`Keeps`).  No more can be said of a failure, for the end may be the token that is
unexpected, and then it has been read for good.
-/

import Reckoner.Proofs.Evaluation.Contract

namespace Reckoner

/-! ### Orderly moves -/

namespace Cursor

/-- The moves, the latest first, take a cursor over the tokens from the first of them to
this place.  They read nothing behind the first end, and give back only the token that
was read last. -/
inductive Orderly (tokens : List Token) : Cursor → List Move → Prop
  | start : Orderly tokens (ofTokens tokens) []
  | next {cursor : Cursor} {trail : List Move} (orderly : Orderly tokens cursor trail)
    (within : cursor.position ≤ (Token.body tokens).length) :
    Orderly tokens (cursor.move .next) (.next :: trail)
  | back {cursor : Cursor} {trail : List Move} (orderly : Orderly tokens cursor (.next :: trail)) :
    Orderly tokens (cursor.move .back) (.back :: .next :: trail)

theorem replay_concat (cursor : Cursor) (moves : List Move) (m : Move) :
    cursor.replay (moves ++ [m]) = (cursor.replay moves).move m := by
  rw [replay, List.foldl_append]
  rfl

namespace Orderly

variable {tokens : List Token} {cursor : Cursor} {trail earlier : List Move}

/-- The moves say where the cursor is. -/
theorem eq_replay (orderly : Orderly tokens cursor trail) :
    cursor = (ofTokens tokens).replay trail.reverse := by
  induction orderly with
  | start => rfl
  | next _ _ ih => rw [List.reverse_cons, replay_concat, ← ih]
  | back _ ih => rw [List.reverse_cons, replay_concat, ← ih]

/-- The same moves made again are as orderly. -/
theorem replayed (orderly : Orderly tokens cursor trail) :
    Orderly tokens ((ofTokens tokens).replay trail.reverse) trail :=
  orderly.eq_replay ▸ orderly

/-- The cursor is at most behind the first end. -/
theorem position_le (orderly : Orderly tokens cursor trail) :
    cursor.position ≤ (Token.body tokens).length + 1 := by
  induction orderly with
  | start => exact Nat.zero_le _
  | next _ within => exact Nat.succ_le_succ within
  | back _ ih => exact Nat.le_trans (Nat.sub_le ..) ih

/-- **Orderly moves have been orderly all along.** -/
theorem of_suffix (orderly : Orderly tokens cursor trail) (suffix : earlier <:+ trail) :
    Orderly tokens ((ofTokens tokens).replay earlier.reverse) earlier := by
  induction orderly with
  | start =>
    obtain rfl := List.suffix_nil.1 suffix
    exact .start
  | next orderly within ih =>
    rcases List.suffix_cons_iff.1 suffix with rfl | suffix
    · exact (orderly.next within).replayed
    · exact ih suffix
  | back orderly ih =>
    rcases List.suffix_cons_iff.1 suffix with rfl | suffix
    · exact orderly.back.replayed
    · exact ih suffix

/-- **What is given back has just been read,** so there is a token to go back to. -/
theorem before_back (orderly : Orderly tokens cursor (.back :: trail)) :
    trail.head? = some .next ∧ 0 < ((ofTokens tokens).replay trail.reverse).position := by
  cases orderly with
  | back orderly =>
    refine ⟨rfl, ?_⟩
    rw [← orderly.eq_replay]
    cases orderly with
    | next _ _ => exact Nat.succ_pos _

end Orderly
end Cursor

namespace Evaluation

variable {α β : Type} {tokens : List Token}

/-! ### States and outcomes -/

/-- The moves that led to the state are orderly. -/
def State.Orderly (tokens : List Token) (s : State) : Prop :=
  Cursor.Orderly tokens s.cursor s.trail

/-- Orderly moves have led to the state, and the end is still to be read. -/
structure Ready (tokens : List Token) (s : State) : Prop where
  orderly : s.Orderly tokens
  unread : s.cursor.position + (Token.body s.unread).length = (Token.body tokens).length

/-- A value comes with a state of which this holds, an error after orderly moves. -/
def Leaves (tokens : List Token) (after : State → Prop) : EStateM.Result Error State α → Prop
  | .ok _ s => after s
  | .error _ s => s.Orderly tokens

/-- Where the end is still to be read, the reading leaves it so. -/
def Keeps (tokens : List Token) (x : Eval α) : Prop :=
  ∀ {s : State}, Ready tokens s → Leaves tokens (Ready tokens) (x.run s)

/-- The state in which an evaluation ended, with a value or with an error. -/
def ended : EStateM.Result Error State α → State
  | .ok _ s => s
  | .error _ s => s

/-- The moves of the cursor in a run, the first of them first. -/
def moves (limit : Option Nat) (tokens : List Token) : List Cursor.Move :=
  (ended (run limit tokens)).trail.reverse

namespace Ready

variable {s : State}

/-- A run starts in front of the end. -/
theorem start (tokens : List Token) : Ready tokens (State.start tokens) where
  orderly := .start
  unread := by
    rw [State.unread_start]
    exact Nat.zero_add _

/-- Any token may be read, the end as well. -/
theorem read (ready : Ready tokens s) : (s.move .next).Orderly tokens :=
  Cursor.Orderly.next ready.orderly (Nat.le.intro ready.unread)

/-- After a token that is not the end, the end is still to be read. -/
theorem next (ready : Ready tokens s) (more : s.cursor.current.kind ≠ .eof) :
    Ready tokens (s.move .next) where
  orderly := ready.read
  unread := by
    have unread := ready.unread
    rw [State.unread_eq_cons more, Token.body_cons_of_ne more, List.length_cons] at unread
    rw [State.position_move_next]
    omega

/-- Whatever token has been read, it may be given back. -/
theorem next_back (ready : Ready tokens s) : Ready tokens ((s.move .next).move .back) where
  orderly := Cursor.Orderly.back ready.read
  unread := ready.unread

/-- The number of open groups does not matter. -/
theorem set_depth (ready : Ready tokens s) (depth : Nat) : Ready tokens { s with depth } where
  orderly := ready.orderly
  unread := ready.unread

end Ready

/-- A chain of two steps leaves what its second step leaves. -/
theorem Leaves.bind {x : Eval α} {f : α → Eval β} {s : State} {after : State → Prop}
    (first : Leaves tokens (Ready tokens) (x.run s))
    (second : ∀ a {t}, Ready tokens t → Leaves tokens after ((f a).run t)) :
    Leaves tokens after ((x >>= f).run s) := by
  rw [EStateM.run_bind]
  cases ran : x.run s with
  | ok a t =>
    rw [ran] at first
    exact second a first
  | error error t =>
    rw [ran] at first
    exact first

/-- If a value leaves orderly moves, the evaluation ends after orderly moves. -/
theorem Leaves.orderly_ended {result : EStateM.Result Error State α}
    (leaves : Leaves tokens (State.Orderly tokens) result) : (ended result).Orderly tokens := by
  cases result <;> exact leaves

/-! ### Every reading keeps to the rules -/

section

variable {limit : Option Nat} {part inner : Eval Int}

/-- Arithmetic moves nothing. -/
theorem keeps_ofExcept (x : Except Error α) : Keeps tokens (ofExcept x : Eval α) := by
  intro s ready
  cases x with
  | ok a => exact ready
  | error error => exact ready.orderly

/-- **A chain keeps to the rules when its operands do.**  An operator is not the end, so
the end is still to be read behind it; any other token is given back, or is the error. -/
theorem keeps_chainFrom (rank : Rank) (keeps : Keeps tokens part) (room : Nat) (v : Int) :
    Keeps tokens (chainFrom rank part room v) := by
  intro s ready
  induction room generalizing s v with
  | zero =>
    -- without room a token is given back whatever its kind, so no bound on the room is due
    exact ready.next_back
  | succ room ih =>
    rw [chainFrom, run_next_bind]
    split
    next operator mark =>
      refine .bind (keeps (ready.next (Rank.ne_eof_of_operator? mark))) fun right t ready => ?_
      exact .bind (keeps_ofExcept _ ready) fun result t ready => ih result ready
    next =>
      split
      next ends => exact ready.next_back
      next => exact ready.read

/-- A chain from its first operand on. -/
theorem keeps_chain (rank : Rank) (keeps : Keeps tokens part) (room : Nat) :
    Keeps tokens (chain rank part room) := fun ready =>
  .bind (keeps ready) fun first _ ready => keeps_chainFrom rank keeps room first ready

/-- A group keeps to the rules when what stands in it does. -/
theorem keeps_group (keeps : Keeps tokens inner) (token : Token) :
    Keeps tokens (group limit inner token) := by
  intro s ready
  refine .bind ?entering fun _ t ready => .bind (keeps ready) fun value t ready => ?closing
  case entering =>
    rw [run_enter]
    split
    next full => exact ready.orderly
    next => exact ready.set_depth _
  case closing =>
    refine .bind (x := leave) (ready.set_depth _) fun _ t ready => ?_
    rw [run_next_bind]
    split
    next closes => exact ready.next (by rw [closes]; decide)
    next => exact ready.read

/-- A number or a group keeps to the rules when what stands in a group does. -/
theorem keeps_operand (keeps : Keeps tokens inner) : Keeps tokens (operand limit inner) := by
  intro s ready
  rw [operand, run_next_bind]
  split
  next number => exact keeps_ofExcept _ (ready.next (by rw [number]; decide))
  next opens => exact keeps_group keeps _ (ready.next (by rw [opens]; decide))
  next => exact ready.read

/-- Factors are read by the rules, with any room. -/
theorem keeps_factorWithin (room : Nat) : Keeps tokens (factorWithin limit room) := by
  induction room with
  | zero => exact fun ready => ready.read
  | succ room ih =>
    exact keeps_operand (keeps_chain .additive (keeps_chain .multiplicative ih room) room)

/-- Sums are read by the rules. -/
theorem keeps_sum : Keeps tokens (sum limit) := fun ready =>
  keeps_chain .additive (keeps_chain .multiplicative (keeps_factorWithin _) _) _ ready

end

/-! ### Whole runs -/

/-- **The moves of a run are orderly.**  The first token is given back unless it is the
end, and the end that is read last is not. -/
theorem orderly_run (limit : Option Nat) (tokens : List Token) :
    (ended (run limit tokens)).Orderly tokens := by
  have ready := Ready.start tokens
  apply Leaves.orderly_ended
  rw [run, expression, run_next_bind]
  split
  next atEnd => exact ready.read
  next =>
    refine .bind (x := back) ready.next_back fun _ t ready => ?_
    refine .bind (keeps_sum ready) fun value t ready => ?_
    rw [run_next_bind]
    split
    next atEnd => exact ready.read
    next => exact ready.read

/-- **In every run only the token read last is given back.**  Whether a run yields a value
or fails, its moves take the cursor from the first token to the place where it ends.
Directly before each `back` stands a `next`, so the cursor is not in front of the first
token then, and at no time is it farther than directly behind the first end; where no
token is an end, one is taken to stand behind all of them.  The run of `evaluate` is the
one under `maxNesting`. -/
theorem gives_back_only_last_read (limit : Option Nat) (tokens : List Token) :
    (ended (run limit tokens)).cursor = (Cursor.ofTokens tokens).replay (moves limit tokens) ∧
      (∀ before after, moves limit tokens = before ++ .back :: after →
        before.getLast? = some .next ∧
          0 < ((Cursor.ofTokens tokens).replay before).position) ∧
      ∀ before, before <+: moves limit tokens →
        ((Cursor.ofTokens tokens).replay before).position ≤ (Token.body tokens).length + 1 := by
  have orderly := orderly_run limit tokens
  have sofar {before : List Cursor.Move} (leads : before <+: moves limit tokens) :
      Cursor.Orderly tokens ((Cursor.ofTokens tokens).replay before) before.reverse := by
    have suffix := List.reverse_suffix.2 leads
    rw [moves, List.reverse_reverse] at suffix
    simpa using orderly.of_suffix suffix
  refine ⟨orderly.eq_replay, fun before after split => ?_, fun before leads =>
    (sofar leads).position_le⟩
  have withBack : before ++ [.back] <+: moves limit tokens := ⟨after, by simp [split]⟩
  have reached := sofar withBack
  rw [List.reverse_append] at reached
  simpa using reached.before_back

/-- In `(2 * 3` the end is given back by the product and by the sum, and the group, which
it cannot close, reads it for the third time. -/
theorem end_read_three_times :
    ∃ (tokens : List Token) (before : List Cursor.Move),
      tokens = [⟨.leftParen, "("⟩, ⟨.number, "2"⟩, ⟨.multiply, "*"⟩, ⟨.number, "3"⟩] ∧
      before = [.next, .back, .next, .next, .next, .next, .next, .back, .next] ∧
      moves (some maxNesting) tokens = before ++ .back :: [.next] ∧
      before.getLast? = some .next ∧ 0 < ((Cursor.ofTokens tokens).replay before).position ∧
      ((Cursor.ofTokens tokens).replay (before ++ .back :: [.next])).position ≤ 5 := by
  let tokens : List Token :=
    [⟨.leftParen, "("⟩, ⟨.number, "2"⟩, ⟨.multiply, "*"⟩, ⟨.number, "3"⟩]
  let before : List Cursor.Move :=
    [.next, .back, .next, .next, .next, .next, .next, .back, .next]
  have moves_eq : moves (some maxNesting) tokens = before ++ .back :: [.next] := by
    decide +kernel
  obtain ⟨-, givenBack, within⟩ := gives_back_only_last_read (some maxNesting) tokens
  obtain ⟨readBefore, inside⟩ := givenBack before [.next] moves_eq
  exact ⟨tokens, before, rfl, rfl, moves_eq, readBefore, inside,
    within _ (moves_eq ▸ List.prefix_refl _)⟩

end Evaluation
end Reckoner

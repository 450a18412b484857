/-
# Unexpected tokens end viable prefixes

An unexpected token is found as soon as it can be.  What has been read before it
begins some expression that has a value (`Pushdown.finish_completion`), and with
it no sequence does: every sequence that begins with the same tokens, this one
included, ends with the same error (`Pushdown.Stops.finish_eq`).
-/

import Reckoner.Proofs.Pushdown.Completion
import Reckoner.Proofs.Pushdown.Stop
import Reckoner.Token.Lexeme

namespace Reckoner

namespace Token

variable {tokens before : List Token} {token : Token}

/-- The tokens before a place, and the one at it, the end behind all others. -/
theorem eq_take_of_prefix (leads : before ++ [token] <+: tokens ++ [eof]) :
    before.length ≤ tokens.length ∧ tokens.take before.length = before ∧
      tokens[before.length]?.getD eof = token ∧
        (tokens ++ [eof]).take (before.length + 1) = before ++ [token] := by
  have length_le := leads.length_le
  simp only [List.length_append, List.length_singleton] at length_le
  have leading : before <+: tokens := by
    refine List.prefix_of_prefix_length_le ((List.prefix_append ..).trans leads) ?_ (by omega)
    exact List.prefix_append ..
  have found : (tokens ++ [eof])[before.length]? = some token := by
    obtain ⟨rest, split⟩ := leads
    rw [← split]
    simp
  refine ⟨by omega, (List.prefix_iff_eq_take.1 leading).symm, ?_, ?_⟩
  · rcases Nat.lt_or_ge before.length tokens.length with inside | behind
    · rw [List.getElem?_append_left inside] at found
      rw [found, Option.getD_some]
    · obtain rfl : tokens = before := (leading.eq_of_length_le behind).symm
      simpa using found
  · have := List.prefix_iff_eq_take.1 leads
    rw [List.length_append, List.length_singleton] at this
    exact this.symm

end Token

namespace Pushdown

variable {limit : Option Nat} {tokens before : List Token} {token : Token} {c : Configuration}
  {error : Error}

/-- What the pass has taken can be completed to a sequence with a value. -/
theorem exists_value (more : ∀ t ∈ before, t.kind ≠ .eof)
    (taken : read limit 0 before .start = .ok c) :
    ∃ rest v, value limit (before ++ rest) = .ok v := by
  refine ⟨c.completion, ?_⟩
  by_cases empty : Token.body (before ++ c.completion) = []
  · exact ⟨0, if_pos empty⟩
  · refine ⟨1, ?_⟩
    rw [value_append more empty, taken]
    exact finish_completion limit before.length (sound_of_read sound_start taken)

/-- The error at which the pass stops is that of every sequence with the same beginning. -/
theorem value_of_stops (more : ∀ t ∈ before, t.kind ≠ .eof)
    (some_token : before = [] → token.kind ≠ .eof) (taken : read limit 0 before .start = .ok c)
    (stops : Stops limit before.length token c error) (begins : before ++ [token] <+: tokens) :
    value limit tokens = .error error := by
  obtain ⟨rest, rfl⟩ := begins
  rw [List.append_assoc, List.singleton_append]
  have nonempty : Token.body (before ++ token :: rest) ≠ [] := by
    rw [Ne, Token.body_append_cons_eq_nil_iff more]
    exact fun both => some_token both.1 both.2
  rw [value_append more nonempty, taken]
  exact stops.finish_eq rest

end Pushdown

namespace Evaluation

/-- **What stands before an unexpected token can be completed, and with it
nothing can.**  The token stands in the sequence, or is the end behind it, and
is reported with its text and its place.  The tokens before it begin a sequence
that has a value, and every sequence that begins with them and with the token
has this same error. -/
theorem viable_before_unexpected {tokens : List Token} {text : String} {position : Nat}
    (unexpected : evaluate tokens = .error (.unexpectedToken text position)) :
    1 ≤ position ∧ position ≤ tokens.length + 1 ∧
      text = (tokens[position - 1]?.getD Token.eof).text ∧
      (∀ t ∈ tokens.take (position - 1), t.kind ≠ .eof) ∧
      (∃ rest v, evaluate (tokens.take (position - 1) ++ rest) = .ok v) ∧
      ∀ tokens', (tokens ++ [Token.eof]).take position <+: tokens' →
        evaluate tokens' = .error (.unexpectedToken text position) := by
  simp only [evaluate, Pushdown.evaluateWithin_eq_value] at unexpected ⊢
  have nonempty := Pushdown.body_ne_nil_of_value unexpected
  rw [Pushdown.value_eq_finish nonempty] at unexpected
  obtain ⟨before, token, c, leads, more, taken, stops⟩ := Pushdown.exists_stops unexpected
  rw [Nat.zero_add] at stops
  obtain ⟨rfl, rfl⟩ := stops.eq_of_unexpectedToken
  obtain ⟨length_le, take_eq, token_eq, take_eq'⟩ := Token.eq_take_of_prefix leads
  have some_token : before = [] → token.kind ≠ .eof := by
    rintro rfl atEnd
    obtain ⟨rest, split⟩ := leads
    rw [← Token.body_concat_eof, ← split] at nonempty
    exact nonempty (Token.body_cons_of_eof atEnd rest)
  rw [Nat.add_sub_cancel, take_eq, token_eq, take_eq']
  exact ⟨Nat.le_add_left .., Nat.succ_le_succ length_le, rfl, more,
    Pushdown.exists_value more taken, fun tokens' begins =>
      Pushdown.value_of_stops more some_token taken stops begins⟩

/-- In `7 * (9223372036854775807 + 3 4` the second number after the `+` is
unexpected.  Before it the sum is about to overflow, and can be completed all
the same. -/
theorem overflowing_sum_is_viable :
    evaluate (Token.ofLexemes "7 * (9223372036854775807 + 3 4".toList) =
        .error (.unexpectedToken "4" 7) ∧
      ∃ rest v, evaluate (Token.ofLexemes "7 * (9223372036854775807 + 3".toList ++ rest) =
        .ok v := by
  have unexpected : evaluate (Token.ofLexemes "7 * (9223372036854775807 + 3 4".toList) =
      .error (.unexpectedToken "4" 7) := by decide +kernel
  have take_eq : (Token.ofLexemes "7 * (9223372036854775807 + 3 4".toList).take (7 - 1) =
      Token.ofLexemes "7 * (9223372036854775807 + 3".toList := by decide +kernel
  obtain ⟨-, -, -, -, completed, -⟩ := viable_before_unexpected unexpected
  rw [take_eq] at completed
  exact ⟨unexpected, completed⟩

end Evaluation
end Reckoner

/-
# The tokens before the end

A sequence of tokens counts up to its first end token.  `Token.body` is what
stands before it, and `Token.ending` is that end token, `Token.eof` where there
is none.  Whatever follows the first end token is in neither.
-/

import Reckoner.Token.Placement
import Mathlib.Data.List.TakeWhile

namespace Reckoner
namespace Token

theorem body_cons_of_eof {token : Token} (h : token.kind = .eof) (tokens : List Token) :
    body (token :: tokens) = [] := by
  simp [body, h]

theorem body_cons_of_ne {token : Token} (h : token.kind ≠ .eof) (tokens : List Token) :
    body (token :: tokens) = token :: body tokens := by
  simp [body, h]

theorem ending_cons_of_eof {token : Token} (h : token.kind = .eof) (tokens : List Token) :
    ending (token :: tokens) = token := by
  simp [ending, h]

theorem ending_cons_of_ne {token : Token} (h : token.kind ≠ .eof) (tokens : List Token) :
    ending (token :: tokens) = ending tokens := by
  simp [ending, h]

/-- No token before the end is an end. -/
theorem ne_eof_of_mem_body {tokens : List Token} {token : Token} (h : token ∈ body tokens) :
    token.kind ≠ .eof := by
  simpa using List.mem_takeWhile_imp h

/-- The ending of a sequence is an end, whether it stands there or not. -/
theorem ending_kind (tokens : List Token) : (ending tokens).kind = .eof := by
  rw [ending]
  cases found : tokens.find? (·.kind == .eof) with
  | none => rfl
  | some token => simpa using List.find?_some found

/-- Tokens that are no end stand before the end. -/
theorem body_append {tokens : List Token} (h : ∀ token ∈ tokens, token.kind ≠ .eof)
    (tokens' : List Token) : body (tokens ++ tokens') = tokens ++ body tokens' :=
  List.takeWhile_append_of_pos fun token mem => by simpa using h token mem

/-- A sequence holds no end, or it has a first one. -/
theorem ne_eof_or_eq_append (tokens : List Token) :
    (∀ token ∈ tokens, token.kind ≠ .eof) ∨
      ∃ before last after, tokens = before ++ last :: after ∧
        (∀ token ∈ before, token.kind ≠ .eof) ∧ last.kind = .eof := by
  cases found : tokens.find? (·.kind == .eof) with
  | none => exact .inl fun token mem => by simpa using List.find?_eq_none.1 found token mem
  | some last =>
    obtain ⟨atEnd, before, after, rfl, more⟩ := List.find?_eq_some_iff_append.1 found
    exact .inr ⟨before, last, after, rfl, fun token mem => by simpa using more token mem,
      by simpa using atEnd⟩

/-- Tokens that are no end are all before it. -/
theorem body_eq_self {tokens : List Token} (h : ∀ token ∈ tokens, token.kind ≠ .eof) :
    body tokens = tokens := by
  have := body_append h []
  rwa [List.append_nil, show body [] = [] from rfl, List.append_nil] at this

/-- Nothing stands before the end exactly when the end comes first. -/
theorem body_append_cons_eq_nil_iff {tokens : List Token} (h : ∀ token ∈ tokens, token.kind ≠ .eof)
    (token : Token) (tokens' : List Token) :
    body (tokens ++ token :: tokens') = [] ↔ tokens = [] ∧ token.kind = .eof := by
  rw [body_append h, List.append_eq_nil_iff]
  by_cases atEnd : token.kind = .eof
  · simp [body_cons_of_eof atEnd, atEnd]
  · simp [body_cons_of_ne atEnd, atEnd]

/-- From an end token on nothing stands before the end. -/
theorem body_append_of_eof {last : Token} (atEnd : last.kind = .eof) (tokens after : List Token) :
    body (tokens ++ last :: after) = body tokens := by
  induction tokens with
  | nil => exact body_cons_of_eof atEnd after
  | cons token tokens ih =>
    by_cases h : token.kind = .eof
    · rw [List.cons_append, body_cons_of_eof h, body_cons_of_eof h]
    · rw [List.cons_append, body_cons_of_ne h, body_cons_of_ne h, ih]

/-- An end token behind a sequence changes nothing before the end. -/
theorem body_concat_eof (tokens : List Token) : body (tokens ++ [eof]) = body tokens :=
  body_append_of_eof rfl tokens []

/-- An end token is the ending, unless one stands before it. -/
theorem ending_append_of_eof {last : Token} (atEnd : last.kind = .eof) (tokens after : List Token) :
    ending (tokens ++ last :: after) = (tokens.find? (·.kind == .eof)).getD last := by
  have found : (last :: after).find? (·.kind == .eof) = some last :=
    List.find?_cons_of_pos (by rw [atEnd]; rfl)
  rw [ending, List.find?_append, found]
  cases tokens.find? (·.kind == .eof) <;> rfl

end Token
end Reckoner

import Mathlib.Data.List.ReduceOption

/-!
# Tokens of a text with gaps

A tokenizer that sees one character ahead: the state of the token being read
decides whether the next character goes on with it.  A text may have gaps, which
end every token.  Closing the gaps keeps the tokens exactly when at no gap the
character behind it goes on with the token before it.
-/

namespace RedshiftOdbc.Tokens

/-- What begins a token, and what goes on with one. -/
structure Tokenizer (α σ : Type) where
  start : α → Option σ
  extend : σ → α → Option σ

/-- The token being read, when there is one. -/
abbrev Reading (α σ : Type) := Option (σ × List α)

/-- The token that the end of the text or a gap ends. -/
def flush {α σ : Type} (reading : Reading α σ) : List (List α) :=
  match reading with
  | none => []
  | some (_, token) => [token]

namespace Tokenizer

variable {α σ : Type} (tokenizer : Tokenizer α σ)

def first (character : α) : Reading α σ :=
  (tokenizer.start character).map fun state => (state, [character])

def next (reading : Reading α σ) (character : α) : Reading α σ :=
  match reading with
  | none => tokenizer.first character
  | some (state, token) =>
      match tokenizer.extend state character with
      | some state => some (state, token ++ [character])
      | none => tokenizer.first character

def ended (reading : Reading α σ) (character : α) : List (List α) :=
  match reading with
  | none => []
  | some (state, token) =>
      match tokenizer.extend state character with
      | some _ => []
      | none => [token]

def tokensFrom : Reading α σ → List α → List (List α)
  | reading, [] => flush reading
  | reading, character :: rest =>
      tokenizer.ended reading character ++ tokensFrom (tokenizer.next reading character) rest

def tokens (text : List α) : List (List α) := tokenizer.tokensFrom none text

def gapTokensFrom : Reading α σ → List (Option α) → List (List α)
  | reading, [] => flush reading
  | reading, some character :: rest =>
      tokenizer.ended reading character ++ gapTokensFrom (tokenizer.next reading character) rest
  | reading, none :: rest => flush reading ++ gapTokensFrom none rest

def readFrom (reading : Reading α σ) (text : List α) : Reading α σ :=
  text.foldl tokenizer.next reading

/-- The character goes on with the token being read. -/
def Continues (reading : Reading α σ) (character : α) : Prop :=
  ∃ state token, reading = some (state, token) ∧ (tokenizer.extend state character).isSome

/-- At no gap the character behind it goes on with the token before it. -/
def Apart (reading : Reading α σ) (text : List (Option α)) : Prop :=
  ∀ before behind, text = before ++ none :: behind →
    ∀ character ∈ behind.reduceOption.head?,
      ¬ tokenizer.Continues (tokenizer.readFrom reading before.reduceOption) character

theorem ended_of_not_continues {reading : Reading α σ} {character : α}
    (apart : ¬ tokenizer.Continues reading character) :
    tokenizer.ended reading character = flush reading := by
  cases reading with
  | none => rfl
  | some current =>
      obtain ⟨state, token⟩ := current
      cases extended : tokenizer.extend state character with
      | none => simp [ended, flush, extended]
      | some state' => exact absurd ⟨state, token, rfl, by simp [extended]⟩ apart

theorem next_of_not_continues {reading : Reading α σ} {character : α}
    (apart : ¬ tokenizer.Continues reading character) :
    tokenizer.next reading character = tokenizer.next none character := by
  cases reading with
  | none => rfl
  | some current =>
      obtain ⟨state, token⟩ := current
      cases extended : tokenizer.extend state character with
      | none => simp [next, extended]
      | some state' => exact absurd ⟨state, token, rfl, by simp [extended]⟩ apart

/-- A token being read is the beginning of the first token. -/
theorem tokensFrom_prefix (state : σ) (token : List α) (text : List α) :
    ∃ whole others, tokenizer.tokensFrom (some (state, token)) text = whole :: others ∧
      token <+: whole := by
  induction text generalizing state token with
  | nil => exact ⟨token, [], rfl, List.prefix_refl token⟩
  | cons character rest ih =>
      cases extended : tokenizer.extend state character with
      | none =>
          exact ⟨token, _, by simp only [tokensFrom, ended, extended]; rfl, List.prefix_refl token⟩
      | some state' =>
          obtain ⟨whole, others, same, isPrefix⟩ := ih state' (token ++ [character])
          refine ⟨whole, others, ?_, (List.prefix_append token [character]).trans isPrefix⟩
          simpa [tokensFrom, ended, next, extended] using same

theorem tokensFrom_fresh {reading : Reading α σ} {text : List α}
    (apart : ∀ character ∈ text.head?, ¬ tokenizer.Continues reading character) :
    tokenizer.tokensFrom reading text = flush reading ++ tokenizer.tokensFrom none text := by
  cases text with
  | nil => simp [tokensFrom, flush]
  | cons character rest =>
      have stays := apart character rfl
      rw [tokensFrom, tokensFrom, tokenizer.ended_of_not_continues stays,
        tokenizer.next_of_not_continues stays]
      rfl

theorem apart_some (reading : Reading α σ) (character : α) (text : List (Option α)) :
    tokenizer.Apart reading (some character :: text) ↔
      tokenizer.Apart (tokenizer.next reading character) text := by
  constructor
  · rintro apart before behind rfl
    exact apart (some character :: before) behind rfl
  · intro apart before behind parted
    cases before with
    | nil => simp at parted
    | cons first before =>
        obtain ⟨rfl, rfl⟩ := List.cons.inj parted
        exact apart before behind rfl

theorem apart_none (reading : Reading α σ) (text : List (Option α)) :
    tokenizer.Apart reading (none :: text) ↔
      (∀ character ∈ text.reduceOption.head?, ¬ tokenizer.Continues reading character) ∧
        tokenizer.Apart reading text := by
  constructor
  · intro apart
    refine ⟨apart [] text rfl, ?_⟩
    rintro before behind rfl
    exact apart (none :: before) behind rfl
  · rintro ⟨here, apart⟩ before behind parted
    cases before with
    | nil =>
        obtain ⟨-, rfl⟩ := List.cons.inj parted
        exact here
    | cons first before =>
        obtain ⟨rfl, rfl⟩ := List.cons.inj parted
        exact apart before behind rfl

/-- What is read does not matter when the first character does not go on with it. -/
theorem apart_fresh {reading : Reading α σ} {text : List (Option α)}
    (apart : ∀ character ∈ text.reduceOption.head?, ¬ tokenizer.Continues reading character) :
    tokenizer.Apart reading text ↔ tokenizer.Apart none text := by
  induction text with
  | nil => simp [Apart]
  | cons character text ih =>
      cases character with
      | none =>
          rw [apart_none, apart_none, ih apart]
          constructor
          · rintro ⟨_, others⟩
            refine ⟨fun character _ continues => ?_, others⟩
            obtain ⟨state, token, isReading, _⟩ := continues
            cases isReading
          · exact fun both => ⟨apart, both.2⟩
      | some character =>
          rw [apart_some, apart_some, tokenizer.next_of_not_continues (apart character rfl)]

/-- Closing the gaps keeps the tokens exactly when nothing grows together. -/
theorem tokensFrom_reduceOption_iff (reading : Reading α σ) (text : List (Option α)) :
    tokenizer.tokensFrom reading text.reduceOption = tokenizer.gapTokensFrom reading text ↔
      tokenizer.Apart reading text := by
  induction text generalizing reading with
  | nil => simp [tokensFrom, gapTokensFrom, Apart]
  | cons character text ih =>
      cases character with
      | some character =>
          rw [List.reduceOption_cons_of_some, tokensFrom, gapTokensFrom, apart_some, ← ih,
            List.append_cancel_left_eq]
      | none =>
          rw [List.reduceOption_cons_of_none, gapTokensFrom, apart_none]
          by_cases apart : ∀ character ∈ text.reduceOption.head?,
              ¬ tokenizer.Continues reading character
          · rw [tokenizer.tokensFrom_fresh apart, List.append_cancel_left_eq, ih,
              tokenizer.apart_fresh apart]
            exact ⟨fun others => ⟨apart, others⟩, fun both => both.2⟩
          · constructor
            · intro same
              exfalso
              -- the token goes on behind the gap, so it is longer than the one the gap ends
              push Not at apart
              obtain ⟨character, isNext, state, token, rfl, extended⟩ := apart
              obtain ⟨state', isState⟩ := Option.isSome_iff_exists.mp extended
              obtain ⟨rest, isRest⟩ : ∃ rest, text.reduceOption = character :: rest := by
                cases joined : text.reduceOption with
                | nil => simp [joined] at isNext
                | cons first rest => exact ⟨rest, by simpa [joined] using isNext⟩
              obtain ⟨whole, others, isWhole, isPrefix⟩ :=
                tokenizer.tokensFrom_prefix state' (token ++ [character]) rest
              rw [isRest, tokensFrom] at same
              simp only [ended, next, isState, List.nil_append, flush, isWhole,
                List.singleton_append, List.cons.injEq] at same
              have longer := isPrefix.length_le
              rw [same.1, List.length_append, List.length_singleton] at longer
              omega
            · exact fun both => absurd both.1 apart

end Tokenizer

end RedshiftOdbc.Tokens

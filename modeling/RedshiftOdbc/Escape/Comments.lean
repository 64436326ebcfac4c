import RedshiftOdbc.Escape.Splitting
import RedshiftOdbc.Library.Tokens

/-!
# Comments between tokens

SQL's tokens, with the driver's own rules for quotes.  A comment separates the
tokens on both sides of it; `parseFunctionArguments` drops it and puts nothing
in its place, so two tokens that only a comment keeps apart grow together.
-/

namespace RedshiftOdbc.Escape

open RedshiftOdbc.Scanf RedshiftOdbc.Tokens

inductive TokenState where
  | word
  /-- One letter that a string literal may have in front. -/
  | letter
  | integer
  | fraction
  | exponent
  | point
  | colon
  | operator
  | literal
  | backslash
  | literalEnd
  | identifier
  | identifierEnd
  | single
  deriving DecidableEq, Repr

/-- Letters, digits, `_`, `$` and everything beyond ASCII. -/
def isWord (character : Char) : Bool :=
  character.isAlphanum || character = '_' || character = '$' || 128 ≤ character.toNat

def isOperator (character : Char) : Bool :=
  character ∈ ['+', '-', '*', '/', '<', '>', '=', '~', '!', '@', '#', '%', '^', '&', '|', '`', '?']

def startToken (character : Char) : Option TokenState :=
  if isSpace character then none
  else if character = '\'' then some .literal
  else if character = '"' then some .identifier
  else if character ∈ ['b', 'B', 'e', 'E', 'n', 'N', 'x', 'X'] then some .letter
  else if character.isDigit then some .integer
  else if isWord character then some .word
  else if character = '.' then some .point
  else if character = ':' then some .colon
  else if isOperator character then some .operator
  else some .single

def extendToken (state : TokenState) (character : Char) : Option TokenState :=
  match state with
  | .word => if isWord character then some .word else none
  | .letter =>
      if character = '\'' then some .literal else if isWord character then some .word else none
  | .integer =>
      if character.isDigit then some .integer
      else if character = '.' then some .fraction
      else if character = 'e' ∨ character = 'E' then some .exponent
      else if isWord character then some .word
      else none
  | .fraction =>
      if character.isDigit then some .fraction
      else if character = 'e' ∨ character = 'E' then some .exponent
      else if isWord character then some .word
      else none
  | .exponent =>
      if character = '+' ∨ character = '-' ∨ isWord character then some .word else none
  | .point =>
      if character.isDigit then some .fraction else if character = '.' then some .single else none
  | .colon => if character = ':' ∨ character = '=' then some .single else none
  | .operator => if isOperator character then some .operator else none
  | .literal =>
      if character = '\'' then some .literalEnd
      else if character = '\\' then some .backslash
      else some .literal
  | .backslash => if character = '\\' then some .backslash else some .literal
  | .literalEnd => if character = '\'' then some .literal else none
  | .identifier => if character = '"' then some .identifierEnd else some .identifier
  | .identifierEnd => if character = '"' then some .identifier else none
  | .single => none

/--
SQL's tokens.  White space separates them, two words or numbers need a separator,
and an operator is as long as it can be; the openers of comments are read as one.
-/
def sql : Tokenizer Char TokenState := ⟨startToken, extendToken⟩

/-! ## The state and the regions -/

/-- The literal or identifier the token being read stands in. -/
def TokenState.mode (state : TokenState) : Mode :=
  match state with
  | .literal => .literal
  | .backslash => .backslash
  | .identifier => .identifier
  | _ => .bare

def readingMode (reading : Reading Char TokenState) : Mode :=
  match reading with
  | none => .bare
  | some (state, _) => state.mode

theorem readingMode_first (character : Char) :
    readingMode (sql.first character) = (Mode.bare.read false character none).2 := by
  simp only [Tokenizer.first, sql, startToken, Mode.read]
  by_cases single : character = '\''
  · subst single
    decide
  by_cases double : character = '"'
  · subst double
    decide
  · simp only [if_neg single, if_neg double]
    split_ifs <;> simp_all [readingMode, TokenState.mode]

/-- A character that goes on with a token opens and closes what the regions say. -/
theorem extendToken_mode {state state' : TokenState} {character : Char}
    (extended : extendToken state character = some state') :
    state'.mode = (state.mode.read false character none).2 := by
  have single : isWord '\'' = false ∧ isOperator '\'' = false ∧ '\''.isDigit = false := by decide
  have double : isWord '"' = false ∧ isOperator '"' = false ∧ '"'.isDigit = false := by decide
  by_cases isSingle : character = '\''
  · subst isSingle
    cases state <;> simp_all [extendToken, TokenState.mode, Mode.read] <;> subst extended <;> rfl
  by_cases isDouble : character = '"'
  · subst isDouble
    cases state <;> simp_all [extendToken, TokenState.mode, Mode.read] <;> subst extended <;> rfl
  · cases state <;> simp only [extendToken, if_neg isSingle, if_neg isDouble] at extended <;>
      (try split_ifs at extended) <;> simp_all [TokenState.mode, Mode.read] <;>
      subst extended <;> rfl

/-- Behind a token that the character ends, only what the character opens is open. -/
theorem mode_of_extendToken_none {state : TokenState} {character : Char}
    (ends : extendToken state character = none) : state.mode = .bare := by
  cases state with
  | literal => simp [extendToken] at ends; split_ifs at ends
  | backslash => simp [extendToken] at ends; split_ifs at ends
  | identifier => simp [extendToken] at ends; split_ifs at ends
  | _ => rfl

theorem readingMode_next (reading : Reading Char TokenState) (character : Char) :
    readingMode (sql.next reading character) =
      ((readingMode reading).read false character none).2 := by
  cases reading with
  | none => exact readingMode_first character
  | some current =>
      obtain ⟨state, token⟩ := current
      cases extended : extendToken state character with
      | none =>
          have ended : sql.next (some (state, token)) character = sql.first character := by
            simp [Tokenizer.next, sql, extended]
          rw [ended, readingMode_first, readingMode, mode_of_extendToken_none extended]
      | some state' =>
          have longer : sql.next (some (state, token)) character =
              some (state', token ++ [character]) := by
            simp [Tokenizer.next, sql, extended]
          rw [longer]
          exact extendToken_mode extended

/-! ## Comments as white space and as gaps -/

/-- The text of a piece with a blank for every character of a comment. -/
def spaced (piece : List (Char × Region)) : List Char :=
  piece.map fun character => if character.2 = .comment then ' ' else character.1

/-- The text of a piece with a gap for every character of a comment. -/
def gapped (piece : List (Char × Region)) : List (Option Char) :=
  piece.map fun character => if character.2 = .comment then none else some character.1

theorem gapped_reduceOption (piece : List (Char × Region)) :
    (gapped piece).reduceOption = uncommented piece := by
  induction piece with
  | nil => rfl
  | cons character piece ih =>
      by_cases isComment : character.2 = .comment
      · obtain ⟨character, region⟩ := character
        obtain rfl : region = .comment := isComment
        rw [uncommented_comment, ← ih]
        rfl
      · rw [uncommented_cons isComment, ← ih]
        simp [gapped, isComment, List.reduceOption_cons_of_some]

/-- Outside of literals and identifiers a blank ends the token. -/
theorem blank_ends {reading : Reading Char TokenState} (outside : readingMode reading = .bare)
    {blank : Char} (isBlank : isSpace blank) :
    sql.ended reading blank = flush reading ∧ sql.next reading blank = none := by
  have solid : isWord blank = false ∧ isOperator blank = false ∧ blank.isDigit = false := by
    simp only [isSpace, List.mem_cons, List.not_mem_nil, or_false, decide_eq_true_eq] at isBlank
    rcases isBlank with rfl | rfl | rfl | rfl | rfl | rfl <;> decide
  have differs : ∀ character, isSpace character = false → blank ≠ character := by
    rintro character isSolid rfl
    simp [isBlank] at isSolid
  have fresh : sql.first blank = none := by simp [Tokenizer.first, sql, startToken, isBlank]
  cases reading with
  | none => exact ⟨rfl, fresh⟩
  | some current =>
      obtain ⟨state, token⟩ := current
      have ends : extendToken state blank = none := by
        have quote := differs '\'' (by decide)
        have doubleQuote := differs '"' (by decide)
        have point := differs '.' (by decide)
        have colon := differs ':' (by decide)
        have equals := differs '=' (by decide)
        have plus := differs '+' (by decide)
        have minus := differs '-' (by decide)
        have letters := And.intro (differs 'e' (by decide)) (differs 'E' (by decide))
        cases state <;> simp_all [extendToken, readingMode, TokenState.mode]
      constructor
      · simp [Tokenizer.ended, flush, sql, ends]
      · have ended : sql.next (some (state, token)) blank = sql.first blank := by
          simp [Tokenizer.next, sql, ends]
        rw [ended, fresh]

/-- The tokens of a piece with blanks for its comments are those with gaps. -/
theorem tokensFrom_spaced {mode final : Mode} {piece : List (Char × Region)}
    (follows : mode.follow piece = some final) {reading : Reading Char TokenState}
    (stands : readingMode reading = mode) :
    sql.tokensFrom reading (spaced piece) = sql.gapTokensFrom reading (gapped piece) := by
  induction piece generalizing mode reading with
  | nil => rfl
  | cons character piece ih =>
      obtain ⟨character, region⟩ := character
      rw [Mode.follow] at follows
      split_ifs at follows with isComment isBare same
      · subst isComment
        obtain ⟨ended, next⟩ := blank_ends (stands.trans isBare) (by decide : isSpace ' ')
        have blank : spaced ((character, .comment) :: piece) = ' ' :: spaced piece := rfl
        have gap : gapped ((character, .comment) :: piece) = none :: gapped piece := rfl
        rw [blank, gap, Tokenizer.tokensFrom, Tokenizer.gapTokensFrom, ended, next, ih follows rfl]
      · have kept : spaced ((character, region) :: piece) = character :: spaced piece := by
          simp [spaced, isComment]
        have some : gapped ((character, region) :: piece) =
            Option.some character :: gapped piece := by
          simp [gapped, isComment]
        rw [kept, some, Tokenizer.tokensFrom, Tokenizer.gapTokensFrom, ih follows]
        rw [readingMode_next, stands]

/-! ## White space around an argument -/

theorem tokens_blank_before {blank : List Char} (isBlank : ∀ character ∈ blank, isSpace character)
    (text : List Char) : sql.tokens (blank ++ text) = sql.tokens text := by
  induction blank with
  | nil => rfl
  | cons character blank ih =>
      have outside : readingMode none = .bare := rfl
      obtain ⟨ended, next⟩ := blank_ends outside (isBlank character (by simp))
      rw [Tokenizer.tokens, List.cons_append, Tokenizer.tokensFrom, ended, next]
      exact ih fun other within => isBlank other (by simp [within])

theorem tokensFrom_blank {blank : List Char} (isBlank : ∀ character ∈ blank, isSpace character)
    {reading : Reading Char TokenState} (outside : readingMode reading = .bare) :
    sql.tokensFrom reading blank = flush reading := by
  induction blank generalizing reading with
  | nil => rfl
  | cons character blank ih =>
      obtain ⟨ended, next⟩ := blank_ends outside (isBlank character (by simp))
      rw [Tokenizer.tokensFrom, ended, next,
        ih (fun other within => isBlank other (by simp [within])) rfl]
      simp [flush]

theorem tokensFrom_blank_behind {blank : List Char}
    (isBlank : ∀ character ∈ blank, isSpace character) {reading : Reading Char TokenState}
    {text : List Char} (outside : readingMode (sql.readFrom reading text) = .bare) :
    sql.tokensFrom reading (text ++ blank) = sql.tokensFrom reading text := by
  induction text generalizing reading with
  | nil => exact tokensFrom_blank isBlank outside
  | cons character text ih =>
      rw [List.cons_append, Tokenizer.tokensFrom, Tokenizer.tokensFrom, ih outside]

theorem readingMode_readFrom (reading : Reading Char TokenState) (text : List Char) :
    readingMode (sql.readFrom reading text) = (readingMode reading).after false text := by
  induction text generalizing reading with
  | nil => rfl
  | cons character text ih =>
      rw [Mode.after, Mode.read_false, ← readingMode_next]
      exact ih (sql.next reading character)

theorem readingMode_cases (reading : Reading Char TokenState) :
    readingMode reading = .bare ∨ readingMode reading = .literal ∨
      readingMode reading = .backslash ∨ readingMode reading = .identifier := by
  cases reading with
  | none => exact Or.inl rfl
  | some current =>
      obtain ⟨state, token⟩ := current
      cases state <;> simp [readingMode, TokenState.mode]

/-- White space closes nothing. -/
theorem bare_of_after_blank {mode : Mode} {blank : List Char}
    (isBlank : ∀ character ∈ blank, isSpace character)
    (outside : mode.after false blank = .bare)
    (quote : mode = .bare ∨ mode = .literal ∨ mode = .backslash ∨ mode = .identifier) :
    mode = .bare := by
  induction blank generalizing mode with
  | nil => exact outside
  | cons character blank ih =>
      have space := isBlank character (by simp)
      have differs : character ≠ '\'' ∧ character ≠ '"' ∧ character ≠ '\\' := by
        refine ⟨?_, ?_, ?_⟩ <;> rintro rfl <;> simp [isSpace] at space
      rw [Mode.after] at outside
      have others : ∀ other ∈ blank, isSpace other := by
        intro other within
        exact isBlank other (by simp [within])
      rcases quote with rfl | rfl | rfl | rfl
      · rfl
      all_goals
        simp only [Mode.read, if_neg differs.1, if_neg differs.2.1, if_neg differs.2.2] at outside
        exact absurd (ih others outside (by simp)) (by decide)

/-- Trimming an argument whose quotes are closed keeps its tokens. -/
theorem tokens_trim {text : List Char} (closed : Mode.bare.after false text = .bare) :
    sql.tokens (trim text) = sql.tokens text := by
  obtain ⟨before, behind, whole, isBefore, isBehind⟩ := trim_spec text
  have outside : readingMode (sql.readFrom none (before ++ trim text)) = .bare := by
    have quote := readingMode_cases (sql.readFrom none (before ++ trim text))
    rw [readingMode_readFrom] at quote ⊢
    refine bare_of_after_blank isBehind ?_ quote
    rw [← Mode.after_false_append, readingMode, ← whole, closed]
  have same : sql.tokens text = sql.tokens (before ++ trim text) := by
    conv_lhs => rw [whole]
    exact tokensFrom_blank_behind isBehind outside
  rw [same, tokens_blank_before isBefore]

/-! ## The arguments of a list -/

/-- The arguments as they stand in the list, with their comments, without the blank ones. -/
def sourceArguments (sql : List Char) (i : Nat) : List (List (Char × Region)) :=
  match pieces sql i with
  | some (pieces, _) => pieces.filter fun piece => trim (uncommented piece) ≠ []
  | none => []

/--
At no comment the first character left behind it goes on with the token that the
text before it ends with.
-/
def CommentsApart (piece : List (Char × Region)) : Prop := sql.Apart none (gapped piece)

/-- An argument has the tokens of its source exactly when its comments keep none apart. -/
theorem tokens_returned_iff {piece : List (Char × Region)}
    (follows : Mode.bare.follow piece = some .bare) :
    sql.tokens (trim (uncommented piece)) = sql.tokens (spaced piece) ↔ CommentsApart piece := by
  have spacedTokens : sql.tokens (spaced piece) = sql.gapTokensFrom none (gapped piece) :=
    tokensFrom_spaced follows rfl
  rw [tokens_trim (after_uncommented follows), spacedTokens, CommentsApart,
    ← Tokenizer.tokensFrom_reduceOption_iff, gapped_reduceOption, Tokenizer.tokens]

theorem pieces_follow {sql : List Char} {i : Nat} {parts : List (List (Char × Region))}
    {left : List (Char × Region)} (isPieces : pieces sql i = some (parts, left)) :
    ∀ piece ∈ parts, Mode.bare.follow piece = some .bare := by
  obtain ⟨text, _, isCut⟩ := Option.bind_eq_some_iff.mp isPieces
  exact cut_follow (le_refl 0) (le_refl 0) (Mode.follow_nil .bare) (follow_regions .bare text) isCut

/--
The returned arguments have the tokens of the source arguments with blanks for
comments exactly when no two tokens are kept apart by comments alone.
-/
theorem parseFunctionArguments_tokens_iff (text : List Char) (i position : Nat)
    (effects : Effects) (arguments : List (List Char))
    (parsed : (parseFunctionArguments text i [] none 0 effects).1 = some (position, arguments)) :
    arguments.map sql.tokens =
        (sourceArguments text i).map (fun piece => sql.tokens (spaced piece)) ↔
      ∀ piece ∈ sourceArguments text i, CommentsApart piece := by
  rw [parseFunctionArguments_eq] at parsed
  obtain ⟨⟨parts, left⟩, isPieces, same⟩ := Option.map_eq_some_iff.mp parsed
  obtain rfl : returned parts = arguments := (Prod.mk.inj same).2
  have follows := pieces_follow isPieces
  have source : sourceArguments text i =
      parts.filter fun piece => trim (uncommented piece) ≠ [] := by
    simp only [sourceArguments, isPieces]
  have shown : returned parts =
      (sourceArguments text i).map fun piece => trim (uncommented piece) := by
    rw [source, returned, List.filter_map]
    rfl
  rw [shown, List.map_map, List.map_inj_left]
  refine forall₂_congr fun piece within => ?_
  have isPiece : piece ∈ parts := by
    rw [source] at within
    exact (List.mem_filter.mp within).1
  exact tokens_returned_iff (follows piece isPiece)

unseal parseLoop in
/-- `(a/**/b)` becomes the one argument `ab`, and a comment between dashes makes a comment. -/
theorem parseFunctionArguments_joined_tokens :
    (parseFunctionArguments ['(', 'a', '/', '*', '*', '/', 'b', ')'] 0 [] none 0
          ⟨0, false, [], []⟩).1 =
        some (8, [['a', 'b']]) ∧
      [['a', 'b']].map sql.tokens ≠
        (sourceArguments ['(', 'a', '/', '*', '*', '/', 'b', ')'] 0).map
          (fun piece => sql.tokens (spaced piece)) ∧
      (parseFunctionArguments ['(', '-', '/', '*', '*', '/', '-', ')'] 0 [] none 0
          ⟨0, false, [], []⟩).1 =
        some (8, [['-', '-']]) := by
  refine ⟨by decide, by decide, by decide⟩

unseal parseLoop in
theorem parseFunctionArguments_tokens_blank :
    [['a', ' ', 'b']].map sql.tokens =
        (sourceArguments ['(', 'a', '/', '*', '*', '/', ' ', 'b', ')'] 0).map
          (fun piece => sql.tokens (spaced piece)) ↔
      ∀ piece ∈ sourceArguments ['(', 'a', '/', '*', '*', '/', ' ', 'b', ')'] 0,
        CommentsApart piece :=
  parseFunctionArguments_tokens_iff _ 0 9 ⟨0, false, [], []⟩ _ (by decide)

end RedshiftOdbc.Escape

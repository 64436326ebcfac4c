import RedshiftOdbc.Library.Regex

/-!
# Matching names against patterns

`patternMatch` turns the pattern of a `LIKE` into a regular expression.  A pattern
of nothing but `%` becomes one that no line terminator matches, and a backslash at
the end of a pattern takes the `$` behind it along.
-/

namespace RedshiftOdbc.Metadata

open RedshiftOdbc.Regex

/-! ## The translation -/

/-- `[\s\S]`. -/
def anyByteText : List UInt8 := [91, 92, 115, 92, 83, 93]

/-- The characters `.^$*+?()[]{}|`, which `convertSqlLikeToRegex` escapes. -/
def metacharacters : List UInt8 := [46, 94, 36, 42, 43, 63, 40, 41, 91, 93, 123, 125, 124]

/-- The loop of `convertSqlLikeToRegex`. -/
def convertLoop : List UInt8 → List UInt8
  | [] => []
  | 92 :: nextChar :: rest =>
      if nextChar = 37 ∨ nextChar = 95 then nextChar :: convertLoop rest
      else if nextChar = 92 then 92 :: 92 :: convertLoop rest
      else 92 :: 92 :: convertLoop (nextChar :: rest)
  | ch :: rest =>
      if ch = 37 then anyByteText ++ 42 :: convertLoop rest
      else if ch = 95 then anyByteText ++ convertLoop rest
      else if metacharacters.contains ch then 92 :: ch :: convertLoop rest
      else ch :: convertLoop rest

def convertSqlLikeToRegex (pattern : List UInt8) : List UInt8 :=
  if pattern.all (· = 37) then [46, 42]
  else 94 :: (convertLoop pattern ++ [36])

/-- `patternMatch`; a regular expression that does not parse is `none`. -/
def patternMatch (str pattern : List UInt8) : Option Bool :=
  if pattern = [] then some true
  else regexMatch (convertSqlLikeToRegex pattern) str

/-! ## The meaning of a pattern -/

inductive LikeToken where
  | literal (byte : UInt8)
  | anyByte
  | anySequence
  deriving DecidableEq, Repr

/-- A backslash escapes `%`, `_` and itself, and any other one stands for itself. -/
def likeTokens : List UInt8 → List LikeToken
  | [] => []
  | 92 :: next :: rest =>
      if next = 37 ∨ next = 95 ∨ next = 92 then .literal next :: likeTokens rest
      else .literal 92 :: likeTokens (next :: rest)
  | 37 :: rest => .anySequence :: likeTokens rest
  | 95 :: rest => .anyByte :: likeTokens rest
  | byte :: rest => .literal byte :: likeTokens rest

def likeMatch : List LikeToken → List UInt8 → Bool
  | [], string => string.isEmpty
  | .literal _ :: _, [] => false
  | .literal expected :: tokens, byte :: string => expected = byte && likeMatch tokens string
  | .anyByte :: _, [] => false
  | .anyByte :: tokens, _ :: string => likeMatch tokens string
  | .anySequence :: tokens, [] => likeMatch tokens []
  | .anySequence :: tokens, byte :: string =>
      likeMatch tokens (byte :: string) || likeMatch (.anySequence :: tokens) string
termination_by tokens string => tokens.length + string.length

/-- SQL's `LIKE` with a backslash as the escape character. -/
def like (pattern str : List UInt8) : Bool := likeMatch (likeTokens pattern) str

/-- The last backslash of the pattern escapes nothing and is not escaped. -/
def endsInBackslash : List UInt8 → Bool
  | [] => false
  | [92] => true
  | 92 :: next :: rest =>
      if next = 37 ∨ next = 95 ∨ next = 92 then endsInBackslash rest
      else endsInBackslash (next :: rest)
  | _ :: rest => endsInBackslash rest

/-! ## Tokens and terms -/

def termOf : LikeToken → Term
  | .literal byte => .atom (.char byte) false
  | .anyByte => .atom (.oneOf [.space, .notSpace]) false
  | .anySequence => .atom (.oneOf [.space, .notSpace]) true

theorem admits_any (byte : UInt8) : (Atom.oneOf [.space, .notSpace]).admits byte = true := by
  cases space : isSpace byte <;> simp [Atom.admits, ClassEscape.admits, space]

/-- The stretch of the regular expression that a token becomes. -/
def tokenText : LikeToken → List UInt8
  | .literal byte => if isSyntax byte then [92, byte] else [byte]
  | .anyByte => anyByteText
  | .anySequence => anyByteText ++ [42]

theorem isSyntax_iff (byte : UInt8) :
    isSyntax byte = true ↔ byte = 92 ∨ metacharacters.contains byte = true := by
  simp only [isSyntax, metacharacters, List.contains_iff_mem, List.mem_cons, List.not_mem_nil,
    or_false]
  grind

theorem not_alphanumeric {byte : UInt8} (marks : isSyntax byte = true) :
    isAlphanumeric byte = false := by
  simp only [isSyntax, List.contains_iff_mem, List.mem_cons, List.not_mem_nil, or_false] at marks
  rcases marks with rfl | rfl | rfl | rfl | rfl | rfl | rfl | rfl | rfl | rfl | rfl | rfl | rfl |
    rfl <;> rfl

theorem parseAtom_anyByteText (rest : List UInt8) :
    parseAtom (anyByteText ++ rest) = some (.oneOf [.space, .notSpace], rest) := rfl

theorem parseAtom_literal (byte : UInt8) (rest : List UInt8) :
    parseAtom (tokenText (.literal byte) ++ rest) = some (.char byte, rest) := by
  cases marks : isSyntax byte with
  | true =>
      rw [tokenText, if_pos marks, List.cons_append, List.cons_append, List.nil_append, parseAtom,
        if_neg (by rw [not_alphanumeric marks]; exact Bool.false_ne_true)]
  | false =>
      rw [tokenText, if_neg (by rw [marks]; exact Bool.false_ne_true), List.cons_append,
        List.nil_append, parseAtom_plain marks]

theorem tokenText_head (token : LikeToken) (rest : List UInt8) :
    (tokenText token ++ rest).head? ≠ some 94 ∧ (tokenText token ++ rest).head? ≠ some 36 ∧
      (tokenText token ++ rest).head? ≠ some 42 := by
  cases token with
  | literal byte =>
      cases marks : isSyntax byte with
      | true =>
          rw [tokenText, if_pos marks, List.cons_append, List.head?_cons]
          decide
      | false =>
          rw [tokenText, if_neg (by rw [marks]; exact Bool.false_ne_true)]
          refine ⟨?_, ?_, ?_⟩ <;> intro same <;> rw [List.cons_append, List.head?_cons,
            Option.some.injEq] at same <;> subst same <;> exact absurd marks (by decide)
  | anyByte =>
      rw [tokenText, anyByteText, List.cons_append, List.head?_cons]
      decide
  | anySequence =>
      rw [tokenText, anyByteText, List.cons_append, List.cons_append, List.head?_cons]
      decide

theorem tokensText_head (tokens : List LikeToken) {rest : List UInt8}
    (notStar : rest.head? ≠ some 42) : (tokens.flatMap tokenText ++ rest).head? ≠ some 42 := by
  cases tokens with
  | nil => exact notStar
  | cons token tokens =>
      rw [List.flatMap_cons, List.append_assoc]
      exact (tokenText_head token _).2.2

/-- The text of tokens parses to their terms, whatever but a star follows. -/
theorem parseTerms_tokens (tokens : List LikeToken) (turns : Nat) {rest : List UInt8}
    (notStar : rest.head? ≠ some 42) :
    parseTerms (turns + tokens.length) (tokens.flatMap tokenText ++ rest) =
      (parseTerms turns rest).map (tokens.map termOf ++ ·) := by
  induction tokens with
  | nil => simp
  | cons token tokens ih =>
      have heads := tokenText_head token (tokens.flatMap tokenText ++ rest)
      have step : parseTerms (turns + tokens.length + 1)
          (tokenText token ++ (tokens.flatMap tokenText ++ rest)) =
            (parseTerms (turns + tokens.length) (tokens.flatMap tokenText ++ rest)).map
              (termOf token :: ·) := by
        cases token with
        | literal byte =>
            exact parseTerms_single heads.1 heads.2.1 (parseAtom_literal byte _)
              (tokensText_head tokens notStar)
        | anyByte =>
            exact parseTerms_single heads.1 heads.2.1 (parseAtom_anyByteText _)
              (tokensText_head tokens notStar)
        | anySequence => exact parseTerms_starred heads.1 heads.2.1 rfl
      rw [List.flatMap_cons, List.append_assoc, List.length_cons, ← Nat.add_assoc, step, ih,
        Option.map_map]
      rfl

theorem length_le_text (tokens : List LikeToken) :
    tokens.length ≤ (tokens.flatMap tokenText).length := by
  induction tokens with
  | nil => exact Nat.le_refl _
  | cons token tokens ih =>
      have one : 1 ≤ (tokenText token).length := by
        cases token with
        | literal byte => rw [tokenText]; split <;> simp
        | anyByte => decide
        | anySequence => decide
      rw [List.flatMap_cons, List.length_append, List.length_cons]
      omega

theorem matchTerms_starAny (terms : List Term) (start : Bool) (string : List UInt8)
    (tokens : List LikeToken)
    (rest : ∀ start string, matchTerms terms start string = likeMatch tokens string) :
    matchTerms (termOf .anySequence :: terms) start string =
      likeMatch (.anySequence :: tokens) string := by
  induction string generalizing start with
  | nil => rw [termOf, matchTerms, likeMatch, rest]
  | cons byte string ih =>
      rw [termOf] at ih ⊢
      rw [matchTerms, likeMatch, rest, admits_any, Bool.true_and, ih]

/-- The terms of tokens match as the tokens do, before the end or not. -/
theorem matchTerms_tokens (tokens : List LikeToken) (tail : List Term)
    (ends : ∀ start string, matchTerms tail start string = string.isEmpty) (start : Bool)
    (string : List UInt8) :
    matchTerms (tokens.map termOf ++ tail) start string = likeMatch tokens string := by
  induction tokens generalizing start string with
  | nil => rw [List.map_nil, List.nil_append, ends, likeMatch]
  | cons token tokens ih =>
      rw [List.map_cons, List.cons_append]
      cases token with
      | literal expected =>
          cases string with
          | nil => rw [termOf, matchTerms, likeMatch]
          | cons byte string => rw [termOf, matchTerms, likeMatch, ih, Atom.admits]
      | anyByte =>
          cases string with
          | nil => rw [termOf, matchTerms, likeMatch]
          | cons byte string => rw [termOf, matchTerms, likeMatch, ih, admits_any, Bool.true_and]
      | anySequence => exact matchTerms_starAny _ start string tokens ih

theorem matchTerms_ends (start : Bool) (string : List UInt8) :
    matchTerms [.ends] start string = string.isEmpty := by
  rw [matchTerms, matchTerms, Bool.and_self]

theorem matchTerms_nil (start : Bool) (string : List UInt8) :
    matchTerms [] start string = string.isEmpty := by
  rw [matchTerms]

/-! ## The translation in tokens -/

theorem endsInBackslash_plain {byte : UInt8} {rest : List UInt8} (other : byte ≠ 92) :
    endsInBackslash (byte :: rest) = endsInBackslash rest := by
  rw [endsInBackslash]
  · exact fun same _ => other same
  · exact fun _ _ same _ => other same

theorem likeTokens_plain {byte : UInt8} {rest : List UInt8} (other : byte ≠ 92)
    (percent : byte ≠ 37) (underscore : byte ≠ 95) :
    likeTokens (byte :: rest) = .literal byte :: likeTokens rest := by
  rw [likeTokens]
  · exact fun _ _ same _ => other same
  · exact percent
  · exact underscore

/-- A pattern whose last backslash escapes something becomes the text of its tokens. -/
theorem convertLoop_tokens (pattern : List UInt8) (closed : endsInBackslash pattern = false) :
    convertLoop pattern = (likeTokens pattern).flatMap tokenText := by
  fun_induction convertLoop pattern with
  | case1 => rw [likeTokens, List.flatMap_nil]
  | case2 nextChar rest wildcard ih =>
      have escapes : nextChar = 37 ∨ nextChar = 95 ∨ nextChar = 92 := by tauto
      rw [endsInBackslash, if_pos escapes] at closed
      rw [likeTokens, if_pos escapes, List.flatMap_cons, ih closed]
      rcases wildcard with rfl | rfl <;> rfl
  | case3 rest wildcard ih =>
      rw [endsInBackslash, if_pos (.inr (.inr rfl))] at closed
      rw [likeTokens, if_pos (.inr (.inr rfl)), List.flatMap_cons, ih closed]
      rfl
  | case4 nextChar rest wildcard other ih =>
      have plain : ¬ (nextChar = 37 ∨ nextChar = 95 ∨ nextChar = 92) := by tauto
      rw [endsInBackslash, if_neg plain] at closed
      rw [likeTokens, if_neg plain, List.flatMap_cons, ih closed]
      rfl
  | case5 rest notEscape ih =>
      rw [endsInBackslash_plain (by decide)] at closed
      rw [likeTokens, List.flatMap_cons, ih closed]
      rfl
  | case6 rest notEscape notPercent ih =>
      rw [endsInBackslash_plain (by decide)] at closed
      rw [likeTokens, List.flatMap_cons, ih closed]
      rfl
  | case7 ch rest notEscape percent underscore marks ih =>
      have other : ch ≠ 92 := by
        rintro rfl
        exact absurd marks (by decide)
      rw [endsInBackslash_plain other] at closed
      rw [likeTokens_plain other percent underscore, List.flatMap_cons, ih closed, tokenText,
        if_pos ((isSyntax_iff ch).mpr (.inr marks))]
      rfl
  | case8 ch rest notEscape percent underscore marks ih =>
      have other : ch ≠ 92 := by
        rintro rfl
        cases rest with
        | nil => exact absurd closed (by decide)
        | cons nextChar rest => exact notEscape nextChar rest rfl rfl
      have plain : ¬ isSyntax ch = true := by
        rw [isSyntax_iff]
        exact fun some => some.elim other marks
      rw [endsInBackslash_plain other] at closed
      rw [likeTokens_plain other percent underscore, List.flatMap_cons, ih closed, tokenText,
        if_neg plain]
      rfl

/-- What a byte other than the backslash adds does not depend on what follows it. -/
theorem convertLoop_plain {byte : UInt8} (other : byte ≠ 92) :
    ∃ text, ∀ rest, convertLoop (byte :: rest) = text ++ convertLoop rest := by
  have step (rest : List UInt8) : convertLoop (byte :: rest) =
      if byte = 37 then anyByteText ++ 42 :: convertLoop rest
      else if byte = 95 then anyByteText ++ convertLoop rest
      else if metacharacters.contains byte then 92 :: byte :: convertLoop rest
      else byte :: convertLoop rest := by
    rw [convertLoop]
    exact fun _ _ same _ => other same
  by_cases percent : byte = 37
  · exact ⟨anyByteText ++ [42], fun rest => by rw [step, if_pos percent]; rfl⟩
  by_cases underscore : byte = 95
  · exact ⟨anyByteText, fun rest => by rw [step, if_neg percent, if_pos underscore]⟩
  by_cases marks : metacharacters.contains byte = true
  · exact ⟨[92, byte], fun rest => by
      rw [step, if_neg percent, if_neg underscore, if_pos marks]; rfl⟩
  · exact ⟨[byte], fun rest => by
      rw [step, if_neg percent, if_neg underscore, if_neg marks]; rfl⟩

theorem likeTokens_step {byte : UInt8} (other : byte ≠ 92) :
    ∃ token, ∀ rest, likeTokens (byte :: rest) = token :: likeTokens rest := by
  by_cases percent : byte = 37
  · subst percent
    exact ⟨.anySequence, fun rest => by rw [likeTokens]⟩
  by_cases underscore : byte = 95
  · subst underscore
    exact ⟨.anyByte, fun rest => by rw [likeTokens]⟩
  · exact ⟨.literal byte, fun rest => likeTokens_plain other percent underscore⟩

/-- A pattern whose last backslash escapes nothing, without that backslash. -/
structure OpenEnd (pattern front : List UInt8) : Prop where
  split : pattern = front ++ [92]
  closed : endsInBackslash front = false
  tokens : likeTokens pattern = likeTokens front ++ [.literal 92]
  text : convertLoop pattern = convertLoop front ++ [92]

theorem openEnd_of_ends (pattern : List UInt8) (ends : endsInBackslash pattern = true) :
    ∃ front, OpenEnd pattern front := by
  fun_induction endsInBackslash pattern with
  | case1 => exact absurd ends Bool.false_ne_true
  | case2 => exact ⟨[], rfl, rfl, rfl, rfl⟩
  | case3 next rest escapes ih =>
      obtain ⟨front, shorter⟩ := ih ends
      refine ⟨92 :: next :: front, by rw [shorter.split]; rfl, ?_, ?_, ?_⟩
      · rw [endsInBackslash, if_pos escapes, shorter.closed]
      · rw [likeTokens, likeTokens, if_pos escapes, if_pos escapes, shorter.tokens]
        rfl
      · rw [convertLoop, convertLoop, shorter.text]
        split
        · rfl
        · rw [if_pos (by tauto), if_pos (by tauto)]
          rfl
  | case4 next rest escapes ih =>
      obtain ⟨front, shorter⟩ := ih ends
      cases front with
      | nil =>
          have same : next = 92 := (List.cons.inj shorter.split).1
          exact absurd (.inr (.inr same)) escapes
      | cons first front =>
          obtain ⟨rfl, -⟩ := List.cons.inj shorter.split
          refine ⟨92 :: next :: front, by rw [shorter.split]; rfl, ?_, ?_, ?_⟩
          · rw [endsInBackslash, if_neg escapes, shorter.closed]
          · rw [likeTokens, likeTokens, if_neg escapes, if_neg escapes, shorter.tokens]
            rfl
          · rw [convertLoop, convertLoop, if_neg (by tauto), if_neg (by tauto),
              if_neg (by tauto), if_neg (by tauto), shorter.text]
            rfl
  | case5 byte rest notLast notEscape ih =>
      have other : byte ≠ 92 := by
        rintro rfl
        cases rest with
        | nil => exact notLast rfl rfl
        | cons next rest => exact notEscape next rest rfl rfl
      obtain ⟨front, shorter⟩ := ih ends
      obtain ⟨text, textOf⟩ := convertLoop_plain other
      obtain ⟨token, tokenOf⟩ := likeTokens_step other
      refine ⟨byte :: front, by rw [shorter.split]; rfl, ?_, ?_, ?_⟩
      · rw [endsInBackslash_plain other, shorter.closed]
      · rw [tokenOf, tokenOf, shorter.tokens]
        rfl
      · rw [textOf, textOf, shorter.text, List.append_assoc]

/-- Whether a byte is in front of a last one. -/
theorem cons_eq_snoc {byte last : UInt8} {string : List UInt8} {matched : List UInt8 → Prop} :
    (∃ front, byte :: string = front ++ [last] ∧ matched front) ↔
      (string = [] ∧ byte = last ∧ matched []) ∨
        ∃ front, string = front ++ [last] ∧ matched (byte :: front) := by
  constructor
  · rintro ⟨front, split, holds⟩
    cases front with
    | nil =>
        obtain ⟨rfl, rfl⟩ := List.cons.inj split
        exact .inl ⟨rfl, rfl, holds⟩
    | cons first front =>
        obtain ⟨rfl, rfl⟩ := List.cons.inj split
        exact .inr ⟨front, rfl, holds⟩
  · rintro (⟨rfl, rfl, holds⟩ | ⟨front, rfl, holds⟩)
    · exact ⟨[], rfl, holds⟩
    · exact ⟨byte :: front, rfl, holds⟩

theorem not_nil_eq_snoc {last : UInt8} {matched : List UInt8 → Prop} :
    ¬ ∃ front, [] = front ++ [last] ∧ matched front := by
  rintro ⟨front, split, -⟩
  exact List.append_ne_nil_of_right_ne_nil front (List.cons_ne_nil last []) split.symm

/-- A literal at the end of the tokens takes the last byte. -/
theorem likeMatch_snoc (tokens : List LikeToken) (last : UInt8) (string : List UInt8) :
    likeMatch (tokens ++ [.literal last]) string = true ↔
      ∃ front, string = front ++ [last] ∧ likeMatch tokens front = true := by
  induction tokens generalizing string with
  | nil =>
      cases string with
      | nil => simp [likeMatch]
      | cons byte string =>
          rw [List.nil_append, likeMatch, likeMatch, cons_eq_snoc, Bool.and_eq_true,
            decide_eq_true_iff, List.isEmpty_iff]
          simp only [likeMatch, List.isEmpty_nil, List.isEmpty_cons, Bool.false_eq_true, and_false,
            exists_false, or_false, and_true]
          rw [and_comm, @eq_comm _ last byte]
  | cons token tokens ih =>
      rw [List.cons_append]
      cases token with
      | literal expected =>
          cases string with
          | nil => simp [likeMatch]
          | cons byte string =>
              rw [likeMatch, Bool.and_eq_true, ih, decide_eq_true_iff, cons_eq_snoc]
              simp only [likeMatch, Bool.false_eq_true, and_false, false_or, Bool.and_eq_true,
                decide_eq_true_iff]
              exact ⟨fun ⟨same, front, split, rest⟩ => ⟨front, split, same, rest⟩,
                fun ⟨front, split, same, rest⟩ => ⟨same, front, split, rest⟩⟩
      | anyByte =>
          cases string with
          | nil => simp [likeMatch]
          | cons byte string =>
              rw [likeMatch, ih, cons_eq_snoc]
              simp only [likeMatch, Bool.false_eq_true, and_false, false_or]
      | anySequence =>
          induction string with
          | nil =>
              rw [likeMatch, ih]
              exact iff_of_false not_nil_eq_snoc not_nil_eq_snoc
          | cons byte string ihString =>
              rw [likeMatch, Bool.or_eq_true, ih, ihString, cons_eq_snoc, cons_eq_snoc]
              simp only [likeMatch, Bool.or_eq_true]
              constructor
              · rintro ((one | ⟨front, split, rest⟩) | ⟨front, split, rest⟩)
                · exact .inl one
                · exact .inr ⟨front, split, .inl rest⟩
                · exact .inr ⟨front, split, .inr rest⟩
              · rintro (one | ⟨front, split, rest | rest⟩)
                · exact .inl (.inl one)
                · exact .inl (.inr ⟨front, split, rest⟩)
                · exact .inr ⟨front, split, rest⟩

/-! ## Names against patterns -/

theorem like_percents {pattern : List UInt8} (percents : ∀ byte ∈ pattern, byte = 37)
    (nonempty : pattern ≠ []) (str : List UInt8) : like pattern str = true := by
  rw [like]
  induction pattern generalizing str with
  | nil => exact absurd rfl nonempty
  | cons byte rest ih =>
      obtain rfl := percents byte (List.mem_cons_self ..)
      rw [likeTokens]
      induction str with
      | nil =>
          rw [likeMatch]
          cases rest with
          | nil => rw [likeTokens, likeMatch, List.isEmpty_nil]
          | cons other rest =>
              exact ih (fun byte member => percents byte (List.mem_cons_of_mem _ member))
                (List.cons_ne_nil _ _) []
      | cons byte str ihStr => rw [likeMatch, ihStr, Bool.or_true]

/-- The regular expression of a pattern of nothing but `%`. -/
theorem regexMatch_dots (str : List UInt8) :
    regexMatch [46, 42] str = some (str.all fun byte => !isLineTerminator byte) := by
  have parsed : parse [46, 42] = some [.atom .dot true] := rfl
  rw [regexMatch, parsed, Option.map_some, Option.some.injEq]
  suffices every : ∀ start, matchTerms [.atom .dot true] start str =
      str.all fun byte => !isLineTerminator byte from every true
  induction str with
  | nil => exact fun start => by rw [matchTerms, matchTerms]; rfl
  | cons byte str ih =>
      intro start
      rw [matchTerms, matchTerms, List.isEmpty_cons, Bool.false_or, ih, Atom.admits, List.all_cons]

/-- The regular expression around the text of tokens, with the terms of what follows. -/
theorem regexMatch_around (tokens : List LikeToken) {rest : List UInt8} (tail : List Term)
    (notStar : rest.head? ≠ some 42)
    (parsed : ∀ turns, rest.length ≤ turns → parseTerms turns rest = some tail)
    (str : List UInt8) :
    regexMatch (94 :: (tokens.flatMap tokenText ++ rest)) str =
      some (matchTerms (tokens.map termOf ++ tail) true str) := by
  have shorter := length_le_text tokens
  obtain ⟨turns, enough⟩ : ∃ turns, (tokens.flatMap tokenText ++ rest).length =
      turns + tokens.length ∧ rest.length ≤ turns := by
    refine ⟨(tokens.flatMap tokenText ++ rest).length - tokens.length, ?_, ?_⟩ <;>
      rw [List.length_append] <;> omega
  have terms : parse (94 :: (tokens.flatMap tokenText ++ rest)) =
      some (.begins :: (tokens.map termOf ++ tail)) := by
    rw [parse, List.length_cons, parseTerms, enough.1, parseTerms_tokens tokens turns notStar,
      parsed turns enough.2]
    rfl
  rw [regexMatch, terms, Option.map_some, matchTerms, Bool.true_and]

/-- A pattern whose last backslash escapes something is translated to what it means. -/
theorem regexMatch_closed {pattern : List UInt8} (closed : endsInBackslash pattern = false)
    (str : List UInt8) :
    regexMatch (94 :: (convertLoop pattern ++ [36])) str = some (like pattern str) := by
  rw [convertLoop_tokens pattern closed, regexMatch_around (likeTokens pattern) [.ends]
    (by decide), matchTerms_tokens _ _ matchTerms_ends, like]
  intro turns enough
  obtain ⟨turns, rfl⟩ : ∃ less, turns = less + 1 := ⟨turns - 1, by simp at enough; omega⟩
  rw [parseTerms, parseTerms]
  rfl

/-- The backslash at the end of a pattern makes a literal of the `$`. -/
theorem regexMatch_openEnd {pattern front : List UInt8} (openEnd : OpenEnd pattern front)
    (str : List UInt8) :
    regexMatch (94 :: (convertLoop pattern ++ [36])) str =
      some (likeMatch (likeTokens front ++ [.literal 36]) str) := by
  rw [openEnd.text, convertLoop_tokens front openEnd.closed, List.append_assoc,
    regexMatch_around (likeTokens front) [termOf (.literal 36)] (by decide)]
  · have snoc : (likeTokens front).map termOf ++ [termOf (.literal 36)] =
        (likeTokens front ++ [LikeToken.literal 36]).map termOf ++ [] := by
      rw [List.append_nil, List.map_append]
      rfl
    rw [snoc, matchTerms_tokens _ _ matchTerms_nil]
  · intro turns enough
    obtain ⟨turns, rfl⟩ : ∃ less, turns = less + 1 := ⟨turns - 1, by simp at enough; omega⟩
    have atom : parseAtom [92, 36] = some (.char 36, []) := rfl
    rw [List.cons_append, List.nil_append, parseTerms_single (by decide) (by decide) atom
      (by decide), parseTerms]
    rfl

/-- When the translation does what `LIKE` does. -/
def TranslatedWell (str pattern : List UInt8) : Prop :=
  if pattern.all (· = 37) then ∀ byte ∈ str, isLineTerminator byte = false
  else if endsInBackslash pattern then
    ¬ ∃ front last, str = front ++ [last] ∧ (last = 92 ∨ last = 36) ∧
      like pattern.dropLast front = true
  else True

theorem patternMatch_like (str pattern : List UInt8) (nonempty : pattern ≠ []) :
    patternMatch str pattern = some (like pattern str) ↔ TranslatedWell str pattern := by
  rw [patternMatch, if_neg nonempty, convertSqlLikeToRegex, TranslatedWell]
  by_cases percents : pattern.all (· = 37) = true
  · rw [if_pos percents, if_pos percents, regexMatch_dots, like_percents _ nonempty,
      Option.some.injEq, List.all_eq_true]
    · simp only [Bool.not_eq_true']
    · simpa using percents
  rw [if_neg percents, if_neg percents]
  by_cases ends : endsInBackslash pattern = true
  · obtain ⟨front, openEnd⟩ := openEnd_of_ends pattern ends
    have dropped : pattern.dropLast = front := by rw [openEnd.split, List.dropLast_concat]
    have literal (last : UInt8) := likeMatch_snoc (likeTokens front) last str
    rw [if_pos ends, regexMatch_openEnd openEnd, like, openEnd.tokens, Option.some.injEq,
      Bool.eq_iff_iff, literal, literal, dropped]
    constructor
    · rintro same ⟨shorter, last, split, rfl | rfl, matched⟩
      · obtain ⟨other, again, -⟩ := same.mpr ⟨shorter, split, matched⟩
        rw [split] at again
        exact absurd (List.append_inj_right' again rfl) (by decide)
      · obtain ⟨other, again, -⟩ := same.mp ⟨shorter, split, matched⟩
        rw [split] at again
        exact absurd (List.append_inj_right' again rfl) (by decide)
    · exact fun neither => iff_of_false
        (fun ⟨shorter, split, matched⟩ => neither ⟨shorter, 36, split, .inr rfl, matched⟩)
        (fun ⟨shorter, split, matched⟩ => neither ⟨shorter, 92, split, .inl rfl, matched⟩)
  · rw [if_neg ends, regexMatch_closed (Bool.not_eq_true _ ▸ ends)]
    exact iff_of_true rfl trivial

/-- A name with a metacharacter in it and a pattern with an escaped `_`. -/
theorem patternMatch_like_escaped :
    patternMatch [97, 95, 46, 10] [97, 92, 95, 46, 37] =
      some (like [97, 92, 95, 46, 37] [97, 95, 46, 10]) :=
  (patternMatch_like _ _ (List.cons_ne_nil _ _)).mpr (by
    rw [TranslatedWell, if_neg (by decide), if_neg (by decide)]
    trivial)

unseal Regex.matchTerms likeMatch in
/-- `%` does not match a line feed, and the pattern `a\` matches `a$`. -/
theorem patternMatch_wrong :
    patternMatch [10] [37] = some false ∧ like [37] [10] = true ∧
      patternMatch [97, 36] [97, 92] = some true ∧ like [97, 92] [97, 36] = false := by
  decide

end RedshiftOdbc.Metadata

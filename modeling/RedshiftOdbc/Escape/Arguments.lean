import RedshiftOdbc.Escape.Regions
import RedshiftOdbc.Library.Scanf
import Mathlib.Data.List.DropRight

/-!
# Function arguments

`parseFunctionArguments` reads the argument list of a scalar function behind its
name.  What it returns is described by the regions of the text: the list ends at
the first bare closing parenthesis that has no opening one, whether or not a
brace is open there, and bare commas outside of all parentheses and braces cut
it into the arguments.
-/

namespace RedshiftOdbc.Escape

open RedshiftOdbc.Scanf

inductive ParseState where
  | normal
  | inSingleQuote
  | inDoubleQuote
  | inSingleLineComment
  | inMultiLineComment
  | afterString
  | afterIdentifier
  deriving DecidableEq, Repr

/-- `ParserContext`.  The text from `pos` on is passed beside it. -/
structure ParserContext where
  state : ParseState
  parenthesesDepth : Int
  braceDepth : Int
  arguments : List (List Char)
  deriving DecidableEq, Repr

/-- `arguments.back() += text`, when there is an argument. -/
def appendBack (arguments : List (List Char)) (text : List Char) : List (List Char) :=
  match arguments with
  | [] => []
  | [last] => [last ++ text]
  | first :: rest => first :: appendBack rest text

def ParserContext.append (ctx : ParserContext) (text : List Char) : ParserContext :=
  { ctx with arguments := appendBack ctx.arguments text }

def trim (argument : List Char) : List Char :=
  (argument.dropWhile isSpace).rdropWhile isSpace

def finalizeArgument (arguments : List (List Char)) : List (List Char) :=
  match arguments with
  | [] => []
  | [last] => if trim last = [] then [] else [trim last]
  | first :: rest => first :: finalizeArgument rest

inductive Event where
  /-- A clause with this keyword was opened. -/
  | opened (keyword : List Char)
  /-- An interval qualifier was spelled out. -/
  | qualifier
  /-- Behind so many blanks there was no function name. -/
  | missingName (blanks : Nat)
  /-- It was taken in the copy of an argument list. -/
  | copied (event : Event)
  /-- What was written to the temporary buffer of a clause in an argument list. -/
  | temporary (writes : List (Nat × Char))
  deriving DecidableEq, Repr

/--
What a translation changes beside the text: the counter of the markers, and the
statement's flag and its errors.  `log` is no variable of the code; it says
which branches were taken.
-/
structure Effects where
  paramNumber : Int
  iFunctionCall : Bool
  pErrorList : List (String × String)
  log : List Event
  deriving DecidableEq, Repr

/--
What a successful call of `replaceODBCEscapeClause` at a `{` leaves: the text in
its buffer and how far behind the `{` it stopped, at a `}`.
-/
structure NestedClause where
  text : List Char
  distance : Nat
  deriving DecidableEq, Repr

/-- `replaceODBCEscapeClause` on a text from a `{` on. -/
abbrev ClauseReader := List Char → Effects → Option NestedClause × Effects

/-- One character of the loop: it goes on, behind so many characters more, or it returns. -/
inductive Turn where
  | next (ctx : ParserContext) (effects : Effects) (skipped : Nat)
  | finished (arguments : List (List Char))
  | failed (effects : Effects)
  deriving DecidableEq, Repr

def ParserContext.normal (ctx : ParserContext) (pStmt : Option ClauseReader)
    (numOfParamMarkers : Int) (effects : Effects) (c : Char) (rest : List Char) : Turn :=
  let next := rest.headD '\x00'
  if c = '\'' then .next { ctx.append [c] with state := .inSingleQuote } effects 0
  else if c = '"' then .next { ctx.append [c] with state := .inDoubleQuote } effects 0
  else if c = '-' ∧ next = '-' then .next { ctx with state := .inSingleLineComment } effects 1
  else if c = '/' ∧ next = '*' then .next { ctx with state := .inMultiLineComment } effects 1
  else if c = '(' then
    .next { ctx.append [c] with parenthesesDepth := ctx.parenthesesDepth + 1 } effects 0
  else if c = '{' then
    match pStmt with
    | some replaceODBCEscapeClause =>
        if ctx.braceDepth = 0 ∧ ctx.parenthesesDepth = 0 then
          match replaceODBCEscapeClause (c :: rest) effects with
          | (some clause, effects) => .next (ctx.append clause.text) effects clause.distance
          | (none, effects) => .failed effects
        else .next { ctx.append [c] with braceDepth := ctx.braceDepth + 1 } effects 0
    | none => .next { ctx.append [c] with braceDepth := ctx.braceDepth + 1 } effects 0
  else if c = ')' then
    if ctx.parenthesesDepth = 0 then .finished (finalizeArgument ctx.arguments)
    else .next { ctx.append [c] with parenthesesDepth := ctx.parenthesesDepth - 1 } effects 0
  else if c = '}' then
    if ctx.braceDepth ≤ 0 then .failed effects
    else .next { ctx.append [c] with braceDepth := ctx.braceDepth - 1 } effects 0
  else if c = ',' ∧ ctx.parenthesesDepth = 0 ∧ ctx.braceDepth = 0 then
    .next { ctx with arguments := finalizeArgument ctx.arguments ++ [[]] } effects 0
  else if c = '?' ∧ numOfParamMarkers > 0 then
    .next (ctx.append ('$' :: (toString (effects.paramNumber + 1)).toList))
      { effects with paramNumber := effects.paramNumber + 1 } 0
  else .next (ctx.append [c]) effects 0

def ParserContext.singleQuote (ctx : ParserContext) (c : Char) (rest : List Char) :
    ParserContext × Nat :=
  let next := rest.headD '\x00'
  if (c = '\\' ∧ next = '\'') ∨ (c = '\'' ∧ next = '\'') then (ctx.append [c, next], 1)
  else if c = '\'' then ({ ctx.append [c] with state := .afterString }, 0)
  else (ctx.append [c], 0)

def ParserContext.doubleQuote (ctx : ParserContext) (c : Char) (rest : List Char) :
    ParserContext × Nat :=
  let next := rest.headD '\x00'
  if c = '"' then
    if next = '"' then (ctx.append [c, next], 1)
    else ({ ctx.append [c] with state := .afterIdentifier }, 0)
  else (ctx.append [c], 0)

/-- The cases of the two comment states. -/
def ParserContext.comment (ctx : ParserContext) (c : Char) (rest : List Char) :
    ParserContext × Nat :=
  let next := rest.headD '\x00'
  match ctx.state with
  | .inSingleLineComment =>
      if c = '\n' ∨ c = '\r' then ({ ctx with state := .normal }, 0) else (ctx, 0)
  | _ => if c = '*' ∧ next = '/' then ({ ctx with state := .normal }, 1) else (ctx, 0)

/-- The switch over the state, where the character is read. -/
def ParserContext.turn (ctx : ParserContext) (pStmt : Option ClauseReader)
    (numOfParamMarkers : Int) (effects : Effects) (c : Char) (rest : List Char) : Turn :=
  match ctx.state with
  | .inSingleQuote =>
      .next (ctx.singleQuote c rest).1 effects (ctx.singleQuote c rest).2
  | .inDoubleQuote =>
      .next (ctx.doubleQuote c rest).1 effects (ctx.doubleQuote c rest).2
  | .inSingleLineComment | .inMultiLineComment =>
      .next (ctx.comment c rest).1 effects (ctx.comment c rest).2
  | _ => ctx.normal pStmt numOfParamMarkers effects c rest

/-- Behind a string or an identifier, where only the state changes. -/
def ParseState.after (state : ParseState) : Bool :=
  state = .afterString || state = .afterIdentifier

/-- The loop: the arguments, and the text behind the closing parenthesis. -/
def parseLoop (pStmt : Option ClauseReader) (numOfParamMarkers : Int) (ctx : ParserContext)
    (effects : Effects) (text : List Char) : Option (List (List Char) × List Char) × Effects :=
  match text with
  | [] => (none, effects)
  | c :: rest =>
      if ctx.state.after then
        parseLoop pStmt numOfParamMarkers { ctx with state := .normal } effects (c :: rest)
      else
        match ctx.turn pStmt numOfParamMarkers effects c rest with
        | .next ctx effects skipped =>
            parseLoop pStmt numOfParamMarkers ctx effects (rest.drop skipped)
        | .finished arguments => (some (arguments, rest), effects)
        | .failed effects => (none, effects)
termination_by 2 * text.length + ctx.state.after.toNat
decreasing_by
  · rename_i isAfter
    have plain : ParseState.normal.after = false := rfl
    simp [isAfter, plain]
  · have bounded := Bool.toNat_le ctx.state.after
    simp only [List.length_drop, List.length_cons]
    omega

/-- The text behind the opening parenthesis, with the white space before it skipped. -/
def listText (sql : List Char) (i : Nat) : Option (List Char) :=
  match (sql.drop i).dropWhile isSpace with
  | '(' :: rest => some rest
  | _ => none

/-- `parseFunctionArguments`: the new position and the arguments. -/
def parseFunctionArguments (sql : List Char) (i : Nat) (out : List (List Char))
    (pStmt : Option ClauseReader) (numOfParamMarkers : Int) (effects : Effects) :
    Option (Nat × List (List Char)) × Effects :=
  match listText sql i with
  | some text =>
      match parseLoop pStmt numOfParamMarkers ⟨.normal, 0, 0, out ++ [[]]⟩ effects text with
      | (some (arguments, left), effects) => (some (sql.length - left.length, arguments), effects)
      | (none, effects) => (none, effects)
  | none => (none, effects)

/-! ## The pieces of the list -/

/--
The pieces of an argument list up to its closing parenthesis, and what follows
it, with so many parentheses and braces open and the first piece begun.
-/
def cut (parentheses braces : Int) (piece : List (Char × Region)) :
    List (Char × Region) → Option (List (List (Char × Region)) × List (Char × Region))
  | [] => none
  | character :: rest =>
      if character = ('(', .bare) then cut (parentheses + 1) braces (piece ++ [character]) rest
      else if character = ('{', .bare) then
        cut parentheses (braces + 1) (piece ++ [character]) rest
      else if character = (')', .bare) then
        if parentheses = 0 then some ([piece], rest)
        else cut (parentheses - 1) braces (piece ++ [character]) rest
      else if character = ('}', .bare) then
        if braces ≤ 0 then none else cut parentheses (braces - 1) (piece ++ [character]) rest
      else if character = (',', .bare) ∧ parentheses = 0 ∧ braces = 0 then
        (cut 0 0 [] rest).map fun result => (piece :: result.1, result.2)
      else cut parentheses braces (piece ++ [character]) rest

/-- The pieces as they are returned: without comments and white space, and none that is empty. -/
def returned (pieces : List (List (Char × Region))) : List (List Char) :=
  (pieces.map fun piece => trim (uncommented piece)).filter (· ≠ [])

/-- A character that is not bare only belongs to its piece. -/
theorem cut_covered (parentheses braces : Int) (piece : List (Char × Region))
    {character : Char × Region} (covered : character.2 ≠ .bare) (rest : List (Char × Region)) :
    cut parentheses braces piece (character :: rest) =
      cut parentheses braces (piece ++ [character]) rest := by
  have differs : ∀ bare : Char, character ≠ (bare, .bare) := by
    rintro bare rfl
    exact covered rfl
  simp [cut, differs]

@[simp] theorem appendBack_concat (done : List (List Char)) (last text : List Char) :
    appendBack (done ++ [last]) text = done ++ [last ++ text] := by
  induction done with
  | nil => rfl
  | cons first done ih =>
      cases done with
      | nil => rfl
      | cons second done => simpa [appendBack] using ih

@[simp] theorem finalizeArgument_concat (done : List (List Char)) (last : List Char) :
    finalizeArgument (done ++ [last]) = done ++ if trim last = [] then [] else [trim last] := by
  induction done with
  | nil => rfl
  | cons first done ih =>
      cases done with
      | nil => rfl
      | cons second done => simpa [finalizeArgument] using ih

theorem returned_cons (piece : List (Char × Region)) (rest : List (List (Char × Region))) :
    returned (piece :: rest) =
      (if trim (uncommented piece) = [] then [] else [trim (uncommented piece)]) ++
        returned rest := by
  by_cases blank : trim (uncommented piece) = [] <;> simp [returned, blank]

/-- What the loop stands in, by its state and by the regions. -/
def Follows (state : ParseState) (mode : Mode) (text : List Char) : Prop :=
  match state, mode with
  | .normal, .bare | .afterString, .bare | .afterIdentifier, .bare => True
  | .inSingleQuote, .literal | .inDoubleQuote, .identifier => True
  | .inSingleQuote, .backslash => text.head? ≠ some '\''
  | .inSingleLineComment, .line | .inMultiLineComment, .block => True
  | .inMultiLineComment, .star => text.head? ≠ some '/'
  | _, _ => False

/-- What the loop returns, as the cut of the regions says. -/
def Agrees (ctx : ParserContext) (effects : Effects) (text : List Char) (mode : Mode)
    (piece : List (Char × Region)) (done : List (List Char)) : Prop :=
  ctx.arguments = done ++ [uncommented piece] →
    parseLoop none 0 ctx effects text =
      ((cut ctx.parenthesesDepth ctx.braceDepth piece (regions true mode text)).map fun result =>
        (done ++ returned result.1, result.2.map Prod.fst), effects)

theorem parseLoop_after (pStmt : Option ClauseReader) (numOfParamMarkers : Int)
    {ctx : ParserContext} (isAfter : ctx.state.after = true) (effects : Effects)
    (text : List Char) :
    parseLoop pStmt numOfParamMarkers ctx effects text =
      parseLoop pStmt numOfParamMarkers { ctx with state := .normal } effects text := by
  cases text with
  | nil => simp [parseLoop]
  | cons c rest => rw [parseLoop, if_pos isAfter]

theorem parseLoop_cons (pStmt : Option ClauseReader) (numOfParamMarkers : Int)
    {ctx : ParserContext} (here : ctx.state.after = false) (effects : Effects) (c : Char)
    (rest : List Char) :
    parseLoop pStmt numOfParamMarkers ctx effects (c :: rest) =
      match ctx.turn pStmt numOfParamMarkers effects c rest with
      | .next ctx effects skipped =>
          parseLoop pStmt numOfParamMarkers ctx effects (rest.drop skipped)
      | .finished arguments => (some (arguments, rest), effects)
      | .failed effects => (none, effects) := by
  rw [parseLoop, here]
  rfl

theorem cut_covered_append (parentheses braces : Int) (piece : List (Char × Region))
    {labels : List (Char × Region)} (covered : ∀ character ∈ labels, character.2 ≠ .bare)
    (rest : List (Char × Region)) :
    cut parentheses braces piece (labels ++ rest) =
      cut parentheses braces (piece ++ labels) rest := by
  induction labels generalizing piece with
  | nil => simp
  | cons character labels ih =>
      rw [List.cons_append, cut_covered _ _ _ (covered character (by simp)),
        ih _ fun other within => covered other (by simp [within])]
      simp

/-- A turn that only adds covered characters to the piece. -/
theorem Agrees.step {ctx ctx' : ParserContext} {effects : Effects} {c : Char} {rest : List Char}
    {skipped : Nat} {mode : Mode} (mode' : Mode) {piece : List (Char × Region)}
    (labels : List (Char × Region)) {done : List (List Char)}
    (here : ctx.state.after = false)
    (turn : ctx.turn none 0 effects c rest = .next ctx' effects skipped)
    (read : regions true mode (c :: rest) = labels ++ regions true mode' (rest.drop skipped))
    (covered : ∀ character ∈ labels, character.2 ≠ .bare)
    (same : ctx'.parenthesesDepth = ctx.parenthesesDepth ∧ ctx'.braceDepth = ctx.braceDepth ∧
      ctx'.arguments = appendBack ctx.arguments (uncommented labels))
    (agrees : Agrees ctx' effects (rest.drop skipped) mode' (piece ++ labels) done) :
    Agrees ctx effects (c :: rest) mode piece done := by
  intro holds
  have kept : ctx'.arguments = done ++ [uncommented (piece ++ labels)] := by
    rw [same.2.2, holds, appendBack_concat, uncommented_append]
  rw [parseLoop_cons none 0 here, turn]
  show parseLoop none 0 ctx' effects (rest.drop skipped) = _
  rw [agrees kept, read, cut_covered_append _ _ _ covered, same.1, same.2.1]

theorem appendBack_nil (arguments : List (List Char)) : appendBack arguments [] = arguments := by
  induction arguments with
  | nil => rfl
  | cons first rest ih => cases rest <;> simp_all [appendBack]

theorem getD_head?_eq {rest : List Char} {character : Char} (other : character ≠ '\x00') :
    rest.head?.getD '\x00' = character ↔ rest.head? = some character := by
  cases rest with
  | nil => simp [other.symm]
  | cons first rest => simp

theorem shorter_tail (first second : Char) (tail : List Char) :
    tail.length < (first :: second :: tail).length := by
  simp only [List.length_cons]
  omega

/-- What is left to show of a shorter text. -/
def Shorter (effects : Effects) (done : List (List Char)) (length : Nat) : Prop :=
  ∀ text : List Char, text.length < length →
    ∀ (ctx : ParserContext) (mode : Mode) (piece : List (Char × Region)),
      Follows ctx.state mode text → Agrees ctx effects text mode piece done

theorem agrees_singleQuote {ctx : ParserContext} (isState : ctx.state = .inSingleQuote)
    {effects : Effects} {c : Char} {rest : List Char} {mode : Mode}
    (follows : Follows .inSingleQuote mode (c :: rest))
    {piece : List (Char × Region)} {done : List (List Char)}
    (ih : Shorter effects done (c :: rest).length) :
    Agrees ctx effects (c :: rest) mode piece done := by
  have here : ctx.state.after = false := by simp [isState, ParseState.after]
  have turned : ctx.turn none 0 effects c rest =
      .next (ctx.singleQuote c rest).1 effects (ctx.singleQuote c rest).2 := by
    simp [ParserContext.turn, isState]
  have quoted : mode = .literal ∨ mode = .backslash ∧ c ≠ '\'' := by
    cases mode <;> simp_all [Follows]
  by_cases pair : (c = '\\' ∨ c = '\'') ∧ rest.head? = some '\''
  · obtain ⟨tail, rfl⟩ : ∃ tail, rest = '\'' :: tail := by
      cases rest with
      | nil => simp at pair
      | cons d tail => exact ⟨tail, by simpa using pair.2⟩
    have taken : ctx.singleQuote c ('\'' :: tail) = (ctx.append [c, '\''], 1) := by
      rcases pair.1 with rfl | rfl <;> simp [ParserContext.singleQuote]
    rw [taken] at turned
    refine Agrees.step .literal [(c, .literal), ('\'', .literal)]
      here turned ?_ (by simp) ⟨rfl, rfl, rfl⟩ (ih tail (shorter_tail _ _ _) _ _ _ ?_)
    · rcases quoted with rfl | ⟨rfl, other⟩
      · rcases pair.1 with rfl | rfl <;> simp [regions, Mode.read]
      · rcases pair.1 with rfl | rfl
        · simp [regions, Mode.read]
        · exact absurd rfl other
    · simp [ParserContext.append, isState, Follows]
  · have shorter : rest.length < (c :: rest).length := by simp
    by_cases closes : c = '\''
    · subst closes
      have taken : ctx.singleQuote '\'' rest =
          ({ ctx.append ['\''] with state := .afterString }, 0) := by
        have alone : rest.head?.getD '\x00' ≠ '\'' := by
          rw [ne_eq, getD_head?_eq (by decide)]
          simpa using pair
        simpa [ParserContext.singleQuote] using alone
      rw [taken] at turned
      have isLiteral : mode = .literal := by simpa using quoted
      subst isLiteral
      exact Agrees.step .bare [('\'', .literal)] here turned
        (by simp [regions, Mode.read]) (by simp) ⟨rfl, rfl, rfl⟩ (ih rest shorter _ _ _ trivial)
    · have taken : ctx.singleQuote c rest = (ctx.append [c], 0) := by
        have alone : c = '\\' → ¬ rest.head?.getD '\x00' = '\'' := by
          rw [getD_head?_eq (by decide)]
          exact fun isBackslash next => pair ⟨Or.inl isBackslash, next⟩
        simpa [ParserContext.singleQuote, closes] using alone
      rw [taken] at turned
      refine Agrees.step (if c = '\\' then .backslash else .literal)
        [(c, .literal)] here turned ?_ (by simp) ⟨rfl, rfl, rfl⟩
        (ih rest shorter _ _ _ ?_)
      · rcases quoted with rfl | ⟨rfl, other⟩ <;> simp [regions, Mode.read, closes]
      · by_cases isBackslash : c = '\\'
        · simpa [ParserContext.append, isState, Follows, isBackslash] using pair
        · simp [ParserContext.append, isState, Follows, isBackslash]

theorem agrees_doubleQuote {ctx : ParserContext} (isState : ctx.state = .inDoubleQuote)
    {effects : Effects} {c : Char} {rest : List Char} {mode : Mode}
    (follows : Follows .inDoubleQuote mode (c :: rest))
    {piece : List (Char × Region)} {done : List (List Char)}
    (ih : Shorter effects done (c :: rest).length) :
    Agrees ctx effects (c :: rest) mode piece done := by
  have here : ctx.state.after = false := by simp [isState, ParseState.after]
  have turned : ctx.turn none 0 effects c rest =
      .next (ctx.doubleQuote c rest).1 effects (ctx.doubleQuote c rest).2 := by
    simp [ParserContext.turn, isState]
  have isIdentifier : mode = .identifier := by
    cases mode <;> simp_all [Follows]
  subst isIdentifier
  have shorter : rest.length < (c :: rest).length := by simp
  by_cases closes : c = '"'
  · subst closes
    by_cases pair : rest.head? = some '"'
    · obtain ⟨tail, rfl⟩ : ∃ tail, rest = '"' :: tail := by
        cases rest with
        | nil => simp at pair
        | cons d tail => exact ⟨tail, by simpa using pair⟩
      have taken : ctx.doubleQuote '"' ('"' :: tail) = (ctx.append ['"', '"'], 1) := by
        simp [ParserContext.doubleQuote]
      rw [taken] at turned
      refine Agrees.step .identifier [('"', .identifier), ('"', .identifier)]
        here turned (by simp [regions, Mode.read]) (by simp) ⟨rfl, rfl, rfl⟩
        (ih tail (shorter_tail _ _ _) _ _ _ ?_)
      simp [ParserContext.append, isState, Follows]
    · have taken : ctx.doubleQuote '"' rest =
          ({ ctx.append ['"'] with state := .afterIdentifier }, 0) := by
        have alone : rest.head?.getD '\x00' ≠ '"' := by
          rwa [ne_eq, getD_head?_eq (by decide)]
        simpa [ParserContext.doubleQuote] using alone
      rw [taken] at turned
      exact Agrees.step .bare [('"', .identifier)] here turned
        (by simp [regions, Mode.read]) (by simp) ⟨rfl, rfl, rfl⟩ (ih rest shorter _ _ _ trivial)
  · have taken : ctx.doubleQuote c rest = (ctx.append [c], 0) := by
      simp [ParserContext.doubleQuote, closes]
    rw [taken] at turned
    refine Agrees.step .identifier [(c, .identifier)] here turned
      (by simp [regions, Mode.read, closes]) (by simp) ⟨rfl, rfl, rfl⟩
      (ih rest shorter _ _ _ ?_)
    simp [ParserContext.append, isState, Follows]

theorem agrees_lineComment {ctx : ParserContext} (isState : ctx.state = .inSingleLineComment)
    {effects : Effects} {c : Char} {rest : List Char} {mode : Mode}
    (follows : Follows .inSingleLineComment mode (c :: rest))
    {piece : List (Char × Region)} {done : List (List Char)}
    (ih : Shorter effects done (c :: rest).length) :
    Agrees ctx effects (c :: rest) mode piece done := by
  have here : ctx.state.after = false := by simp [isState, ParseState.after]
  have turned : ctx.turn none 0 effects c rest =
      .next (ctx.comment c rest).1 effects (ctx.comment c rest).2 := by
    simp [ParserContext.turn, isState]
  have isLine : mode = .line := by
    cases mode <;> simp_all [Follows]
  subst isLine
  have shorter : rest.length < (c :: rest).length := by simp
  by_cases ends : c = '\n' ∨ c = '\r'
  · have taken : ctx.comment c rest = ({ ctx with state := .normal }, 0) := by
      simp [ParserContext.comment, isState, ends]
    rw [taken] at turned
    exact Agrees.step .bare [(c, .comment)] here turned
      (by simp [regions, Mode.read, ends]) (by simp)
      ⟨rfl, rfl, (appendBack_nil ctx.arguments).symm⟩ (ih rest shorter _ _ _ trivial)
  · have taken : ctx.comment c rest = (ctx, 0) := by
      simp [ParserContext.comment, isState, ends]
    rw [taken] at turned
    refine Agrees.step .line [(c, .comment)] here turned
      (by simp [regions, Mode.read, ends]) (by simp)
      ⟨rfl, rfl, (appendBack_nil ctx.arguments).symm⟩ (ih rest shorter _ _ _ ?_)
    simp [isState, Follows]

theorem agrees_blockComment {ctx : ParserContext} (isState : ctx.state = .inMultiLineComment)
    {effects : Effects} {c : Char} {rest : List Char} {mode : Mode}
    (follows : Follows .inMultiLineComment mode (c :: rest))
    {piece : List (Char × Region)} {done : List (List Char)}
    (ih : Shorter effects done (c :: rest).length) :
    Agrees ctx effects (c :: rest) mode piece done := by
  have here : ctx.state.after = false := by simp [isState, ParseState.after]
  have turned : ctx.turn none 0 effects c rest =
      .next (ctx.comment c rest).1 effects (ctx.comment c rest).2 := by
    simp [ParserContext.turn, isState]
  have within : mode = .block ∨ mode = .star ∧ c ≠ '/' := by
    cases mode <;> simp_all [Follows]
  by_cases ends : c = '*' ∧ rest.head? = some '/'
  · obtain ⟨rfl, next⟩ := ends
    obtain ⟨tail, rfl⟩ : ∃ tail, rest = '/' :: tail := by
      cases rest with
      | nil => simp at next
      | cons d tail => exact ⟨tail, by simpa using next⟩
    have taken : ctx.comment '*' ('/' :: tail) = ({ ctx with state := .normal }, 1) := by
      simp [ParserContext.comment, isState]
    rw [taken] at turned
    refine Agrees.step .bare [('*', .comment), ('/', .comment)]
      here turned ?_ (by simp) ⟨rfl, rfl, (appendBack_nil ctx.arguments).symm⟩
      (ih tail (shorter_tail _ _ _) _ _ _ trivial)
    rcases within with rfl | ⟨rfl, other⟩ <;> simp [regions, Mode.read]
  · have taken : ctx.comment c rest = (ctx, 0) := by
      have alone : c = '*' → ¬ rest.head?.getD '\x00' = '/' := by
        rw [getD_head?_eq (by decide)]
        exact fun isStar next => ends ⟨isStar, next⟩
      simpa [ParserContext.comment, isState] using alone
    rw [taken] at turned
    refine Agrees.step (if c = '*' then .star else .block) [(c, .comment)]
      here turned ?_ (by simp) ⟨rfl, rfl, (appendBack_nil ctx.arguments).symm⟩
      (ih rest (by simp) _ _ _ ?_)
    · rcases within with rfl | ⟨rfl, other⟩ <;> simp_all [regions, Mode.read]
    · by_cases isStar : c = '*'
      · simpa [isState, Follows, isStar] using ends
      · simp [isState, Follows, isStar]

/-- The case of `ParseState::NORMAL` where an opener is read. -/
theorem agrees_opener {ctx : ParserContext} (isState : ctx.state = .normal)
    {effects : Effects} {c : Char} {rest : List Char}
    (opens : (Mode.read true .bare c rest.head?).1 ≠ .bare)
    {piece : List (Char × Region)} {done : List (List Char)}
    (ih : Shorter effects done (c :: rest).length) :
    Agrees ctx effects (c :: rest) .bare piece done := by
  have here : ctx.state.after = false := by simp [isState, ParseState.after]
  have turned : ctx.turn none 0 effects c rest = ctx.normal none 0 effects c rest := by
    simp [ParserContext.turn, isState]
  have shorter : rest.length < (c :: rest).length := by simp
  by_cases single : c = '\''
  · subst single
    have taken : ctx.turn none 0 effects '\'' rest =
        .next { ctx.append ['\''] with state := .inSingleQuote } effects 0 := by
      simp [turned, ParserContext.normal]
    exact Agrees.step .literal [('\'', .literal)] here taken
      (by simp [regions, Mode.read]) (by simp) ⟨rfl, rfl, rfl⟩ (ih rest shorter _ _ _ trivial)
  by_cases double : c = '"'
  · subst double
    have taken : ctx.turn none 0 effects '"' rest =
        .next { ctx.append ['"'] with state := .inDoubleQuote } effects 0 := by
      simp [turned, ParserContext.normal]
    exact Agrees.step .identifier [('"', .identifier)] here taken
      (by simp [regions, Mode.read]) (by simp) ⟨rfl, rfl, rfl⟩ (ih rest shorter _ _ _ trivial)
  by_cases line : c = '-' ∧ rest.head? = some '-'
  · obtain ⟨rfl, next⟩ := line
    obtain ⟨tail, rfl⟩ : ∃ tail, rest = '-' :: tail := by
      cases rest with
      | nil => simp at next
      | cons d tail => exact ⟨tail, by simpa using next⟩
    have taken : ctx.turn none 0 effects '-' ('-' :: tail) =
        .next { ctx with state := .inSingleLineComment } effects 1 := by
      simp [turned, ParserContext.normal]
    exact Agrees.step .line [('-', .comment), ('-', .comment)] here taken
      (by simp [regions, Mode.read]) (by simp)
      ⟨rfl, rfl, (appendBack_nil ctx.arguments).symm⟩ (ih tail (shorter_tail _ _ _) _ _ _ trivial)
  by_cases block : c = '/' ∧ rest.head? = some '*'
  · obtain ⟨rfl, next⟩ := block
    obtain ⟨tail, rfl⟩ : ∃ tail, rest = '*' :: tail := by
      cases rest with
      | nil => simp at next
      | cons d tail => exact ⟨tail, by simpa using next⟩
    have taken : ctx.turn none 0 effects '/' ('*' :: tail) =
        .next { ctx with state := .inMultiLineComment } effects 1 := by
      simp [turned, ParserContext.normal]
    exact Agrees.step .block [('/', .comment), ('*', .comment)] here taken
      (by simp [regions, Mode.read]) (by simp)
      ⟨rfl, rfl, (appendBack_nil ctx.arguments).symm⟩ (ih tail (shorter_tail _ _ _) _ _ _ trivial)
  · simp [Mode.read, single, double, line, block] at opens

/-- The case of `ParseState::NORMAL` where the character is bare. -/
theorem agrees_bare {ctx : ParserContext} (isState : ctx.state = .normal)
    {effects : Effects} {c : Char} {rest : List Char}
    (bare : Mode.read true .bare c rest.head? = (.bare, .bare))
    {piece : List (Char × Region)} {done : List (List Char)}
    (ih : ∀ done, Shorter effects done (c :: rest).length) :
    Agrees ctx effects (c :: rest) .bare piece done := by
  intro holds
  have here : ctx.state.after = false := by simp [isState, ParseState.after]
  have turned : ctx.turn none 0 effects c rest = ctx.normal none 0 effects c rest := by
    simp [ParserContext.turn, isState]
  have shorter : rest.length < (c :: rest).length := by simp
  have single : c ≠ '\'' := by rintro rfl; simp [Mode.read] at bare
  have double : c ≠ '"' := by rintro rfl; simp [Mode.read] at bare
  have line : ¬ (c = '-' ∧ rest.head?.getD '\x00' = '-') := by
    rw [getD_head?_eq (by decide)]
    rintro ⟨rfl, next⟩
    simp [Mode.read, next] at bare
  have block : ¬ (c = '/' ∧ rest.head?.getD '\x00' = '*') := by
    rw [getD_head?_eq (by decide)]
    rintro ⟨rfl, next⟩
    simp [Mode.read, next] at bare
  have onward (ctx' : ParserContext) (isNormal : ctx'.state = .normal)
      (added : ctx'.arguments = (ctx.append [c]).arguments) :
      parseLoop none 0 ctx' effects rest =
        ((cut ctx'.parenthesesDepth ctx'.braceDepth (piece ++ [(c, .bare)])
          (regions true .bare rest)).map fun result =>
            (done ++ returned result.1, result.2.map Prod.fst), effects) := by
    refine ih done rest shorter ctx' .bare (piece ++ [(c, .bare)]) (by simp [isNormal, Follows]) ?_
    rw [added, ParserContext.append, holds, appendBack_concat, uncommented_append]
    rfl
  rw [parseLoop_cons none 0 here, turned, regions, bare, ParserContext.normal, cut]
  simp only [List.headD_eq_head?_getD, if_neg single, if_neg double, if_neg line, if_neg block,
    Prod.mk.injEq, and_true]
  by_cases opensParenthesis : c = '('
  · simp only [if_pos opensParenthesis, List.drop_zero]
    exact onward _ isState rfl
  by_cases opensBrace : c = '{'
  · simp only [if_neg opensParenthesis, if_pos opensBrace, List.drop_zero]
    exact onward _ isState rfl
  by_cases closesParenthesis : c = ')'
  · simp only [if_neg opensParenthesis, if_neg opensBrace, if_pos closesParenthesis]
    by_cases ends : ctx.parenthesesDepth = 0
    · have last := returned_cons piece []
      simp only [if_pos ends, Option.map_some, holds, finalizeArgument_concat, last,
        regions_map_fst]
      simp [returned]
    · simp only [if_neg ends, List.drop_zero]
      exact onward _ isState rfl
  by_cases closesBrace : c = '}'
  · simp only [if_neg opensParenthesis, if_neg opensBrace, if_neg closesParenthesis,
      if_pos closesBrace]
    by_cases unmatched : ctx.braceDepth ≤ 0
    · simp only [if_pos unmatched, Option.map_none]
    · simp only [if_neg unmatched, List.drop_zero]
      exact onward _ isState rfl
  by_cases separates : c = ',' ∧ ctx.parenthesesDepth = 0 ∧ ctx.braceDepth = 0
  · simp only [if_neg opensParenthesis, if_neg opensBrace, if_neg closesParenthesis,
      if_neg closesBrace, if_pos separates, List.drop_zero]
    have started := ih (done ++ if trim (uncommented piece) = [] then []
      else [trim (uncommented piece)]) rest shorter
      { ctx with arguments := finalizeArgument ctx.arguments ++ [[]] } .bare []
      (by simp [isState, Follows]) (by simp [holds])
    rw [started, separates.2.1, separates.2.2, Option.map_map]
    refine congrArg (·, effects) (Option.map_congr fun result _ => ?_)
    rw [Function.comp_apply, returned_cons, List.append_assoc]
  · simp only [if_neg opensParenthesis, if_neg opensBrace, if_neg closesParenthesis,
      if_neg closesBrace, if_neg separates]
    have unmarked : ¬ (c = '?' ∧ (0 : Int) > 0) := by simp
    simp only [if_neg unmarked, List.drop_zero]
    exact onward _ isState rfl

/-- Without a statement handle and markers, the loop cuts the regions of the text. -/
theorem parseLoop_eq (effects : Effects) (text : List Char) (ctx : ParserContext) (mode : Mode)
    (piece : List (Char × Region)) (done : List (List Char))
    (follows : Follows ctx.state mode text) :
    Agrees ctx effects text mode piece done := by
  induction length : text.length using Nat.strong_induction_on
    generalizing text ctx mode piece done with
  | h n ih =>
      cases text with
      | nil =>
          intro holds
          simp [parseLoop, regions, cut]
      | cons c rest =>
          have shorter : ∀ done, Shorter effects done (c :: rest).length := by
            intro done text isShorter ctx mode piece follows
            exact ih text.length (by omega) text ctx mode piece done follows rfl
          have normal : ∀ ctx : ParserContext, ctx.state = .normal →
              Agrees ctx effects (c :: rest) .bare piece done := by
            intro ctx isState
            by_cases opens : (Mode.read true .bare c rest.head?).1 = .bare
            · exact agrees_bare isState (Mode.read_of_bare opens).2 shorter
            · exact agrees_opener isState opens (shorter done)
          cases isState : ctx.state with
          | normal =>
              rw [isState] at follows
              obtain rfl : mode = .bare := by cases mode <;> simp_all [Follows]
              exact normal ctx isState
          | inSingleQuote =>
              rw [isState] at follows
              exact agrees_singleQuote isState follows (shorter done)
          | inDoubleQuote =>
              rw [isState] at follows
              exact agrees_doubleQuote isState follows (shorter done)
          | inSingleLineComment =>
              rw [isState] at follows
              exact agrees_lineComment isState follows (shorter done)
          | inMultiLineComment =>
              rw [isState] at follows
              exact agrees_blockComment isState follows (shorter done)
          | afterString =>
              rw [isState] at follows
              obtain rfl : mode = .bare := by cases mode <;> simp_all [Follows]
              intro holds
              rw [parseLoop_after none 0 (by simp [isState, ParseState.after])]
              exact normal { ctx with state := .normal } rfl holds
          | afterIdentifier =>
              rw [isState] at follows
              obtain rfl : mode = .bare := by cases mode <;> simp_all [Follows]
              intro holds
              rw [parseLoop_after none 0 (by simp [isState, ParseState.after])]
              exact normal { ctx with state := .normal } rfl holds

/-- The pieces of the argument list at a position, and what follows its closing parenthesis. -/
def pieces (sql : List Char) (i : Nat) :
    Option (List (List (Char × Region)) × List (Char × Region)) :=
  (listText sql i).bind fun text => cut 0 0 [] (regions true .bare text)

theorem parseFunctionArguments_eq (sql : List Char) (i : Nat) (effects : Effects) :
    parseFunctionArguments sql i [] none 0 effects =
      ((pieces sql i).map fun result => (sql.length - result.2.length, returned result.1),
        effects) := by
  unfold parseFunctionArguments pieces
  cases listText sql i with
  | none => rfl
  | some text =>
      have whole := parseLoop_eq effects text ⟨.normal, 0, 0, [[]]⟩ .bare [] [] trivial rfl
      simp only [List.nil_append] at whole ⊢
      rw [whole, Option.bind_some]
      cases cut 0 0 [] (regions true .bare text) with
      | none => rfl
      | some result => simp

end RedshiftOdbc.Escape

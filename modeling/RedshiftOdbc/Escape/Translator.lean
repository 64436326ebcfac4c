import RedshiftOdbc.Escape.Arguments
import RedshiftOdbc.Escape.Functions
import RedshiftOdbc.Escape.Markers

/-!
# The translation of a statement

`replaceParamMarkerAndODBCEscapeClause` and the functions it calls.  They keep a
position in the statement, which is compared with its length, beside a pointer
into it, which is read from; nothing ties the two together.  A clause calls the
translation of the clauses in it with one level less to go.
-/

namespace RedshiftOdbc.Escape

open RedshiftOdbc.Scanf RedshiftOdbc.Words

/-- The bytes from the beginning of a text on, behind its end too. -/
abbrev Source := Nat → Char

def Source.bytes (src : Source) (pSrc count : Nat) : List Char :=
  (List.range count).map fun k => src (pSrc + k)

def copiedSource (text : List Char) : Source := fun k => text.getD k '\x00'

/-! ## Destinations -/

/-- A destination buffer: `pDest` from its beginning on, and what was written, in order. -/
structure Target where
  pDest : Nat
  writes : List (Nat × Char)
  deriving DecidableEq, Repr

/-- `*pDest++ = c`. -/
def Target.put (target : Target) (c : Char) : Target :=
  ⟨target.pDest + 1, target.writes ++ [(target.pDest, c)]⟩

/-- `*pDest = c`. -/
def Target.set (target : Target) (c : Char) : Target :=
  { target with writes := target.writes ++ [(target.pDest, c)] }

/-- What `snprintf` writes of a text, whose size argument is converted to an unsigned one. -/
def printed (size : Int) (text : List Char) : List Char :=
  if size < 0 ∨ (text.length : Int) < size then text ++ ['\x00']
  else if size = 0 then []
  else text.take (size.toNat - 1) ++ ['\x00']

/-- `pDest += snprintf(pDest, size, …)`. -/
def Target.snprintf (target : Target) (size : Int) (text : List Char) : Target :=
  ⟨target.pDest + text.length,
    target.writes ++ (printed size text).mapIdx fun k c => (target.pDest + k, c)⟩

/-- The byte at a place of a buffer that was cleared before. -/
def Target.byteAt (target : Target) (place : Nat) : Char :=
  ((target.writes.reverse.find? fun write => write.1 = place).map Prod.snd).getD '\x00'

def Target.text (target : Target) : List Char :=
  ((List.range target.pDest).map target.byteAt).takeWhile (· ≠ '\x00')

/-! ## Tokens -/

/-- How far the first loop of `getNextTokenForODBCEscapeClause` goes. -/
def skipBlanks (src : Source) : Nat → Nat → Nat
  | 0, _ => 0
  | left + 1, pSrc =>
      if isSpace (src pSrc) ∧ src pSrc ≠ '\x00' then skipBlanks src left (pSrc + 1) + 1 else 0

/-- How far the second loop goes, and `checkDelimiterForODBCEscapeClauseToken`. -/
def tokenLength (src : Source) (delimiters : List Char) : Nat → Nat → Nat
  | 0, _ => 0
  | left + 1, pSrc =>
      if ¬ isSpace (src pSrc) ∧ src pSrc ≠ '\x00' ∧ src pSrc ∉ delimiters then
        tokenLength src delimiters left (pSrc + 1) + 1
      else 0

/-- `getNextTokenForODBCEscapeClause`: the blanks before the token, and its length. -/
def getNextToken (src : Source) (limit : Int) (delimiters : List Char) (pSrc : Nat) (i : Int) :
    Nat × Nat :=
  let blanks := skipBlanks src (limit - i).toNat pSrc
  (blanks, tokenLength src delimiters (limit - (i + blanks)).toNat (pSrc + blanks))

/-! ## Statements -/

/-- What is read of the statement handle. -/
structure Statement where
  iNoScan : Nat
  deriving DecidableEq, Repr

def noScanOff : Nat := 0

def needToScanODBCEscapeClause (pStmt : Option Statement) : Bool :=
  match pStmt with
  | none => true
  | some statement => statement.iNoScan = noScanOff

def shortStrData : Nat := 4096

def maxEscapeClauseNestingDepth : Nat := 100

def maxEscapeClauseReplaceLen : Nat := 20

def depthError : String × String :=
  ("HY000", "ODBC escape clause nesting depth exceeds maximum limit of 100")

/-! ## Clauses -/

structure Translation where
  srcPos : Int
  pSrc : Nat
  target : Target
  effects : Effects
  deriving DecidableEq, Repr

/--
What a call leaves: the position it returns, the source pointer it hands back
and its destination, with `pDest` behind the last character that was written; or
`parseError`, and what had been written and changed.
-/
inductive Outcome where
  | translated (left : Translation)
  | failed (writes : List (Nat × Char)) (effects : Effects)
  deriving DecidableEq, Repr

/-- A call on a text of `cbLen` bytes with a buffer of `iDestBufLen` bytes. -/
abbrev ClauseCall := Source → Nat → Int → Translation → Outcome

def Effects.note (effects : Effects) (event : Event) : Effects :=
  { effects with log := effects.log ++ [event] }

inductive Keyword where
  | text (replacement : String)
  | call
  | outerJoin
  | function
  deriving DecidableEq, Repr

/-- The comparisons of `replaceODBCEscapeClause`, which ignore the case. -/
def clauseKeyword (token : List Char) : Option Keyword :=
  match String.ofList (token.map Char.toLower) with
  | "escape" => some (.text "ESCAPE")
  | "d" => some (.text "DATE")
  | "ts" => some (.text "TIMESTAMP")
  | "ivl" => some (.text "INTERVAL")
  | "ym" => some (.text "YEAR TO MONTH")
  | "ds" => some (.text "DAY TO SECOND")
  | "t" => some (.text "TIME")
  | "call" => some .call
  | "oj" => some .outerJoin
  | "fn" => some .function
  | _ => none

/-- The loop of `replaceODBCEscapeClause` up to the `}`. -/
structure Body extends Translation where
  occupied : Int
  iQuote : Nat
  iDoubleQuote : Nat
  iComment : Nat
  iSingleLineComment : Nat
  iCallEscapeClause : Bool
  iParenthesis : Bool
  deriving DecidableEq, Repr

namespace Body

def outside (body : Body) : Bool :=
  body.iQuote = 0 && body.iDoubleQuote = 0 && body.iComment = 0 && body.iSingleLineComment = 0

/-- `*pDest++ = *pSrc++`. -/
def copy (body : Body) (src : Source) : Body :=
  { body with pSrc := body.pSrc + 1, target := body.target.put (src body.pSrc) }

def marker (body : Body) (iDestBufLen : Int) : Body :=
  { body with
    pSrc := body.pSrc + 1
    occupied := body.target.pDest
    target := body.target.snprintf (iDestBufLen - body.target.pDest)
      ('$' :: (toString (body.effects.paramNumber + 1)).toList)
    effects := { body.effects with paramNumber := body.effects.paramNumber + 1 } }

def qualifier (body : Body) (iDestBufLen : Int) (text : String) : Body :=
  { body with
    pSrc := body.pSrc + 2
    target := body.target.snprintf (iDestBufLen - body.occupied) text.toList
    effects := body.effects.note .qualifier }

/-- The switch on a byte.  A `y` that no `m` follows falls through to `d`. -/
def switch (body : Body) (src : Source) (iDestBufLen numOfParamMarkers : Int) : Body :=
  match src body.pSrc with
  | '?' =>
      if body.outside ∧ numOfParamMarkers ≠ 0 then body.marker iDestBufLen else body.copy src
  | '\'' =>
      if src (body.pSrc - 1) = '\\' then body.copy src
      else { body.copy src with iQuote := if body.iQuote ≠ 0 then body.iQuote - 1 else 1 }
  | '"' =>
      { body.copy src with
        iDoubleQuote := if body.iDoubleQuote ≠ 0 then body.iDoubleQuote - 1 else 1 }
  | '*' =>
      if src (body.pSrc - 1) = '/' then
        { body.copy src with iComment := body.iComment + 1 }
      else body.copy src
  | '/' =>
      if src (body.pSrc - 1) = '*' ∧ body.iComment ≠ 0 then
        { body.copy src with iComment := body.iComment - 1 }
      else body.copy src
  | '-' =>
      if src (body.pSrc - 1) = '-' then
        { body.copy src with iSingleLineComment := body.iSingleLineComment + 1 }
      else body.copy src
  | '\n' =>
      if body.iSingleLineComment ≠ 0 then
        { body.copy src with iSingleLineComment := body.iSingleLineComment - 1 }
      else body.copy src
  | 'y' =>
      if src (body.pSrc + 1) = 'm' then body.qualifier iDestBufLen "YEAR TO MONTH"
      else if src (body.pSrc + 1) = 's' then body.qualifier iDestBufLen "DAY TO SECOND"
      else body.copy src
  | 'd' =>
      if src (body.pSrc + 1) = 's' then body.qualifier iDestBufLen "DAY TO SECOND"
      else body.copy src
  | _ => body.copy src

/-- The `}` of the clause: a call without parentheses gets them. -/
def close (body : Body) (iDestBufLen : Int) : Body :=
  if body.iCallEscapeClause ∧ ¬ body.iParenthesis then
    { body with
      occupied := body.target.pDest
      target := body.target.snprintf (iDestBufLen - body.target.pDest) ['(', ')'] }
  else body

end Body

section Clause

variable (numOfParamMarkers : Int) (nested : ClauseCall)

/--
The loop over the body of a clause, for so many more bytes.  The source pointer
is behind the beginning of the clause there, so a byte before it is always read.
-/
def bodyLoop (src : Source) (cbLen : Nat) (iDestBufLen : Int) (iScalarFunction : Bool) :
    Nat → Body → Outcome
  | 0, body => .failed body.target.writes body.effects
  | left + 1, body =>
      if ¬ body.srcPos < wrap 4 cbLen then .failed body.target.writes body.effects
      else if src body.pSrc = '}' ∧ body.outside then
        .translated (body.close iDestBufLen).toTranslation
      else if src body.pSrc = '{' ∧ iScalarFunction ∧ body.outside then
        match nested src cbLen iDestBufLen body.toTranslation with
        | .failed writes effects => .failed writes effects
        | .translated inner =>
            bodyLoop src cbLen iDestBufLen iScalarFunction left
              { body with
                srcPos := inner.srcPos + 1
                pSrc := inner.pSrc + 1
                target := inner.target
                effects := inner.effects }
      else if src body.pSrc = '(' ∧ body.outside then
        bodyLoop src cbLen iDestBufLen iScalarFunction left
          { body.copy src with srcPos := body.srcPos + 1, iParenthesis := true }
      else
        bodyLoop src cbLen iDestBufLen iScalarFunction left
          { body.switch src iDestBufLen numOfParamMarkers with srcPos := body.srcPos + 1 }

/-- What is left of the effects of a clause in an argument list. -/
def Effects.nest (before after : Effects) (writes : List (Nat × Char)) : Effects :=
  { after with log := before.log ++ after.log.map .copied ++ [.temporary writes] }

/--
The clause in an argument list: it is translated in a copy of the list, into a
temporary buffer.
-/
def nestedReader (pStmt : Option Statement) : Option ClauseReader :=
  match pStmt with
  | none => none
  | some _ => some fun text effects =>
      match nested (copiedSource text) text.length shortStrData
        ⟨0, 0, ⟨0, []⟩, { effects with log := [] }⟩ with
      | .failed writes changed => (none, effects.nest changed writes)
      | .translated left =>
          if 0 < left.srcPos then
            let target := left.target.set '\x00'
            (some ⟨target.text, left.pSrc⟩, effects.nest left.effects target.writes)
          else (none, effects.nest left.effects left.target.writes)

/-- The end of `processEscapeFunctionCall`: the result is written when there is room for it. -/
def writeResult (iDestBufLen : Int) (here : Translation) (result : List Char) : Outcome :=
  let available := iDestBufLen - here.target.pDest
  if available < 0 ∨ (result.length : Int) + 1 ≤ available then
    .translated { here with
      target := here.target.snprintf available (result.takeWhile (· ≠ '\x00')) }
  else .failed here.target.writes here.effects

/-- `processEscapeFunctionCall`.  Without a name only the position goes on. -/
def processEscapeFunctionCall (pStmt : Option Statement) (src : Source) (cbLen : Nat)
    (iDestBufLen : Int) (here : Translation) : Outcome :=
  let token := getNextToken src (wrap 4 cbLen) ['(', '}'] here.pSrc here.srcPos
  if token.2 = 0 then
    .translated { here with
      srcPos := here.srcPos + token.1
      effects := here.effects.note (.missingName token.1) }
  else
    let FN := String.ofList ((src.bytes (here.pSrc + token.1) token.2).map Char.toUpper)
    let behind := { here with
      srcPos := here.srcPos + token.1 + token.2
      pSrc := here.pSrc + token.1 + token.2 }
    if FN = "CURRENT_TIME" ∨ FN = "CURRENT_TIMESTAMP" then
      writeResult iDestBufLen behind (redshiftFunction FN []).toList
    else
      let sqlToParse := src.bytes behind.pSrc (cbLen - behind.srcPos.toNat)
      match parseFunctionArguments sqlToParse 0 [] (nestedReader nested pStmt) numOfParamMarkers
        here.effects with
      | (none, effects) => .failed here.target.writes effects
      | (some (localPos, arguments), effects) =>
          writeResult iDestBufLen
            { behind with
              srcPos := behind.srcPos + localPos
              pSrc := behind.pSrc + localPos
              effects := effects }
            (redshiftFunction FN (arguments.map String.ofList)).toList

/-- The body of a clause, from the end of its keyword on. -/
def clauseBody (src : Source) (cbLen : Nat) (iDestBufLen occupied : Int)
    (iCallEscapeClause iScalarFunction : Bool) (here : Translation) : Outcome :=
  bodyLoop numOfParamMarkers nested src cbLen iDestBufLen iScalarFunction
    (wrap 4 cbLen - here.srcPos).toNat.succ
    { here with
      occupied := occupied
      iQuote := 0
      iDoubleQuote := 0
      iComment := 0
      iSingleLineComment := 0
      iCallEscapeClause := iCallEscapeClause
      iParenthesis := false }

/-- `replaceODBCEscapeClause` at a `{` when the depth is allowed. -/
def escapeClause (pStmt : Option Statement) (src : Source) (cbLen : Nat) (iDestBufLen : Int)
    (here : Translation) : Outcome :=
  let token := getNextToken src (wrap 4 cbLen) [] (here.pSrc + 1) (here.srcPos + 1)
  let keyword := src.bytes (here.pSrc + 1 + token.1) token.2
  let behind := { here with
    srcPos := here.srcPos + 1 + token.1 + token.2
    pSrc := here.pSrc + 1 + token.1 + token.2 }
  let occupied : Int := here.target.pDest
  let body := clauseBody numOfParamMarkers nested src cbLen iDestBufLen occupied
  if token.2 = 0 then body false false behind
  else
    let effects := here.effects.note (.opened keyword)
    match clauseKeyword keyword with
    | none => .failed here.target.writes effects
    | some (.text replacement) =>
        body false false { behind with
          target := here.target.snprintf (iDestBufLen - occupied) replacement.toList
          effects := effects }
    | some .call =>
        body true false { behind with
          target := here.target.snprintf (iDestBufLen - occupied) "CALL ".toList
          effects := { effects with
            iFunctionCall := effects.iFunctionCall || pStmt.isSome } }
    | some .outerJoin => body false false { behind with effects := effects }
    | some .function =>
        match processEscapeFunctionCall numOfParamMarkers nested pStmt src cbLen iDestBufLen
          { behind with effects := effects } with
        | .failed writes effects => .failed writes effects
        | .translated left => body false true left

end Clause

/-- `replaceODBCEscapeClause`, with so many levels more allowed. -/
def replaceODBCEscapeClause (pStmt : Option Statement) (numOfParamMarkers : Int) :
    Nat → ClauseCall
  | levels, src, cbLen, iDestBufLen, here =>
      if needToScanODBCEscapeClause pStmt then
        match levels with
        | 0 =>
            .failed here.target.writes
              (if pStmt.isSome then
                { here.effects with pErrorList := here.effects.pErrorList ++ [depthError] }
              else here.effects)
        | levels + 1 =>
            escapeClause numOfParamMarkers (replaceODBCEscapeClause pStmt numOfParamMarkers levels)
              pStmt src cbLen iDestBufLen here
      else .translated { here with target := here.target.put (src here.pSrc) }

/-! ## The statement -/

/-- The loop of `replaceParamMarkerAndODBCEscapeClause`. -/
structure Scan extends Translation where
  iQuote : Nat
  iDoubleQuote : Nat
  iComment : Nat
  iSingleLineComment : Nat
  deriving DecidableEq, Repr

namespace Scan

def outside (scan : Scan) : Bool :=
  scan.iQuote = 0 && scan.iDoubleQuote = 0 && scan.iComment = 0 && scan.iSingleLineComment = 0

/-- `*(pSrc - 1)`, when there is one. -/
def previous (scan : Scan) (src : Source) : Option Char :=
  if scan.pSrc = 0 then none else some (src (scan.pSrc - 1))

def copy (scan : Scan) (src : Source) : Scan :=
  { scan with
    srcPos := scan.srcPos + 1
    pSrc := scan.pSrc + 1
    target := scan.target.put (src scan.pSrc) }

def marker (scan : Scan) (buf_len : Int) : Scan :=
  { scan with
    srcPos := scan.srcPos + 1
    pSrc := scan.pSrc + 1
    target := scan.target.snprintf (buf_len - scan.target.pDest)
      ('$' :: (toString (scan.effects.paramNumber + 1)).toList)
    effects := { scan.effects with paramNumber := scan.effects.paramNumber + 1 } }

/-- The switch on a byte that is not the beginning of a clause. -/
def switch (scan : Scan) (src : Source) (buf_len numOfParamMarkers : Int) : Scan :=
  match src scan.pSrc with
  | '?' =>
      if scan.outside ∧ numOfParamMarkers ≠ 0 then scan.marker buf_len else scan.copy src
  | '\'' =>
      if scan.iComment = 0 ∧ scan.iSingleLineComment = 0 ∧ scan.previous src ≠ some '\\' then
        { scan.copy src with iQuote := if scan.iQuote ≠ 0 then scan.iQuote - 1 else 1 }
      else scan.copy src
  | '"' =>
      if scan.iComment = 0 ∧ scan.iSingleLineComment = 0 then
        { scan.copy src with
          iDoubleQuote := if scan.iDoubleQuote ≠ 0 then scan.iDoubleQuote - 1 else 1 }
      else scan.copy src
  | '*' =>
      if scan.iQuote = 0 ∧ scan.iDoubleQuote = 0 ∧ scan.previous src = some '/' then
        { scan.copy src with iComment := scan.iComment + 1 }
      else scan.copy src
  | '/' =>
      if scan.iQuote = 0 ∧ scan.iDoubleQuote = 0 ∧ scan.previous src = some '*' ∧
          scan.iComment ≠ 0 then
        { scan.copy src with iComment := scan.iComment - 1 }
      else scan.copy src
  | '-' =>
      if scan.iQuote = 0 ∧ scan.iDoubleQuote = 0 ∧ scan.previous src = some '-' then
        { scan.copy src with iSingleLineComment := scan.iSingleLineComment + 1 }
      else scan.copy src
  | '\n' =>
      if scan.iQuote = 0 ∧ scan.iDoubleQuote = 0 ∧ scan.iSingleLineComment ≠ 0 then
        { scan.copy src with iSingleLineComment := scan.iSingleLineComment - 1 }
      else scan.copy src
  | _ => scan.copy src

end Scan

/-- The loop over the statement, for so many more bytes. -/
def scanLoop (pStmt : Option Statement) (numOfParamMarkers : Int) (src : Source) (cbLen : Nat)
    (buf_len : Int) : Nat → Scan → Outcome
  | 0, scan => .translated scan.toTranslation
  | left + 1, scan =>
      if ¬ scan.srcPos < wrap 4 cbLen then .translated scan.toTranslation
      else if src scan.pSrc = '{' ∧ scan.outside then
        match replaceODBCEscapeClause pStmt numOfParamMarkers maxEscapeClauseNestingDepth src cbLen
          buf_len scan.toTranslation with
        | .failed writes effects => .failed writes effects
        | .translated inner =>
            scanLoop pStmt numOfParamMarkers src cbLen buf_len left
              { scan with
                srcPos := inner.srcPos + 1
                pSrc := inner.pSrc + 1
                target := inner.target
                effects := inner.effects }
      else
        scanLoop pStmt numOfParamMarkers src cbLen buf_len left
          (scan.switch src buf_len numOfParamMarkers)

/-- `buf_len`: room for the statement, for longer markers and for longer clauses. -/
def bufLen (cbLen numOfParamMarkers numOfODBCEscapeClauses : Nat) : Int :=
  let iLen : Int := wrap 4 cbLen +
    (if numOfParamMarkers ≠ 0 then
      ((toString numOfParamMarkers).length + 1) * numOfParamMarkers else 0) +
    (if numOfODBCEscapeClauses ≠ 0 then
      maxEscapeClauseReplaceLen * numOfODBCEscapeClauses else 0)
  if iLen > shortStrData then iLen + 1 else shortStrData + 1

/-- `replaceParamMarkerAndODBCEscapeClause` on the bytes of the statement, when there is a need. -/
def replaceParamMarkerAndODBCEscapeClause (pStmt : Option Statement) (src : Source) (cbLen : Nat)
    (numOfParamMarkers numOfODBCEscapeClauses : Nat) (effects : Effects) : Outcome :=
  let buf_len := bufLen cbLen numOfParamMarkers numOfODBCEscapeClauses
  match scanLoop pStmt numOfParamMarkers src cbLen buf_len (wrap 4 cbLen).toNat.succ
    ⟨⟨0, 0, ⟨0, []⟩, { effects with paramNumber := 0 }⟩, 0, 0, 0, 0⟩ with
  | .failed writes effects => .failed writes effects
  | .translated left => .translated { left with target := left.target.set '\x00' }

end RedshiftOdbc.Escape

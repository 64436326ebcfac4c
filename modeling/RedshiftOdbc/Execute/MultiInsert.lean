import RedshiftOdbc.Escape.Markers
import RedshiftOdbc.Library.Scanf

/-!
# Turning an INSERT into one with many tuples

`parseForMultiInsertCommand` looks for the parenthesised list behind `VALUES`
and writes a command that repeats it as often as the parameter limit allows, and
another one for the rows of the last batch.  Both commands are written with one
index.  A command text is the list of its characters without the zero at its end.
-/

namespace RedshiftOdbc.Execute

open RedshiftOdbc.Words RedshiftOdbc.Scanf RedshiftOdbc.Escape

/-! ## Finding the tuple -/

/-- The characters of a word of a regular expression. -/
def isWordChar (character : Char) : Bool := character.isAlphanum || character = '_'

/-- The clause begins at the place and is a word of its own, letter case aside. -/
def wholeWordAt (str substr : List Char) (place : Nat) : Bool :=
  ((str.drop place).take substr.length).map Char.toLower = substr.map Char.toLower &&
    !((previous str place).any isWordChar) && !((str[place + substr.length]?).any isWordChar)

def strcasestrwhole (str substr : List Char) : Option Nat :=
  (List.range str.length).find? fun place => wholeWordAt str substr place

def doesEmbedInDoubleQuotes (before : List Char) : Nat :=
  before.foldl (fun iDoubleQuote character =>
    if character = '"' then if iDoubleQuote ≠ 0 then iDoubleQuote - 1 else iDoubleQuote + 1
    else iDoubleQuote) 0

/-- The loop of `findSQLClause`, which goes on behind a clause it does not take. -/
def findSQLClauseFrom (pTempCmd pClause : List Char) : Nat → Nat → Option Nat
  | 0, _ => none
  | fuel + 1, start =>
      match strcasestrwhole (pTempCmd.drop start) pClause with
      | none => none
      | some found =>
          let pTemp := start + found
          if pTemp = 0 then none
          else if ((previous pTempCmd pTemp).any fun character =>
                isSpace character || character = ')') &&
              doesEmbedInDoubleQuotes (pTempCmd.take pTemp) = 0 then some pTemp
          else findSQLClauseFrom pTempCmd pClause fuel (pTemp + pClause.length)

def findSQLClause (pTempCmd pClause : List Char) : Option Nat :=
  findSQLClauseFrom pTempCmd pClause (pTempCmd.length + 1) 0

/--
The loop of `getNextTokenForInsertCommand` that looks for a token: whether it is
found, and the number of characters before the place at which the loop ends.
-/
def scanToken (token : Char) : Nat → Nat → Option Char → List Char → Bool × Nat
  | _, _, _, [] => (false, 0)
  | iQuote, iBracket, cPrevChar, character :: rest =>
      let on := fun (iQuote iBracket : Nat) =>
        let (found, count) := scanToken token iQuote iBracket (some character) rest
        (found, count + 1)
      if character = '\'' ∧ cPrevChar ≠ some '\\' then
        on (if iQuote ≠ 0 then iQuote - 1 else iQuote + 1) iBracket
      else if character = '(' ∧ token = ')' ∧ iQuote = 0 then on iQuote (iBracket + 1)
      else if character = ')' ∧ token = ')' ∧ iQuote = 0 ∧ iBracket ≠ 0 then
        on iQuote (iBracket - 1)
      else if character = token ∧ iQuote = 0 ∧ iBracket = 0 then (true, 0)
      else if character = ';' ∧ iQuote = 0 then (false, 0)
      else on iQuote iBracket

def skipBlanks (text : List Char) (place : Nat) : Nat :=
  place + ((text.drop place).takeWhile isSpace).length

/-- `getNextTokenForInsertCommand` with a token: its place, if it is found. -/
def getNextToken (text : List Char) (place : Nat) (token : Char) : Option Nat :=
  let start := skipBlanks text place
  match scanToken token 0 0 none (text.drop start) with
  | (true, count) => some (start + count)
  | (false, _) => none

/-- `getNextTokenForInsertCommand` without a token: where the next word begins and ends. -/
def getNextWord (text : List Char) (place : Nat) : Nat × Nat :=
  let start := skipBlanks text place
  (start, start + ((text.drop start).takeWhile fun character =>
    !isSpace character && character ≠ ';').length)

def valuesClause : List Char := ['V', 'A', 'L', 'U', 'E', 'S']

def insertWord : List Char := ['I', 'N', 'S', 'E', 'R', 'T']

/-- The brackets of the tuple, when nothing but blanks and `;` follow it. -/
def findTuple (text : List Char) : Option (Nat × Nat) :=
  match findSQLClause text valuesClause with
  | none => none
  | some pTemp =>
      match getNextToken text (pTemp + valuesClause.length) '(' with
      | none => none
      | some pLeftBracket =>
          match getNextToken text (pLeftBracket + 1) ')' with
          | none => none
          | some pRightBracket =>
              let (pToken, _) := getNextWord text (pRightBracket + 1)
              if (text[pToken]?).all fun character => character = ';' then
                some (pLeftBracket, pRightBracket)
              else none

/-! ## How many tuples -/

def padbMaxParameters : Nat := 32767

/-- `getTotalMultiTuples`: the tuples of a batch and of the last one. -/
def getTotalMultiTuples (numOfParamMarkers : Nat) (lArraySize : Int) : Int × Int :=
  let lTotalParams := wrap 8 (numOfParamMarkers * lArraySize)
  if (padbMaxParameters : Int) < lTotalParams then
    let iTotalMultiTuples := padbMaxParameters / numOfParamMarkers
    let iMaxParamsPerBatch := numOfParamMarkers * iTotalMultiTuples
    let iLoopCount := wrap 4 (lTotalParams / iMaxParamsPerBatch)
    (iTotalMultiTuples, wrap 4 (lArraySize - wrap 4 (iTotalMultiTuples * iLoopCount)))
  else (wrap 4 lArraySize, 0)

/-! ## Writing the commands -/

/-- A buffer of zeros and what has been written into it. -/
structure Buffer where
  size : Nat
  bytes : List Char
  /-- Every write was inside the buffer. -/
  inside : Bool
  deriving DecidableEq, Repr

/-- `rs_calloc`; the size of a negative `int` is none that can be had. -/
def calloc (size : Int) : Option Buffer := if size < 0 then none else some ⟨size.toNat, [], true⟩

def Buffer.memcpy (buffer : Buffer) (offset : Nat) (data : List Char) : Buffer where
  size := buffer.size
  bytes := buffer.bytes.take offset ++ List.replicate (offset - buffer.bytes.length) '\x00' ++
    data ++ buffer.bytes.drop (offset + data.length)
  inside := buffer.inside && decide (offset + data.length ≤ buffer.size)

/-- The text in the buffer, up to its first zero. -/
def Buffer.text (buffer : Buffer) : List Char :=
  buffer.bytes.takeWhile fun character => character ≠ '\x00'

/-- The two commands and the index both are written with. -/
structure Copying where
  i : Nat
  pMultiInsertCmd : Buffer
  pLastBatchMultiInsertCmd : Option Buffer
  deriving DecidableEq, Repr

/-- A write to both commands, the second one only while it has tuples to come. -/
def Copying.write (copying : Copying) (last : Bool) (data : List Char) : Copying where
  i := copying.i + data.length
  pMultiInsertCmd := copying.pMultiInsertCmd.memcpy copying.i data
  pLastBatchMultiInsertCmd :=
    if last then copying.pLastBatchMultiInsertCmd.map fun buffer => buffer.memcpy copying.i data
    else copying.pLastBatchMultiInsertCmd

/-- The first tuples are copied, as many of them into the last batch as it has. -/
def copyTuples (tuple : List Char) (iLastBatchTotalMultiTuples : Int) (copying : Copying) :
    Nat → Copying
  | 0 => copying
  | iCount + 1 =>
      let copied := copyTuples tuple iLastBatchTotalMultiTuples copying iCount
      let last : Bool := (iCount : Int) < iLastBatchTotalMultiTuples
      let copied := if iCount ≠ 0 then copied.write last [','] else copied
      copied.write last tuple

/-- A command that has been rewritten, with the brackets of the tuple it repeats. -/
structure MultiInsertCommand where
  pLeftBracket : Nat
  pRightBracket : Nat
  iMultiInsert : Int
  iLastBatchMultiInsert : Int
  pMultiInsertCmd : Buffer
  pLastBatchMultiInsertCmd : Option Buffer
  deriving DecidableEq, Repr

/-- `SQL_NTS` as the length argument of `countParamMarkers`. -/
def sqlNtsLen : Nat := 2 ^ 64 - 3

/-- The copying of the commands around and with the tuple between the brackets. -/
def copyCommands (text : List Char) (pLeftBracket pRightBracket : Nat) (tuples : Int × Int) :
    Option MultiInsertCommand :=
  let (iTotalMultiTuples, iLastBatchTotalMultiTuples) := tuples
  let cbLen : Int := text.length
  let iValueClauseLen : Int := wrap 4 ((pRightBracket : Int) - pLeftBracket + 1 + 1)
  let iMultiInsertCmdLen := wrap 4 (cbLen + wrap 4 (iValueClauseLen * iTotalMultiTuples) + 1)
  let iLastBatchMultiInsertCmdLen :=
    if 0 < iLastBatchTotalMultiTuples then
      wrap 4 (cbLen + wrap 4 (iValueClauseLen * iLastBatchTotalMultiTuples) + 1)
    else 0
  let pLastBatchMultiInsertCmd :=
    if 0 < iLastBatchMultiInsertCmdLen then calloc iLastBatchMultiInsertCmdLen else none
  match calloc iMultiInsertCmdLen with
  | none => none
  | some pMultiInsertCmd =>
      let before := text.take pLeftBracket
      let tuple := (text.drop pLeftBracket).take (pRightBracket - pLeftBracket + 1)
      let behind := text.drop (pRightBracket + 1)
      let copied := (Copying.mk 0 pMultiInsertCmd pLastBatchMultiInsertCmd).write true before
      let copied := copyTuples tuple iLastBatchTotalMultiTuples copied iTotalMultiTuples.toNat
      let copied := if behind = [] then copied else copied.write true behind
      some ⟨pLeftBracket, pRightBracket, iTotalMultiTuples, iLastBatchTotalMultiTuples,
        copied.pMultiInsertCmd, copied.pLastBatchMultiInsertCmd⟩

/-- The rewriting of an INSERT for an array. -/
def multiInsert (text : List Char) (lArraySize : Int) : Option MultiInsertCommand :=
  let numOfParamMarkers := countParamMarkers (some text) sqlNtsLen
  if 0 < numOfParamMarkers ∧ numOfParamMarkers ≤ padbMaxParameters then
    match findTuple text with
    | none => none
    | some (pLeftBracket, pRightBracket) =>
        let tuples := getTotalMultiTuples numOfParamMarkers lArraySize
        if 1 ≤ tuples.1 then copyCommands text pLeftBracket pRightBracket tuples else none
  else none

/-! ## The statement -/

/-- What the statement keeps about an INSERT. -/
structure InsertInfo where
  pszUserInsertCmd : Option (List Char)
  lArraySizeMultiInsert : Int
  iMultiInsert : Int
  iLastBatchMultiInsert : Int
  deriving DecidableEq, Repr

/-- The array size the parser goes by. -/
def parserArraySize (valid : Bool) (lArraySize : Int) : Int :=
  if valid = false ∨ lArraySize ≤ 0 then 1 else lArraySize

/-- `parseForMultiInsertCommand`; `stored` says that the text is the statement's own copy. -/
def parseForMultiInsertCommand (iMultiInsertCmdConvertEnable stored valid : Bool)
    (lArraySize : Int) (info : InsertInfo) (pCmd : List Char) :
    Option MultiInsertCommand × InsertInfo :=
  let info := { info with iMultiInsert := 0, iLastBatchMultiInsert := 0 }
  if iMultiInsertCmdConvertEnable then
    let (pToken, pSrc) := getNextWord pCmd 0
    if pToken ≠ pSrc then
      if ((pCmd.drop pToken).take (pSrc - pToken)).map Char.toLower =
          insertWord.map Char.toLower then
        let lArraySize := parserArraySize valid lArraySize
        let info :=
          if stored then { info with lArraySizeMultiInsert := lArraySize }
          else ⟨some pCmd, lArraySize, 0, 0⟩
        if 1 < lArraySize then
          match multiInsert pCmd lArraySize with
          | none => (none, info)
          | some command =>
              (some command, { info with
                iMultiInsert := command.iMultiInsert
                iLastBatchMultiInsert := command.iLastBatchMultiInsert })
        else (none, info)
      else (none, ⟨none, 0, 0, 0⟩)
    else (none, info)
  else (none, info)

end RedshiftOdbc.Execute

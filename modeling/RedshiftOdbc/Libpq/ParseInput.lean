import RedshiftOdbc.Libpq.Wire

/-!
# The protocol parser

`_pqParseInput3` takes the complete messages of the input buffer one after
another until the buffer holds no complete message or the state of the
connection tells it to stop.  In streaming cursor mode it also stops after a row
that fills the batch, with the stop flag set.  The client side cursor is off, as
it overrides the streaming cursor, and the caps on rows and memory are not set.
-/

namespace RedshiftOdbc.Libpq

open RedshiftOdbc.Words

/-- The `asyncStatus` values of a query in progress. -/
inductive AsyncStatus where
  | idle
  | busy
  | ready
  deriving DecidableEq, Repr

inductive ExecStatusType where
  | emptyQuery
  | commandOk
  | tuplesOk
  | fatalError
  deriving DecidableEq, Repr

/-- A result: what its rows look like, the rows, and the rows since they were last cleared. -/
structure PGresult where
  resultStatus : ExecStatusType
  numAttributes : Nat
  tuples : List (List Field)
  totalntups : Nat
  deriving DecidableEq, Repr

structure StreamingCursorInfo where
  streamingCursorRows : Nat
  endOfStreamingCursor : Bool
  streamResultBatchNumber : Nat
  endOfStreamingCursorQuery : Bool
  skipStreamingCursor : Bool
  deriving DecidableEq, Repr

/--
The connection and its statement's context.  `inBuffer` holds the bytes from
`inStart` on, `results` every result made so far, and `result` says which of them
`conn->result` points to.
-/
structure PGconn where
  inBuffer : List UInt8
  asyncStatus : AsyncStatus
  results : List PGresult
  result : Option Nat
  socketError : Bool
  extendedMetadata : Bool
  streamingCursorMode : Bool
  info : StreamingCursorInfo
  deriving DecidableEq, Repr

namespace PGconn

/-- The result `conn->result` points to. -/
def current (conn : PGconn) : Option PGresult := conn.result.bind fun place => conn.results[place]?

/-- `conn->result = PQmakeEmptyPGresult(conn, status)`, with the number of columns. -/
def makeEmptyPGresult (conn : PGconn) (status : ExecStatusType) (numAttributes : Nat) : PGconn :=
  { conn with
    results := conn.results ++ [⟨status, numAttributes, [], 0⟩]
    result := some conn.results.length }

/-- `pqSaveErrorResult`: a new result, unless there is an error result to add the message to. -/
def pqSaveErrorResult (conn : PGconn) : PGconn :=
  if conn.current.map PGresult.resultStatus = some .fatalError then conn
  else conn.makeEmptyPGresult .fatalError 0

def handleSyncLoss (conn : PGconn) : PGconn :=
  { conn.pqSaveErrorResult with asyncStatus := .ready }

/-- Stores a row in a result, which is `pqAddTuple` and the count. -/
def addTuple (conn : PGconn) (place : Nat) (tuple : List Field) : PGconn :=
  { conn with
    results := conn.results.modify place fun result =>
      { result with tuples := result.tuples ++ [tuple], totalntups := result.totalntups + 1 } }

def resetAfterOneResult (conn : PGconn) : PGconn :=
  { conn with
    info := { conn.info with endOfStreamingCursor := true }
    result := if 0 < conn.info.streamResultBatchNumber then none else conn.result }

end PGconn

/-- `getAnotherTuple`: a wrong number of fields makes an error result; none stands for `EOF`. -/
def getAnotherTuple (place nfields msgLength : Nat) (body : List UInt8) (conn : PGconn) :
    Option (PGconn × List UInt8) :=
  match pqGetInt 2 body with
  | none => none
  | some (tupnfields, rest) =>
      if tupnfields ≠ nfields then some (conn.pqSaveErrorResult, body.drop msgLength)
      else
        match readFields nfields rest with
        | none => none
        | some (tuple, rest) => some (conn.addTuple place tuple, rest)

/-- How the switch over the message types is left. -/
inductive Switch where
  /-- The parser returns; the flag is `*piStop`. -/
  | returned (conn : PGconn) (stop : Bool)
  /-- The message was read up to here. -/
  | read (conn : PGconn) (rest : List UInt8)

def parseDataRow (msgLength : Nat) (body : List UInt8) (conn : PGconn) : Switch :=
  match conn.result, conn.current with
  | some place, some result =>
      match result.resultStatus with
      | .tuplesOk =>
          if conn.streamingCursorMode ∧ conn.info.skipStreamingCursor then
            .read conn (body.drop msgLength)
          else
            match getAnotherTuple place result.numAttributes msgLength body conn with
            | none => .returned conn false
            | some (conn, rest) =>
                if conn.streamingCursorMode ∧ conn.current.map PGresult.totalntups =
                    some conn.info.streamingCursorRows then
                  -- the row that fills the batch: taken out of the buffer here
                  .returned { conn with
                    inBuffer := rest
                    info := { conn.info with
                      streamResultBatchNumber := conn.info.streamResultBatchNumber + 1 } } true
                else .read conn rest
      | .fatalError => .read conn (body.drop msgLength)
      | _ => .read conn.pqSaveErrorResult (body.drop msgLength)
  | _, _ => .read conn.pqSaveErrorResult (body.drop msgLength)

/-- The case of a row description.  A new one while there is a result waits for the application. -/
def parseRowDescription (body : List UInt8) (conn : PGconn) : Switch :=
  match conn.result with
  | some _ => .returned { conn with asyncStatus := .ready } false
  | none =>
      let conn :=
        if conn.streamingCursorMode ∧ 0 < conn.info.streamResultBatchNumber then
          { conn with info := { conn.info with endOfStreamingCursor := true } }
        else conn
      match pqGetInt 2 body with
      | none => .returned conn false
      | some (nfields, rest) =>
          match readAttDescs conn.extendedMetadata nfields.toNat rest with
          | none => .returned conn false
          | some rest => .read (conn.makeEmptyPGresult .tuplesOk nfields.toNat) rest

def parseCommandComplete (body : List UInt8) (conn : PGconn) : Switch :=
  match pqGets body with
  | none => .returned conn false
  | some (_, rest) =>
      let conn := if conn.result = none then conn.makeEmptyPGresult .commandOk 0 else conn
      let conn := { conn with asyncStatus := .ready }
      .read (if conn.streamingCursorMode then conn.resetAfterOneResult else conn) rest

/-- The case of a server that is ready for a new query. -/
def parseReadyForQuery (body : List UInt8) (conn : PGconn) : Switch :=
  match pqGetc body with
  | none => .returned conn false
  | some (_, rest) =>
      let conn := { conn with asyncStatus := .idle }
      .read
        (if conn.streamingCursorMode then
          { conn with info := { conn.info with endOfStreamingCursorQuery := true } }
        else conn) rest

/--
The switch over the message types.  Notices, notifications and parameter values
go to tables of their own and are taken whole, an error's fields become an error
result, and the query is neither a preparation nor a description.
-/
def switch (id : Char) (msgLength : Nat) (body : List UInt8) (conn : PGconn) : Switch :=
  if id = 'A' ∨ id = 'N' then .read conn (body.drop msgLength)
  else if conn.asyncStatus ≠ .busy then
    if conn.asyncStatus ≠ .idle then .returned conn false
    else .read conn (body.drop msgLength)
  else
    match id with
    | 'C' => parseCommandComplete body conn
    | 'E' =>
        .read { conn.makeEmptyPGresult .fatalError 0 with asyncStatus := .ready }
          (body.drop msgLength)
    | 'Z' => parseReadyForQuery body conn
    | 'I' =>
        .read
          { (if conn.result = none then conn.makeEmptyPGresult .emptyQuery 0 else conn) with
            asyncStatus := .ready } body
    | '1' | '2' | '3' | 'n' => .read conn body
    | 'S' => .read conn (body.drop msgLength)
    | 'K' => if body.length < 8 then .returned conn false else .read conn (body.drop 8)
    | 'T' => parseRowDescription body conn
    | 't' =>
        match pqGetInt 2 body with
        | none => .returned conn false
        | some (nparams, rest) =>
            if rest.length < 4 * nparams.toNat then .returned conn false
            else .read (conn.makeEmptyPGresult .commandOk 0) (rest.drop (4 * nparams.toNat))
    | 'D' => parseDataRow msgLength body conn
    | _ => .read { conn.pqSaveErrorResult with asyncStatus := .ready } (body.drop msgLength)

def validLongMessageType (id : Char) : Prop :=
  id = 'T' ∨ id = 'D' ∨ id = 'd' ∨ id = 'V' ∨ id = 'E' ∨ id = 'N' ∨ id = 'A' ∨ id = 't'

instance (id : Char) : Decidable (validLongMessageType id) := by
  unfold validLongMessageType
  infer_instance

/-- What the parser's loop does after one pass: return, or go on with the next message. -/
inductive Pass where
  | returned (conn : PGconn) (stop : Bool)
  | next (conn : PGconn)

/-- The end of a pass: a message whose contents disagree with its length becomes an error. -/
def finish (msgLength : Nat) (body : List UInt8) : Switch → Pass
  | .returned conn stop => .returned conn stop
  | .read conn rest =>
      if rest.length + msgLength = body.length then .next { conn with inBuffer := rest }
      else .next { conn.pqSaveErrorResult with
        asyncStatus := .ready
        inBuffer := body.drop msgLength }

/-- One pass of the parser's loop. -/
def parseMessage (conn : PGconn) : Pass :=
  match pqGetc conn.inBuffer with
  | none => .returned conn false
  | some (id, afterId) =>
      let id := Char.ofNat id.toNat
      match pqGetInt 4 afterId with
      | none => .returned conn false
      | some (msgLength, body) =>
          if msgLength < 4 then .returned conn.handleSyncLoss false
          else if 30000 < msgLength ∧ ¬ validLongMessageType id then
            .returned conn.handleSyncLoss false
          else
            let msgLength := (msgLength - 4).toNat
            if body.length < msgLength then .returned conn false
            else finish msgLength body (switch id msgLength body conn)

def parseLoop : Nat → PGconn → PGconn × Bool
  | 0, conn => (conn, false)
  | fuel + 1, conn =>
      match parseMessage conn with
      | .returned conn stop => (conn, stop)
      | .next conn => parseLoop fuel conn

/-- `_pqParseInput3`: every pass that goes on takes a message out of the buffer. -/
def pqParseInput3 (conn : PGconn) : PGconn × Bool := parseLoop (conn.inBuffer.length + 1) conn

/-! ## The loop ends -/

theorem finish_next {msgLength : Nat} {body : List UInt8} {outcome : Switch} {next : PGconn}
    (enough : msgLength ≤ body.length) (goes : finish msgLength body outcome = .next next) :
    next.inBuffer.length + msgLength = body.length := by
  cases outcome with
  | returned conn stop => cases goes
  | read conn rest =>
      rw [finish] at goes
      split at goes
      case isTrue exact_length =>
          cases goes
          exact exact_length
      case isFalse =>
          cases goes
          simp only [List.length_drop]
          omega

/-- A message has at least its five bytes of header. -/
theorem parseMessage_next {conn next : PGconn} (goes : parseMessage conn = .next next) :
    next.inBuffer.length + 5 ≤ conn.inBuffer.length := by
  rw [parseMessage] at goes
  cases buffer : conn.inBuffer with
  | nil => simp [buffer, pqGetc] at goes
  | cons id afterId =>
      rw [buffer] at goes
      simp only [pqGetc, pqGetInt] at goes
      by_cases short : afterId.length < 4
      · simp [short] at goes
      · simp only [if_neg short] at goes
        split at goes
        case isTrue => cases goes
        split at goes
        case isTrue => cases goes
        split at goes
        case isTrue => cases goes
        have left := finish_next (by omega) goes
        rw [List.length_drop] at left
        rw [List.length_cons]
        omega

theorem parseLoop_enough {fuel : Nat} {conn : PGconn} (enough : conn.inBuffer.length < fuel) :
    parseLoop fuel conn = pqParseInput3 conn := by
  induction fuel using Nat.strong_induction_on generalizing conn with
  | _ fuel ih =>
      obtain ⟨fuel, rfl⟩ : ∃ less, fuel = less + 1 := ⟨fuel - 1, by omega⟩
      rw [pqParseInput3, parseLoop, parseLoop]
      cases pass : parseMessage conn with
      | returned conn stop => rfl
      | next next =>
          have shorter := parseMessage_next pass
          simp only
          by_cases same : conn.inBuffer.length = fuel
          · rw [same]
          · rw [ih fuel (by omega) (by omega), ih conn.inBuffer.length (by omega) (by omega)]

theorem pqParseInput3_eq (conn : PGconn) :
    pqParseInput3 conn =
      match parseMessage conn with
      | .returned conn stop => (conn, stop)
      | .next conn => pqParseInput3 conn := by
  rw [pqParseInput3, parseLoop]
  cases pass : parseMessage conn with
  | returned conn stop => rfl
  | next next =>
      have shorter := parseMessage_next pass
      exact parseLoop_enough (by omega)

end RedshiftOdbc.Libpq

import RedshiftOdbc.Libpq.ParseInput

/-!
# Batches of a streaming cursor

`pqGetResult` hands out the first batch of rows while the result is still
arriving, and `pqReadNextBatchOfStreamingRows` clears the result and reads on.
However the bytes of the result are cut into chunks, the batches hold its rows
once and in order, every batch but the last is full, and the cursor ends with
the last batch.
-/

namespace RedshiftOdbc.Libpq

open RedshiftOdbc.Words RedshiftOdbc.Zpq

/-- What the reads of the socket bring, one after another. -/
abbrev Network : Type := List (List UInt8)

/-- The loop of `_pqGetResultLoopOnThread`.  With no more bytes to come the read fails. -/
def resultLoop (conn : PGconn) (stop : Bool) : Network → PGconn × Network
  | [] =>
      if conn.asyncStatus ≠ .busy ∨ stop then (conn, [])
      else ({ conn.pqSaveErrorResult with asyncStatus := .idle, socketError := true }, [])
  | chunk :: network =>
      if conn.asyncStatus ≠ .busy ∨ stop then (conn, chunk :: network)
      else
        let parsed := pqParseInput3 { conn with inBuffer := conn.inBuffer ++ chunk }
        resultLoop parsed.1 parsed.2 network

/-- `_pqGetResultLoopOnThread`. -/
def pqGetResultLoop (conn : PGconn) (network : Network) : PGconn × Network :=
  let parsed := pqParseInput3 { conn with socketError := false }
  resultLoop parsed.1 parsed.2 network

/-- `pqPrepareAsyncResult`: the result, or an error result where there is none. -/
def pqPrepareAsyncResult (conn : PGconn) : Nat × PGconn :=
  match conn.result with
  | some place => (place, { conn with result := none })
  | none => (conn.results.length, { conn.makeEmptyPGresult .fatalError 0 with result := none })

def pqGetResult (conn : PGconn) (network : Network) : Option Nat × PGconn × Network :=
  match pqGetResultLoop conn network with
  | (conn, network) =>
      if conn.socketError then
        match pqPrepareAsyncResult { conn with socketError := false } with
        | (place, conn) => (some place, conn, network)
      else if conn.streamingCursorMode ∧ ¬ conn.info.endOfStreamingCursor ∧
          0 < conn.info.streamResultBatchNumber then
        (conn.result, conn, network)
      else
        match conn.asyncStatus with
        | .idle => (none, conn, network)
        | .ready =>
            match pqPrepareAsyncResult conn with
            | (place, conn) => (some place, { conn with asyncStatus := .busy }, network)
        | .busy =>
            (some conn.results.length,
              { conn.makeEmptyPGresult .fatalError 0 with result := conn.result }, network)

def pqClearForStreamingCursor (place : Nat) (conn : PGconn) : PGconn :=
  { conn with
    results := conn.results.modify place fun result => { result with tuples := [], totalntups := 0 } }

/-- `pqReadNextBatchOfStreamingRows`; the flag is `*piError`. -/
def pqReadNextBatchOfStreamingRows (place : Nat) (conn : PGconn) (network : Network) :
    Bool × PGconn × Network :=
  match pqGetResultLoop (pqClearForStreamingCursor place conn) network with
  | (conn, network) => (conn.socketError, { conn with socketError := false }, network)

/-- What a call leaves to the application: the rows of the result and the end of cursor flag. -/
structure Batch where
  rows : List (List Field)
  endOfStreamingCursor : Bool
  deriving DecidableEq, Repr

def batchOf (place : Nat) (conn : PGconn) : Batch :=
  ⟨((conn.results[place]?).map PGresult.tuples).getD [], conn.info.endOfStreamingCursor⟩

/-- The batches of up to `calls` calls: none is made once the cursor has ended. -/
def nextBatches : Nat → Nat → PGconn → Network → List Batch
  | 0, _, _, _ => []
  | calls + 1, place, conn, network =>
      if conn.info.endOfStreamingCursor then []
      else
        match pqReadNextBatchOfStreamingRows place conn network with
        | (_, conn, network) => batchOf place conn :: nextBatches calls place conn network

/-- The batch of the first `pqGetResult`, and those of up to `calls` calls after it. -/
def fetchBatches (calls : Nat) (conn : PGconn) (network : Network) : List Batch :=
  match pqGetResult conn network with
  | (none, _, _) => []
  | (some place, conn, network) => batchOf place conn :: nextBatches calls place conn network

/-! ## One message -/

theorem in_sync {id : Char} {body : List UInt8}
    (allowed : body.length + 4 ≤ 30000 ∨ validLongMessageType id) :
    ¬ (30000 < ((body.length + 4 : Nat) : Int) ∧ ¬ validLongMessageType id) := by
  rintro ⟨long, invalid⟩
  rcases allowed with short | valid
  · omega
  · exact invalid valid

/-- A message that is whole in the buffer goes to its case. -/
theorem parseMessage_frame {conn : PGconn} {id : Char} {body rest : List UInt8}
    (byte : Char.ofNat (typeByte id).toNat = id) (fits : body.length + 4 < 2 ^ 31)
    (allowed : body.length + 4 ≤ 30000 ∨ validLongMessageType id)
    (buffer : conn.inBuffer = frame (typeByte id) body ++ rest) :
    parseMessage conn =
      finish body.length (body ++ rest) (switch id body.length (body ++ rest) conn) := by
  have bound : body.length + 4 < 256 ^ 4 := by
    norm_num
    omega
  have word := pqGetInt_big bound fits (body ++ rest)
  have inSync := in_sync allowed
  have four : (((body.length + 4 : Nat) : Int) - 4).toNat = body.length := by omega
  rw [parseMessage, buffer, frame, List.cons_append, pqGetc]
  simp only [byte, List.append_assoc, word]
  rw [if_neg (by omega), if_neg inSync, four, if_neg (by simp)]

/-- A message that is not whole in the buffer is left there. -/
theorem parseMessage_short {conn : PGconn} {id : Char} {body rest more : List UInt8}
    (byte : Char.ofNat (typeByte id).toNat = id) (fits : body.length + 4 < 2 ^ 31)
    (allowed : body.length + 4 ≤ 30000 ∨ validLongMessageType id)
    (arriving : conn.inBuffer ++ more = frame (typeByte id) body ++ rest)
    (short : conn.inBuffer.length < (frame (typeByte id) body).length) :
    parseMessage conn = .returned conn false := by
  rw [frame_length] at short
  rw [parseMessage]
  cases buffer : conn.inBuffer with
  | nil => rfl
  | cons first afterId =>
      rw [buffer, frame, List.cons_append, List.cons_append, List.cons.injEq] at arriving
      obtain ⟨rfl, arriving⟩ := arriving
      rw [buffer, List.length_cons] at short
      simp only [pqGetc, byte]
      by_cases header : afterId.length < 4
      · rw [pqGetInt, if_pos header]
      · have word : afterId.take 4 = big 4 (body.length + 4) := by
          have cut := congrArg (List.take 4) arriving
          rwa [List.take_append_of_le_length (by omega), List.append_assoc,
            List.take_left' (big_length 4 _)] at cut
        rw [pqGetInt, if_neg header, word, ofBig_big (by norm_num; omega),
          signed_of_lt (by norm_num; omega)]
        simp only
        rw [if_neg (by omega), if_neg (in_sync allowed), if_pos (by rw [List.length_drop]; omega)]

/-- A message at the head of what arrives is whole in the buffer, or the buffer is short of it. -/
theorem whole_or_short {buffer more message rest : List UInt8}
    (arriving : buffer ++ more = message ++ rest) :
    (∃ left, buffer = message ++ left ∧ left ++ more = rest) ∨ buffer.length < message.length := by
  by_cases short : buffer.length < message.length
  · exact Or.inr short
  · refine Or.inl ⟨buffer.drop message.length, ?_, ?_⟩
    · have cut := congrArg (List.take message.length) arriving
      rw [List.take_append_of_le_length (by omega), List.take_left] at cut
      conv_lhs => rw [← List.take_append_drop message.length buffer, cut]
    · have cut := congrArg (List.drop message.length) arriving
      rwa [List.drop_append_of_le_length (by omega), List.drop_left] at cut

/-- The first pass of the parser and the loop after it. -/
def loopFrom (conn : PGconn) (network : Network) : PGconn × Network :=
  resultLoop (pqParseInput3 conn).1 (pqParseInput3 conn).2 network

theorem loopFrom_next {conn next : PGconn} (pass : parseMessage conn = .next next)
    (network : Network) : loopFrom conn network = loopFrom next network := by
  rw [loopFrom, pqParseInput3_eq, pass]
  rfl

theorem loopFrom_returned {conn after : PGconn} {stop : Bool}
    (pass : parseMessage conn = .returned after stop) (ends : after.asyncStatus ≠ .busy ∨ stop)
    (network : Network) : loopFrom conn network = (after, network) := by
  rw [loopFrom, pqParseInput3_eq, pass]
  cases network <;> exact if_pos ends

/-- A parser that waits goes on with the next chunk. -/
theorem loopFrom_wait {conn : PGconn} (pass : parseMessage conn = .returned conn false)
    (busy : conn.asyncStatus = .busy) (chunk : List UInt8) (network : Network) :
    loopFrom conn (chunk :: network) =
      loopFrom { conn with inBuffer := conn.inBuffer ++ chunk } network := by
  rw [loopFrom, pqParseInput3_eq, pass]
  exact if_neg (by simp [busy])

/-! ## Reading a result -/

/-- The parser is in the middle of a result and has put some rows into the batch. -/
structure Reading (nfields batchRows : Nat) (got : List (List Field)) (conn : PGconn) : Prop where
  busy : conn.asyncStatus = .busy
  result : conn.result = some 0
  results : conn.results = [⟨.tuplesOk, nfields, got, got.length⟩]
  mode : conn.streamingCursorMode = true
  skip : conn.info.skipStreamingCursor = false
  running : conn.info.endOfStreamingCursor = false
  batch : conn.info.streamingCursorRows = batchRows

/-- The batch is full: the rows are handed out while the result is still arriving. -/
structure Filled (nfields batchRows : Nat) (got : List (List Field)) (conn : PGconn) : Prop where
  reading : Reading nfields batchRows got conn
  number : 0 < conn.info.streamResultBatchNumber
  noError : conn.socketError = false

structure Completed (nfields : Nat) (got : List (List Field)) (first : Bool) (conn : PGconn) :
    Prop where
  ready : conn.asyncStatus = .ready
  result : conn.result = if first then some 0 else none
  results : conn.results = [⟨.tuplesOk, nfields, got, got.length⟩]
  ended : conn.info.endOfStreamingCursor = true
  noError : conn.socketError = false

def remaining {nfields : Nat} (rows : List (DataRow nfields)) (complete : CommandComplete)
    (xactStatus : UInt8) : List UInt8 :=
  rows.flatMap DataRow.encode ++ (complete.encode ++ readyForQuery xactStatus)

variable {nfields batchRows : Nat} {got : List (List Field)} {conn : PGconn}

/-- A row goes to the end of the batch. -/
theorem parseDataRow_row (width : nfields < 2 ^ 16) (reading : Reading nfields batchRows got conn)
    (row : DataRow nfields) (msgLength : Nat) (rest : List UInt8) :
    parseDataRow msgLength (big 2 nfields ++ encodeFields row.fields ++ rest) conn =
      if got.length + 1 = batchRows then
        .returned { conn.addTuple 0 row.fields with
          inBuffer := rest
          info := { conn.info with
            streamResultBatchNumber := conn.info.streamResultBatchNumber + 1 } } true
      else .read (conn.addTuple 0 row.fields) rest := by
  obtain ⟨busy, result, results, mode, skip, running, batch⟩ := reading
  have current : conn.current = some ⟨.tuplesOk, nfields, got, got.length⟩ := by
    rw [PGconn.current, result, results]
    rfl
  have tuple : getAnotherTuple 0 nfields msgLength
      (big 2 nfields ++ encodeFields row.fields ++ rest) conn =
        some (conn.addTuple 0 row.fields, rest) := by
    rw [getAnotherTuple, List.append_assoc, pqGetInt_big (by norm_num; omega) (by omega)]
    simp only [ne_eq, not_true_eq_false, if_false]
    rw [readFields_row]
  have count : (conn.addTuple 0 row.fields).current.map PGresult.totalntups =
      some (got.length + 1) := by
    rw [PGconn.addTuple, PGconn.current, result, results]
    rfl
  have full : ((conn.addTuple 0 row.fields).streamingCursorMode = true ∧
      some (got.length + 1) = some (conn.addTuple 0 row.fields).info.streamingCursorRows) ↔
        got.length + 1 = batchRows := by
    simp [PGconn.addTuple, mode, batch]
  have wanted : ¬ (conn.streamingCursorMode = true ∧ conn.info.skipStreamingCursor = true) := by
    simp [skip]
  rw [parseDataRow, result, current]
  simp only [if_neg wanted, tuple, count, full]
  rfl

/-- Reading goes on after a row that does not fill the batch. -/
theorem Reading.addTuple (reading : Reading nfields batchRows got conn) (fields : List Field)
    (rest : List UInt8) :
    Reading nfields batchRows (got ++ [fields])
      { conn.addTuple 0 fields with inBuffer := rest } := by
  obtain ⟨busy, result, results, mode, skip, running, batch⟩ := reading
  refine ⟨busy, result, ?_, mode, skip, running, batch⟩
  simp [PGconn.addTuple, results]

theorem Reading.receive (reading : Reading nfields batchRows got conn) (chunk : List UInt8) :
    Reading nfields batchRows got { conn with inBuffer := conn.inBuffer ++ chunk } :=
  ⟨reading.busy, reading.result, reading.results, reading.mode, reading.skip, reading.running,
    reading.batch⟩

theorem row_frame (row : DataRow nfields) :
    (big 2 nfields ++ encodeFields row.fields).length + 4 < 2 ^ 31 := by
  have fits := row.fits
  simp only [List.length_append, big_length]
  omega

theorem parseMessage_row (width : nfields < 2 ^ 16) (reading : Reading nfields batchRows got conn)
    (row : DataRow nfields) {rest : List UInt8} (buffer : conn.inBuffer = row.encode ++ rest) :
    parseMessage conn =
      if got.length + 1 = batchRows then
        .returned { conn.addTuple 0 row.fields with
          inBuffer := rest
          info := { conn.info with
            streamResultBatchNumber := conn.info.streamResultBatchNumber + 1 } } true
      else .next { conn.addTuple 0 row.fields with inBuffer := rest } := by
  rw [parseMessage_frame (by decide) (row_frame row) (Or.inr (by decide)) buffer, switch,
    if_neg (by decide), if_neg (by simp [reading.busy])]
  simp only
  rw [parseDataRow_row width reading row]
  split
  · rfl
  · rw [finish, if_pos (by simp; omega)]

theorem complete_frame (complete : CommandComplete) :
    (complete.tag ++ [0]).length + 4 ≤ 30000 := by
  have short := complete.short
  simp only [List.length_append, List.length_singleton]
  omega

/-- The completion of the command ends the cursor. -/
theorem parseMessage_complete (reading : Reading nfields batchRows got conn)
    (complete : CommandComplete) {rest : List UInt8}
    (buffer : conn.inBuffer = complete.encode ++ rest) :
    parseMessage conn =
      .next { conn with
        asyncStatus := .ready
        info := { conn.info with endOfStreamingCursor := true }
        result := if 0 < conn.info.streamResultBatchNumber then none else conn.result
        inBuffer := rest } := by
  have short := complete_frame complete
  have text : pqGets (complete.tag ++ [0] ++ rest) = some (complete.tag, rest) := by
    rw [List.append_assoc]
    exact pqGets_text complete.noZero rest
  rw [parseMessage_frame (by decide) (by omega) (Or.inl short) buffer, switch,
    if_neg (by decide), if_neg (by simp [reading.busy])]
  simp only
  rw [parseCommandComplete, text]
  simp only [reading.result, reduceCtorEq, if_false, reading.mode, if_true]
  rw [finish, if_pos (by simp; omega)]
  simp only [PGconn.resetAfterOneResult]

/-- With a result ready the parser holds off. -/
theorem parseMessage_ready (ready : conn.asyncStatus = .ready) {xactStatus : UInt8}
    {more : List UInt8} (arriving : conn.inBuffer ++ more = readyForQuery xactStatus) :
    parseMessage conn = .returned conn false := by
  have whole : conn.inBuffer ++ more = frame (typeByte 'Z') [xactStatus] ++ [] := by
    rw [List.append_nil]
    exact arriving
  rcases whole_or_short whole with ⟨left, buffer, -⟩ | short
  · rw [parseMessage_frame (by decide) (by simp) (Or.inl (by simp)) buffer, switch,
      if_neg (by decide), if_pos (by simp [ready]), if_pos (by simp [ready]), finish]
  · exact parseMessage_short (by decide) (by simp) (Or.inl (by simp)) whole short

/-! ## One call -/

/--
How a call ends that began with `got` rows in the batch: with a full batch, or with
all the remaining rows and the end of the cursor.
-/
def Ends (batchRows : Nat) (complete : CommandComplete) (xactStatus : UInt8)
    (rows : List (DataRow nfields)) (got : List (List Field)) (batchNumber : Nat)
    (after : PGconn × Network) : Prop :=
  if batchRows ≤ got.length + rows.length then
    Filled nfields batchRows
        (got ++ (rows.take (batchRows - got.length)).map DataRow.fields) after.1 ∧
      after.1.inBuffer ++ after.2.flatten =
        remaining (rows.drop (batchRows - got.length)) complete xactStatus
  else Completed nfields (got ++ rows.map DataRow.fields) (batchNumber = 0) after.1

/-- Where a call stands: some rows are in the batch and the others are still to be read. -/
structure Underway (batchRows : Nat) (complete : CommandComplete) (xactStatus : UInt8)
    (rows : List (DataRow nfields)) (got : List (List Field)) (conn : PGconn)
    (network : Network) : Prop where
  reading : Reading nfields batchRows got conn
  noError : conn.socketError = false
  room : got.length < batchRows
  arriving : conn.inBuffer ++ network.flatten = remaining rows complete xactStatus

/-- With no row left the call reads the completion of the command. -/
theorem loopFrom_complete {complete : CommandComplete} {xactStatus : UInt8} {network : Network}
    (underway : Underway batchRows complete xactStatus ([] : List (DataRow nfields)) got conn
      network) {left : List UInt8} (buffer : conn.inBuffer = complete.encode ++ left)
    (after : left ++ network.flatten = readyForQuery xactStatus) :
    Ends batchRows complete xactStatus ([] : List (DataRow nfields)) got
      conn.info.streamResultBatchNumber (loopFrom conn network) := by
  obtain ⟨reading, noError, room, arriving⟩ := underway
  rw [loopFrom_next (parseMessage_complete reading complete buffer),
    loopFrom_returned (parseMessage_ready rfl after) (Or.inl (by simp)), Ends,
    if_neg (by simpa using room)]
  refine ⟨rfl, ?_, ?_, rfl, noError⟩
  · by_cases first : conn.info.streamResultBatchNumber = 0
    · simp [first, reading.result]
    · simp [first, Nat.pos_of_ne_zero first]
  · simpa using reading.results

/-- With a row at the head of the buffer the call takes it, and goes on if the batch is not full. -/
theorem loopFrom_row (width : nfields < 2 ^ 16) {complete : CommandComplete} {xactStatus : UInt8}
    {network : Network} {row : DataRow nfields} {rows : List (DataRow nfields)}
    (underway : Underway batchRows complete xactStatus (row :: rows) got conn network)
    {left : List UInt8} (buffer : conn.inBuffer = row.encode ++ left)
    (after : left ++ network.flatten = remaining rows complete xactStatus)
    (later : ∀ conn', Underway batchRows complete xactStatus rows (got ++ [row.fields]) conn'
        network → conn'.info.streamResultBatchNumber = conn.info.streamResultBatchNumber →
      Ends batchRows complete xactStatus rows (got ++ [row.fields])
        conn.info.streamResultBatchNumber (loopFrom conn' network)) :
    Ends batchRows complete xactStatus (row :: rows) got conn.info.streamResultBatchNumber
      (loopFrom conn network) := by
  obtain ⟨reading, noError, room, arriving⟩ := underway
  have pass := parseMessage_row width reading row buffer
  have stored := reading.addTuple row.fields left
  by_cases full : got.length + 1 = batchRows
  · rw [if_pos full] at pass
    have one : batchRows - got.length = 1 := by omega
    rw [loopFrom_returned pass (Or.inr rfl), Ends, if_pos (by rw [List.length_cons]; omega), one]
    refine ⟨⟨⟨stored.busy, stored.result, stored.results, stored.mode, stored.skip, stored.running,
      stored.batch⟩, Nat.succ_pos _, noError⟩, ?_⟩
    simpa using after
  · rw [if_neg full] at pass
    have further : batchRows - got.length = batchRows - (got.length + 1) + 1 := by omega
    have rest := later _ ⟨stored, noError, by simp; omega, after⟩ rfl
    rw [loopFrom_next pass]
    simp only [Ends, List.length_append, List.length_singleton, List.append_assoc,
      List.singleton_append] at rest
    simp only [Ends, List.length_cons, further, List.take_succ_cons, List.drop_succ_cons,
      List.map_cons]
    rwa [show got.length + 1 + rows.length = got.length + (rows.length + 1) by omega] at rest

/-- A call whose first message is not whole in the buffer. -/
theorem parseMessage_underway {complete : CommandComplete} {xactStatus : UInt8}
    {network : Network} {rows : List (DataRow nfields)}
    (underway : Underway batchRows complete xactStatus rows got conn network) :
    (∃ row rest left, rows = row :: rest ∧ conn.inBuffer = row.encode ++ left ∧
        left ++ network.flatten = remaining rest complete xactStatus) ∨
      (∃ left, rows = [] ∧ conn.inBuffer = complete.encode ++ left ∧
        left ++ network.flatten = readyForQuery xactStatus) ∨
      (parseMessage conn = .returned conn false ∧ network.flatten ≠ []) := by
  have arriving := underway.arriving
  have more : ∀ message rest : List UInt8, conn.inBuffer ++ network.flatten = message ++ rest →
      conn.inBuffer.length < message.length → network.flatten ≠ [] := by
    intro message rest whole short empty
    have lengths := congrArg List.length whole
    rw [empty, List.append_nil, List.length_append] at lengths
    omega
  cases rows with
  | nil =>
      have whole : conn.inBuffer ++ network.flatten =
          complete.encode ++ readyForQuery xactStatus := by
        simpa [remaining] using arriving
      rcases whole_or_short whole with ⟨left, buffer, after⟩ | short
      · exact Or.inr (Or.inl ⟨left, rfl, buffer, after⟩)
      · have fits := complete_frame complete
        exact Or.inr (Or.inr ⟨parseMessage_short (by decide) (by omega) (Or.inl fits) whole short,
          more _ _ whole short⟩)
  | cons row rows =>
      have whole : conn.inBuffer ++ network.flatten =
          row.encode ++ remaining rows complete xactStatus := by
        simpa [remaining] using arriving
      rcases whole_or_short whole with ⟨left, buffer, after⟩ | short
      · exact Or.inl ⟨row, rows, left, rfl, buffer, after⟩
      · exact Or.inr (Or.inr ⟨parseMessage_short (by decide) (row_frame row) (Or.inr (by decide))
          whole short, more _ _ whole short⟩)

/-- A call ends as it should if it does so whenever it has to wait for more bytes. -/
theorem loopFrom_ends_of_waits (width : nfields < 2 ^ 16) {complete : CommandComplete}
    {xactStatus : UInt8} {network : Network}
    (waits : ∀ (rows : List (DataRow nfields)) (got : List (List Field)) (conn : PGconn),
      Underway batchRows complete xactStatus rows got conn network →
      parseMessage conn = .returned conn false → network.flatten ≠ [] →
      Ends batchRows complete xactStatus rows got conn.info.streamResultBatchNumber
        (loopFrom conn network))
    {rows : List (DataRow nfields)}
    (underway : Underway batchRows complete xactStatus rows got conn network) :
    Ends batchRows complete xactStatus rows got conn.info.streamResultBatchNumber
      (loopFrom conn network) := by
  induction rows generalizing got conn with
  | nil =>
      rcases parseMessage_underway underway with ⟨_, _, _, none, _⟩ | ⟨left, -, buffer, after⟩ |
        ⟨pass, more⟩
      · cases none
      · exact loopFrom_complete underway buffer after
      · exact waits [] got conn underway pass more
  | cons row rows ih =>
      rcases parseMessage_underway underway with ⟨_, _, left, same, buffer, after⟩ |
        ⟨_, none, _⟩ | ⟨pass, more⟩
      · cases same
        refine loopFrom_row width underway buffer after ?_
        intro conn' next number
        exact number ▸ ih next
      · cases none
      · exact waits (row :: rows) got conn underway pass more

/-- Every call ends with a full batch or with the end of the cursor. -/
theorem loopFrom_ends (width : nfields < 2 ^ 16) {complete : CommandComplete} {xactStatus : UInt8}
    {network : Network} {rows : List (DataRow nfields)}
    (underway : Underway batchRows complete xactStatus rows got conn network) :
    Ends batchRows complete xactStatus rows got conn.info.streamResultBatchNumber
      (loopFrom conn network) := by
  induction network generalizing rows got conn with
  | nil =>
      refine loopFrom_ends_of_waits width ?_ underway
      intro rows got conn underway pass more
      exact absurd rfl more
  | cons chunk network ih =>
      refine loopFrom_ends_of_waits width ?_ underway
      intro rows got conn underway pass more
      rw [loopFrom_wait pass underway.reading.busy]
      refine ih ⟨underway.reading.receive chunk, underway.noError, underway.room, ?_⟩
      simpa using underway.arriving

/-! ## All calls -/

/-- The batches of rows that are delivered in order, full up to the last, with the last at the end. -/
def Partitions (batchRows : Nat) (rows : List (List Field)) (batches : List Batch) : Prop :=
  batches.flatMap Batch.rows = rows ∧
    (∀ batch ∈ batches.dropLast,
      batch.rows.length = batchRows ∧ batch.endOfStreamingCursor = false) ∧
    batches.getLast?.map Batch.endOfStreamingCursor = some true

/-- One batch more, full and with the cursor still open. -/
theorem Partitions.cons {rows got : List (List Field)} {batches : List Batch}
    (rest : Partitions batchRows rows batches) (full : got.length = batchRows) :
    Partitions batchRows (got ++ rows) (⟨got, false⟩ :: batches) := by
  obtain ⟨all, inner, last⟩ := rest
  cases batches with
  | nil => simp at last
  | cons batch batches =>
      refine ⟨by simpa using all, ?_, by simpa using last⟩
      intro other member
      rw [List.dropLast_cons_of_ne_nil (by simp)] at member
      rcases List.mem_cons.mp member with rfl | member
      · exact ⟨full, rfl⟩
      · exact inner other member

theorem Reading.afterCall (reading : Reading nfields batchRows got conn) :
    Reading nfields batchRows got { conn with socketError := false } :=
  ⟨reading.busy, reading.result, reading.results, reading.mode, reading.skip, reading.running,
    reading.batch⟩

/-- The cleared result is read into again. -/
theorem Reading.cleared (reading : Reading nfields batchRows got conn) :
    Reading nfields batchRows [] (pqClearForStreamingCursor 0 conn) := by
  obtain ⟨busy, result, results, mode, skip, running, batch⟩ := reading
  refine ⟨busy, result, ?_, mode, skip, running, batch⟩
  simp [pqClearForStreamingCursor, results]

theorem batchOf_results {results : PGresult} (stored : conn.results = [results]) :
    batchOf 0 conn = ⟨results.tuples, conn.info.endOfStreamingCursor⟩ := by
  simp [batchOf, stored]

theorem batchOf_afterCall (place : Nat) (conn : PGconn) :
    batchOf place { conn with socketError := false } = batchOf place conn := rfl

/-- The first rows and the others, as values. -/
theorem fields_take_drop (rows : List (DataRow nfields)) (count : Nat) :
    (rows.take count).map DataRow.fields ++ (rows.drop count).map DataRow.fields =
      rows.map DataRow.fields := by
  rw [← List.map_append, List.take_append_drop]

/-- One full batch fewer to fetch. -/
theorem calls_left {rows : List (DataRow nfields)} {calls : Nat} (positive : 0 < batchRows)
    (full : batchRows ≤ rows.length) (enough : rows.length / batchRows ≤ calls) :
    (rows.drop batchRows).length / batchRows < calls := by
  rw [Nat.div_eq_sub_div positive full] at enough
  rw [List.length_drop]
  omega

/-- No call is made after the end of the cursor. -/
theorem nextBatches_ended (ended : conn.info.endOfStreamingCursor = true) (calls : Nat)
    (network : Network) : nextBatches calls 0 conn network = [] := by
  cases calls with
  | zero => rfl
  | succ calls => rw [nextBatches, if_pos ended]

/-- The calls after a full batch deliver the rest of the rows. -/
theorem nextBatches_partition (width : nfields < 2 ^ 16) (positive : 0 < batchRows)
    {complete : CommandComplete} {xactStatus : UInt8} {calls : Nat}
    {rows : List (DataRow nfields)} {network : Network}
    (enough : rows.length / batchRows < calls) (reading : Reading nfields batchRows got conn)
    (arriving : conn.inBuffer ++ network.flatten = remaining rows complete xactStatus) :
    Partitions batchRows (rows.map DataRow.fields) (nextBatches calls 0 conn network) := by
  induction calls generalizing rows got conn network with
  | zero => exact absurd enough (Nat.not_lt_zero _)
  | succ calls ih =>
      have underway : Underway batchRows complete xactStatus rows []
          { pqClearForStreamingCursor 0 conn with socketError := false } network :=
        ⟨reading.cleared.afterCall, rfl, positive, arriving⟩
      have ends := loopFrom_ends width underway
      rw [nextBatches, if_neg (by simp [reading.running])]
      simp only [pqReadNextBatchOfStreamingRows, pqGetResultLoop]
      rw [← loopFrom]
      generalize loopFrom _ network = after at ends
      obtain ⟨after, network⟩ := after
      rw [Ends, List.length_nil, Nat.zero_add, Nat.sub_zero, List.nil_append, List.nil_append] at ends
      dsimp only at ends ⊢
      rw [batchOf_afterCall]
      split at ends
      case isTrue full =>
          obtain ⟨filled, arriving⟩ := ends
          have rest := ih (calls_left positive full (by omega)) filled.reading.afterCall arriving
          rw [batchOf_results filled.reading.results, filled.reading.running,
            ← fields_take_drop rows batchRows]
          exact rest.cons (by simp [full])
      case isFalse =>
          rw [batchOf_results ends.results, ends.ended, nextBatches_ended]
          · simp [Partitions]
          · exact ends.ended

/-- A query has been sent on a connection in streaming cursor mode, and nothing has been read. -/
structure Started (batchRows : Nat) (extended : Bool) (conn : PGconn) : Prop where
  busy : conn.asyncStatus = .busy
  result : conn.result = none
  results : conn.results = []
  metadata : conn.extendedMetadata = extended
  mode : conn.streamingCursorMode = true
  info : conn.info = ⟨batchRows, false, 0, false, false⟩

/-- The row description makes the result that the rows go to. -/
theorem parseMessage_rowDescription {extended : Bool} (started : Started batchRows extended conn)
    (description : RowDescription extended) {rest : List UInt8}
    (buffer : conn.inBuffer = description.encode ++ rest) :
    parseMessage conn =
      .next { conn.makeEmptyPGresult .tuplesOk description.columns.length with
        inBuffer := rest } := by
  obtain ⟨busy, result, results, metadata, mode, info⟩ := started
  have count := description.count
  have body : (big 2 description.columns.length ++
      description.columns.flatMap AttDesc.encode).length + 4 < 2 ^ 31 := by
    have fits := description.fits
    simp only [List.length_append, big_length]
    omega
  have fewer : ¬ (conn.streamingCursorMode = true ∧ 0 < conn.info.streamResultBatchNumber) := by
    simp [info]
  rw [parseMessage_frame (by decide) body (Or.inr (by decide)) buffer, switch,
    if_neg (by decide), if_neg (by simp [busy])]
  simp only [parseRowDescription, result, if_neg fewer, List.append_assoc]
  rw [pqGetInt_big (by norm_num; omega) (by omega)]
  simp only [metadata, Int.toNat_natCast]
  rw [readAttDescs_encode]
  simp only [finish]
  rw [if_pos (by simp; omega)]

theorem Started.reading {extended : Bool} (started : Started batchRows extended conn)
    (nfields : Nat) (rest : List UInt8) :
    Reading nfields batchRows []
      { conn.makeEmptyPGresult .tuplesOk nfields with inBuffer := rest } := by
  obtain ⟨busy, result, results, metadata, mode, info⟩ := started
  refine ⟨busy, ?_, ?_, mode, ?_, ?_, ?_⟩ <;> simp [PGconn.makeEmptyPGresult, results, info]

/-- The first call ends as any other that begins with no rows and no earlier batch. -/
theorem loopFrom_started {extended : Bool} (description : RowDescription extended)
    (positive : 0 < batchRows) {complete : CommandComplete} {xactStatus : UInt8}
    {rows : List (DataRow description.columns.length)} {network : Network}
    (started : Started batchRows extended conn) (noError : conn.socketError = false)
    (arriving : conn.inBuffer ++ network.flatten =
      description.encode ++ remaining rows complete xactStatus) :
    Ends batchRows complete xactStatus rows [] 0 (loopFrom conn network) := by
  have whole : ∀ {conn : PGconn} {network : Network} {left : List UInt8},
      Started batchRows extended conn → conn.socketError = false →
      conn.inBuffer = description.encode ++ left →
      left ++ network.flatten = remaining rows complete xactStatus →
      Ends batchRows complete xactStatus rows [] 0 (loopFrom conn network) := by
    intro conn network left started noError buffer after
    rw [loopFrom_next (parseMessage_rowDescription started description buffer)]
    have underway : Underway batchRows complete xactStatus rows []
        { conn.makeEmptyPGresult .tuplesOk description.columns.length with inBuffer := left }
        network :=
      ⟨started.reading _ left, noError, positive, after⟩
    have first : conn.info.streamResultBatchNumber = 0 := by rw [started.info]
    exact first ▸ loopFrom_ends description.count underway
  have body : (big 2 description.columns.length ++
      description.columns.flatMap AttDesc.encode).length + 4 < 2 ^ 31 := by
    have fits := description.fits
    simp only [List.length_append, big_length]
    omega
  induction network generalizing conn with
  | nil =>
      rcases whole_or_short arriving with ⟨left, buffer, after⟩ | short
      · exact whole started noError buffer after
      · have lengths := congrArg List.length arriving
        simp only [List.flatten_nil, List.append_nil, List.length_append] at lengths
        omega
  | cons chunk network ih =>
      rcases whole_or_short arriving with ⟨left, buffer, after⟩ | short
      · exact whole started noError buffer after
      · rw [loopFrom_wait (parseMessage_short (by decide) body (Or.inr (by decide)) arriving short)
          started.busy]
        refine ih ⟨started.busy, started.result, started.results, started.metadata, started.mode,
          started.info⟩ noError ?_
        simpa using arriving

/--
However the bytes of a result are cut into chunks, the batch of the first
`pqGetResult` and those of the calls after it hold its rows once and in order,
every batch but the last has the streaming cursor's number of rows, and the
cursor ends with the last batch and not before.
-/
theorem fetchBatches_partition {extended : Bool} (description : RowDescription extended)
    (rows : List (DataRow description.columns.length)) (complete : CommandComplete)
    (xactStatus : UInt8) (batchRows : Nat) (positive : 0 < batchRows) (conn : PGconn)
    (started : Started batchRows extended conn) (network : Network)
    (arriving : conn.inBuffer ++ network.flatten =
      description.encode ++ (rows.flatMap DataRow.encode ++
        (complete.encode ++ readyForQuery xactStatus)))
    (calls : Nat) (enough : rows.length / batchRows ≤ calls) :
    Partitions batchRows (rows.map DataRow.fields) (fetchBatches calls conn network) := by
  have fresh : Started batchRows extended { conn with socketError := false } :=
    ⟨started.busy, started.result, started.results, started.metadata, started.mode, started.info⟩
  have ends := loopFrom_started description positive fresh rfl arriving
  rw [fetchBatches, pqGetResult, pqGetResultLoop, ← loopFrom]
  generalize loopFrom _ network = after at ends
  obtain ⟨after, network⟩ := after
  rw [Ends, List.length_nil, Nat.zero_add, Nat.sub_zero, List.nil_append, List.nil_append] at ends
  dsimp only at ends ⊢
  split at ends
  case isTrue full =>
      obtain ⟨filled, arriving⟩ := ends
      have rest := nextBatches_partition description.count positive
        (calls_left positive full enough) filled.reading arriving
      rw [if_neg (by simp [filled.noError]),
        if_pos ⟨filled.reading.mode, by simp [filled.reading.running], filled.number⟩,
        filled.reading.result]
      dsimp only
      rw [batchOf_results filled.reading.results, filled.reading.running,
        ← fields_take_drop rows batchRows]
      exact rest.cons (by simp [full])
  case isFalse =>
      rw [if_neg (by simp [ends.noError]), if_neg (by simp [ends.ended]), ends.ready]
      simp only [pqPrepareAsyncResult, ends.result, decide_true, if_true]
      rw [nextBatches_ended]
      · simp [Partitions, batchOf, ends.results, ends.ended]
      · exact ends.ended

def letters : RowDescription false where
  columns := [⟨[99], List.replicate 18 0, [], [], by decide, rfl, rfl, by simp, rfl⟩]
  count := by decide
  fits := by decide

def letterRow (letter : UInt8) : DataRow letters.columns.length where
  fields := [some [letter]]
  count := rfl
  fits := by simp [encodeFields, encodeField]

def lettersComplete : CommandComplete where
  tag := [83]
  noZero := by decide
  short := by decide

/-- A connection that waits for its first result in batches of one row. -/
def waitingConn : PGconn :=
  ⟨[], .busy, [], none, false, false, true, ⟨1, false, 0, false, false⟩⟩

/-- Two rows in batches of one, with a chunk that ends inside the second row. -/
theorem fetchBatches_partition_twoRows :
    Partitions 1 [[some [97]], [some [98]]]
      (fetchBatches 2 waitingConn
        [letters.encode ++ (letterRow 97).encode ++ (letterRow 98).encode.take 7,
          (letterRow 98).encode.drop 7 ++ lettersComplete.encode, readyForQuery 73]) :=
  fetchBatches_partition letters [letterRow 97, letterRow 98] lettersComplete 73 1 (by decide)
    waitingConn ⟨rfl, rfl, rfl, rfl, rfl, rfl⟩ _ (by decide) 2 (by decide)

end RedshiftOdbc.Libpq

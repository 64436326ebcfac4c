import RedshiftOdbc.Zpq.Messages

/-!
# Nothing is lost, repeated or reordered

In every turn of `zpq_read` the bytes already returned and the bytes still to be
returned make up what the messages stand for.  What is still to be returned is
read off the stream: it stands at a message boundary, inside plain messages,
inside a compressed message, or before the index of a new method.
-/

namespace RedshiftOdbc.Zpq

open RedshiftOdbc.Words

variable {algorithms : Algorithms} (inverse : StreamingInverse algorithms) (nCompressors : Nat)

/-- Messages a server writes, without the kinds that are handled wrongly. -/
def Readable (method : Method) (messages : List Message) : Prop :=
  Throughout (fun method message =>
    WellFormed inverse nCompressors method message ∧ Harmless method message) method messages

/--
The decompressor goes on with the stream of the method; `pending` comes out of
it once the bytes of `payload` are read.
-/
def Decodes (zpq : ZpqStream algorithms) (method : Method) (payload pending : List UInt8)
    (notFlushed : Bool) : Prop :=
  match method with
  | none =>
      zpq.dStream = .null ∧ zpq.decompressAlgIdx = -1 ∧ payload = [] ∧ pending = [] ∧
        notFlushed = false
  | some (index, consumed) =>
      zpq.decompressAlgIdx = index ∧ ∃ state emitted,
        zpq.dStream = .live state notFlushed ∧
        inverse.Holds state index consumed emitted ∧
        inverse.Valid index (consumed ++ payload) ∧
        emitted ++ pending = inverse.output index (consumed ++ payload) ∧
        (payload = [] → notFlushed = false → pending = [])

/-- Where the stream stands, with the unread bytes and those to come, and what is left to return. -/
inductive Stands (zpq : ZpqStream algorithms) (bytes : List UInt8) : List UInt8 → Prop where
  | boundary (method : Method) (messages : List Message) (pending : List UInt8) (notFlushed : Bool)
      (left : zpq.rxMsgBytesLeft = 0) (settled : zpq.readingSetCompression = false)
      (decodes : Decodes inverse zpq method [] pending notFlushed)
      (shape : bytes = encodeAll messages)
      (readable : Readable inverse nCompressors method messages) :
      Stands zpq bytes (pending ++ deliver inverse method messages)
  | plain (method : Method) (messages : List Message) (rest : List UInt8)
      (left : zpq.rxMsgBytesLeft = rest.length) (some_left : rest ≠ [])
      (uncompressed : zpq.isDecompressing = false) (settled : zpq.readingSetCompression = false)
      (decodes : Decodes inverse zpq method [] [] false)
      (shape : bytes = rest ++ encodeAll messages)
      (readable : Readable inverse nCompressors method messages) :
      Stands zpq bytes (rest ++ deliver inverse method messages)
  | payload (index : Nat) (consumed : List UInt8) (messages : List Message)
      (payload pending : List UInt8) (notFlushed : Bool)
      (left : zpq.rxMsgBytesLeft = payload.length) (some_left : payload ≠ [])
      (compressed : zpq.isDecompressing = true) (settled : zpq.readingSetCompression = false)
      (decodes : Decodes inverse zpq (some (index, consumed)) payload pending notFlushed)
      (shape : bytes = payload ++ encodeAll messages)
      (readable : Readable inverse nCompressors (some (index, consumed ++ payload)) messages)
      (room : zpq.pos + payload.length + 1 ≤ bufferSize)
      (whole : notFlushed = true → payload.length ≤ zpq.unread.length) :
      Stands zpq bytes (pending ++ deliver inverse (some (index, consumed ++ payload)) messages)
  | switching (method : Method) (messages : List Message) (algorithmIdx : UInt8)
      (left : zpq.rxMsgBytesLeft = 0) (switching : zpq.readingSetCompression = true)
      (known : algorithmIdx.toNat < nCompressors)
      (decodes : Decodes inverse zpq method [] [] false)
      (shape : bytes = algorithmIdx :: encodeAll messages)
      (readable : Readable inverse nCompressors (method.switch algorithmIdx.toNat) messages) :
      Stands zpq bytes (deliver inverse (method.switch algorithmIdx.toNat) messages)

/-- The buffer is far from its end, or it holds little more than the message it is reading. -/
def Roomy (zpq : ZpqStream algorithms) : Prop :=
  zpq.size + maxDataTrunk ≤ bufferSize ∨
    (zpq.isDecompressing = true ∧ zpq.unread.length ≤ zpq.rxMsgBytesLeft + 1 ∧
      zpq.pos + zpq.rxMsgBytesLeft + 1 ≤ bufferSize)

variable {inverse nCompressors}

theorem decodes_buffered {zpq : ZpqStream algorithms} {method : Method}
    {payload pending : List UInt8} {notFlushed : Bool}
    (decodes : Decodes inverse zpq method payload pending notFlushed) :
    zsBuffered zpq.dStream = some notFlushed := by
  cases method with
  | none =>
      obtain ⟨null, -, -, -, flag⟩ := decodes
      rw [null, flag]
      rfl
  | some method =>
      obtain ⟨-, state, emitted, live, -⟩ := decodes
      rw [live]
      rfl

/-- The decompressor is untouched when the buffer and the counter change. -/
theorem decodes_congr {zpq next : ZpqStream algorithms} {method : Method}
    {payload pending : List UInt8} {notFlushed : Bool} (same : next.dStream = zpq.dStream)
    (index : next.decompressAlgIdx = zpq.decompressAlgIdx)
    (decodes : Decodes inverse zpq method payload pending notFlushed) :
    Decodes inverse next method payload pending notFlushed := by
  cases method <;> simpa only [Decodes, same, index] using decodes

namespace Stands

variable {zpq : ZpqStream algorithms} {bytes rest : List UInt8}

/-- A stream whose position moves back stands where it stood. -/
theorem congr (stands : Stands inverse nCompressors zpq bytes rest) {next : ZpqStream algorithms}
    (dStream : next.dStream = zpq.dStream) (index : next.decompressAlgIdx = zpq.decompressAlgIdx)
    (left : next.rxMsgBytesLeft = zpq.rxMsgBytesLeft)
    (decompressing : next.isDecompressing = zpq.isDecompressing)
    (switching : next.readingSetCompression = zpq.readingSetCompression)
    (pos : next.pos ≤ zpq.pos) (grown : zpq.unread.length ≤ next.unread.length) :
    Stands inverse nCompressors next bytes rest := by
  cases stands with
  | boundary method messages pending notFlushed none_left settled decodes shape readable =>
      exact .boundary method messages pending notFlushed (left.trans none_left)
        (switching.trans settled) (decodes_congr dStream index decodes) shape readable
  | plain method messages rest some_left filled uncompressed settled decodes shape readable =>
      exact .plain method messages rest (left.trans some_left) filled
        (decompressing.trans uncompressed) (switching.trans settled)
        (decodes_congr dStream index decodes) shape readable
  | payload algorithm consumed messages payload pending notFlushed some_left filled compressed
      settled decodes shape readable room whole =>
      exact .payload algorithm consumed messages payload pending notFlushed (left.trans some_left)
        filled (decompressing.trans compressed) (switching.trans settled)
        (decodes_congr dStream index decodes) shape readable (by omega)
        (fun flag => (whole flag).trans grown)
  | switching method messages algorithmIdx none_left started known decodes shape readable =>
      exact .switching method messages algorithmIdx (left.trans none_left)
        (switching.trans started) known (decodes_congr dStream index decodes) shape readable

theorem buffered (stands : Stands inverse nCompressors zpq bytes rest) :
    ∃ notFlushed, zsBuffered zpq.dStream = some notFlushed := by
  cases stands with
  | boundary _ _ _ notFlushed _ _ decodes => exact ⟨notFlushed, decodes_buffered decodes⟩
  | plain _ _ _ _ _ _ _ decodes => exact ⟨false, decodes_buffered decodes⟩
  | payload _ _ _ _ _ notFlushed _ _ _ _ decodes => exact ⟨notFlushed, decodes_buffered decodes⟩
  | switching _ _ _ _ _ _ decodes => exact ⟨false, decodes_buffered decodes⟩

end Stands

/-! ## Filling the buffer -/

namespace ZpqStream

variable (zpq : ZpqStream algorithms)

@[simp]
theorem bufReuse_unread : zpq.bufReuse.unread = zpq.unread := by
  rw [bufReuse]
  split <;> rfl

@[simp]
theorem bufReuse_rxMsgBytesLeft : zpq.bufReuse.rxMsgBytesLeft = zpq.rxMsgBytesLeft := by
  rw [bufReuse]
  split <;> rfl

@[simp]
theorem bufReuse_dStream : zpq.bufReuse.dStream = zpq.dStream := by
  rw [bufReuse]
  split <;> rfl

theorem bufReuse_stands {bytes rest : List UInt8}
    (stands : Stands inverse nCompressors zpq bytes rest) :
    Stands inverse nCompressors zpq.bufReuse bytes rest := by
  refine stands.congr ?_ ?_ ?_ ?_ ?_ ?_ ?_ <;> rw [bufReuse] <;> split <;> simp

/-- After the reuse a stream that is not filled for a long message is far from the end. -/
theorem bufReuse_roomy (roomy : Roomy zpq) :
    zpq.bufReuse.size + maxDataTrunk ≤ bufferSize ∨
      (zpq.bufReuse.isDecompressing = true ∧ 5 < zpq.unread.length ∧
        zpq.unread.length ≤ zpq.rxMsgBytesLeft + 1 ∧
        zpq.bufReuse.pos + zpq.rxMsgBytesLeft + 1 ≤ bufferSize) := by
  by_cases long : 5 < zpq.unread.length
  · have same : zpq.bufReuse = zpq := if_pos long
    rw [same]
    rcases roomy with far | ⟨compressed, near, room⟩
    · exact .inl far
    · exact .inr ⟨compressed, long, near, room⟩
  · have same : zpq.bufReuse = { zpq with pos := 0 } := if_neg long
    refine .inl ?_
    rw [same, size, bufferSize, maxDataTrunk]
    simp only
    omega

theorem rxFunc_cases (incoming : List UInt8) (chunk : Option Nat) (size : Nat) :
    (∃ rc, zpq.rxFunc incoming chunk size = .error rc ∧ rc ≠ zsBufferError ∧
        (0 < chunk.getD 0 → 0 < size → incoming = [])) ∨
      ∃ count, 0 < count ∧ count ≤ size ∧ count ≤ incoming.length ∧
        zpq.rxFunc incoming chunk size =
          .ok ({ zpq with unread := zpq.unread ++ incoming.take count }, incoming.drop count) := by
  cases chunk with
  | none => exact .inl ⟨-1, rfl, by decide, fun given => absurd given (by decide)⟩
  | some chunk =>
      by_cases some_bytes : 0 < min (min chunk size) incoming.length
      · exact .inr ⟨min (min chunk size) incoming.length, some_bytes, by omega, by omega,
          if_pos some_bytes⟩
      · refine .inl ⟨0, if_neg some_bytes, by decide, fun given wanted => ?_⟩
        rw [Option.getD_some] at given
        exact List.length_eq_zero_iff.mp (by omega)

end ZpqStream

/-- The stream behind the reading part of a turn. -/
structure Filled (zpq next : ZpqStream algorithms) (incoming later rest : List UInt8) : Prop where
  stands : Stands inverse nCompressors next (next.unread ++ later) rest
  roomy : next.size + maxDataTrunk ≤ bufferSize ∨
    (next.isDecompressing = true ∧ 0 < next.rxMsgBytesLeft ∧
      next.unread.length ≤ next.rxMsgBytesLeft + 1)
  dStream : next.dStream = zpq.dStream
  left : next.rxMsgBytesLeft = zpq.rxMsgBytesLeft
  /-- Bytes were read, or there were enough of them. -/
  supply : (later.length < incoming.length ∧
      next.unread.length + later.length = zpq.unread.length + incoming.length) ∨
    (later = incoming ∧ next.unread = zpq.unread ∧
      (∀ notFlushed, zsBuffered next.dStream = some notFlushed →
        next.bufferedRx notFlushed = true) ∧
      ¬ (next.isDecompressing = true ∧ next.unread.length < next.rxMsgBytesLeft))

namespace ZpqStream

variable {zpq : ZpqStream algorithms} {incoming rest : List UInt8}

/-- A turn reads without coming to the end of the buffer. -/
theorem receive_cases (space : 0 < zpq.bufLeft)
    (near : zpq.bufLeft ≤ maxDataTrunk →
      zpq.isDecompressing = true ∧ zpq.unread.length < zpq.rxMsgBytesLeft)
    (noblock : Bool) (chunk : Option Nat) :
    (∃ rc, zpq.receive incoming noblock chunk = .error rc ∧ rc ≠ zsBufferError ∧
        (Hands noblock chunk → incoming = [])) ∨
      ∃ count, 0 < count ∧ count ≤ incoming.length ∧
        zpq.receive incoming noblock chunk =
          .ok ({ zpq with unread := zpq.unread ++ incoming.take count }, incoming.drop count) ∧
        (zpq.size + count + maxDataTrunk ≤ bufferSize ∨
          (zpq.isDecompressing = true ∧ 0 < zpq.rxMsgBytesLeft ∧
            zpq.unread.length + count ≤ zpq.rxMsgBytesLeft + 1)) := by
  cases noblock with
  | true => exact .inl ⟨0, rfl, by decide, fun hands => absurd hands.1 (by decide)⟩
  | false =>
      have some_space : ¬ zpq.bufLeft = 0 := by omega
      by_cases close : zpq.bufLeft ≤ maxDataTrunk
      · obtain ⟨compressed, short⟩ := near close
        have wanted : zpq.unread.length < zpq.rxMsgBytesLeft + 1 := by omega
        have read : zpq.receive incoming false chunk = zpq.rxFunc incoming chunk
            (min (zpq.rxMsgBytesLeft - zpq.unread.length + 1) zpq.bufLeft) := by
          simp only [receive, Bool.false_eq_true, some_space, close, wanted, if_true, if_false]
        rw [read]
        rcases zpq.rxFunc_cases incoming chunk
            (min (zpq.rxMsgBytesLeft - zpq.unread.length + 1) zpq.bufLeft) with
          ⟨rc, failed, kind, ends⟩ | ⟨count, positive, le, available, done⟩
        · exact .inl ⟨rc, failed, kind, fun hands => ends hands.2 (by omega)⟩
        · exact .inr ⟨count, positive, available, done, .inr ⟨compressed, by omega, by omega⟩⟩
      · have read : zpq.receive incoming false chunk =
            zpq.rxFunc incoming chunk (zpq.bufLeft - maxDataTrunk) := by
          simp only [receive, Bool.false_eq_true, some_space, close, if_false]
        rw [read]
        rcases zpq.rxFunc_cases incoming chunk (zpq.bufLeft - maxDataTrunk) with
          ⟨rc, failed, kind, ends⟩ | ⟨count, positive, le, available, done⟩
        · exact .inl ⟨rc, failed, kind, fun hands => ends hands.2 (by omega)⟩
        · refine .inr ⟨count, positive, available, done, .inl ?_⟩
          rw [bufLeft] at close le
          omega

/-- The reading part of a turn never reports the buffer as full and loses no byte. -/
theorem fill_cases (stands : Stands inverse nCompressors zpq (zpq.unread ++ incoming) rest)
    (roomy : Roomy zpq) (noblock : Bool) (chunk : Option Nat) :
    (∃ rc, zpq.fill incoming noblock chunk = some (.error rc) ∧ rc ≠ zsBufferError ∧
        (Hands noblock chunk → incoming = [])) ∨
      ∃ next later, zpq.fill incoming noblock chunk = some (.ok (next, later)) ∧
        @Filled _ inverse nCompressors zpq next incoming later rest := by
  have reused := zpq.bufReuse_stands stands
  have place := zpq.bufReuse_roomy roomy
  have same := zpq.bufReuse_rxMsgBytesLeft
  have dStream := zpq.bufReuse_dStream
  obtain ⟨notFlushed, flag⟩ := reused.buffered
  have unfolded : zpq.fill incoming noblock chunk =
      if !zpq.bufReuse.bufferedRx notFlushed || (zpq.bufReuse.isDecompressing &&
          zpq.bufReuse.unread.length < zpq.bufReuse.rxMsgBytesLeft) then
        some (zpq.bufReuse.receive incoming noblock chunk)
      else some (.ok (zpq.bufReuse, incoming)) := by
    simp only [fill, flag, bind, Option.bind, pure]
  rw [unfolded]
  split
  · next wanted =>
      -- a buffer near its end holds more than five bytes, so a message must be incomplete
      rw [Bool.or_eq_true, Bool.not_eq_true', Bool.and_eq_true, decide_eq_true_eq] at wanted
      have stays : zpq.bufReuse.unread = zpq.unread := zpq.bufReuse_unread
      have few : zpq.bufReuse.bufferedRx notFlushed = false →
          zpq.bufReuse.size + maxDataTrunk + 1 ≤ bufferSize := by
        intro none
        have short : zpq.unread.length < 5 := by
          simp only [bufferedRx, Bool.or_eq_false_iff, decide_eq_false_iff_not, stays] at none
          omega
        have moved : zpq.bufReuse = { zpq with pos := 0 } := if_neg (by omega)
        rw [moved, size, bufferSize, maxDataTrunk]
        simp only
        omega
      have space : 0 < zpq.bufReuse.bufLeft := by
        rw [bufLeft]
        rcases place with far | ⟨-, long, -, room⟩
        · rw [maxDataTrunk] at far
          omega
        · rcases wanted with none | ⟨-, short⟩
          · have := few none
            omega
          · rw [size]
            omega
      have near : zpq.bufReuse.bufLeft ≤ maxDataTrunk →
          zpq.bufReuse.isDecompressing = true ∧
            zpq.bufReuse.unread.length < zpq.bufReuse.rxMsgBytesLeft := by
        intro close
        rcases wanted with none | incomplete
        · have := few none
          rw [bufLeft] at close
          omega
        · exact incomplete
      rw [← stays] at reused
      rcases receive_cases space near noblock chunk with
        ⟨rc, failed, kind, ends⟩ | ⟨count, positive, available, done, roomy⟩
      · exact .inl ⟨rc, congrArg some failed, kind, ends⟩
      · refine .inr ⟨_, _, congrArg some done, ?_, ?_, dStream, same, .inl ?_⟩
        · simp only
          rw [List.append_assoc, List.take_append_drop]
          exact reused.congr rfl rfl rfl rfl rfl (le_refl _) (by simp)
        · simp only [size, List.length_append, List.length_take, Nat.min_eq_left available]
          rcases roomy with far | ⟨compressed, some_left, near⟩
          · rw [size] at far
            exact .inl (by omega)
          · exact .inr ⟨compressed, some_left, by omega⟩
        · simp only [List.length_append, List.length_take, List.length_drop, stays]
          omega
  · next enough =>
      rw [Bool.not_eq_true, Bool.or_eq_false_iff, Bool.not_eq_false', Bool.and_eq_false_iff,
        decide_eq_false_iff_not] at enough
      refine .inr ⟨_, _, rfl, ?_, ?_, dStream, same, .inr ⟨rfl, zpq.bufReuse_unread, ?_, ?_⟩⟩
      · rw [bufReuse_unread]
        exact reused
      · rcases place with far | ⟨compressed, long, near, room⟩
        · exact .inl far
        · refine .inr ⟨compressed, by omega, by rw [bufReuse_unread]; omega⟩
      · intro other other_flag
        rw [flag] at other_flag
        cases other_flag
        exact enough.1
      · rintro ⟨compressed, short⟩
        rcases enough.2 with uncompressed | long
        · rw [compressed] at uncompressed
          cases uncompressed
        · exact long short

end ZpqStream

/-! ## Handling what is in the buffer -/

/-- When the header of an acknowledgement is handled, all of it has arrived. -/
def AckWhole (zpq : ZpqStream algorithms) : Prop :=
  zpq.rxMsgBytesLeft = 0 → zpq.readingSetCompression = false →
    zsBuffered zpq.dStream = some false → 5 ≤ zpq.unread.length →
    isCompressionAck (zpq.unread.headD 0) = true → msgLen zpq.unread + 1 ≤ zpq.unread.length

/-- There is enough in the buffer, so that nothing need be read. -/
def Supplied (zpq : ZpqStream algorithms) : Prop :=
  (∀ notFlushed, zsBuffered zpq.dStream = some notFlushed → zpq.bufferedRx notFlushed = true) ∧
    ¬ (zpq.isDecompressing = true ∧ zpq.unread.length < zpq.rxMsgBytesLeft)

/-- A bound on the turns that can pass before more bytes are needed. -/
def work (zpq : ZpqStream algorithms) : Nat :=
  8 * zpq.unread.length + (if zsBuffered zpq.dStream = some true then 2 else 0) +
    if zpq.rxMsgBytesLeft = 0 then 1 else 0

theorem work_bounds (zpq : ZpqStream algorithms) :
    8 * zpq.unread.length ≤ work zpq ∧ work zpq ≤ 8 * zpq.unread.length + 3 := by
  rw [work]
  split_ifs <;> omega

/-- What a turn comes to: bytes of the rest, or another turn with less to do. -/
def Goes (zpq : ZpqStream algorithms) (later rest : List UInt8)
    (turned : Turned) (next : ZpqStream algorithms) : Prop :=
  Roomy next ∧ ∃ rest', Stands inverse nCompressors next (next.unread ++ later) rest' ∧
    ((∃ bytes, bytes ≠ [] ∧ turned = .data bytes ∧ rest = bytes ++ rest') ∨
      (turned = .again ∧ rest = rest' ∧ work next ≤ work zpq ∧
        (Supplied zpq → work next < work zpq)))

theorem readAhead_zero (unread : List UInt8) (turns : Nat) :
    ZpqStream.readAhead unread turns 0 = some 0 := by
  unfold ZpqStream.readAhead
  simp

@[simp]
theorem zsBuffered_live (state : algorithms.State) (notFlushed : Bool) :
    zsBuffered (.live state notFlushed : DStream algorithms) = some notFlushed := rfl

/-- The stream after some bytes of a compressed message were taken. -/
def ZpqStream.taken (zpq : ZpqStream algorithms) (count : Nat) (state : algorithms.State)
    (notFlushed : Bool) : ZpqStream algorithms :=
  { zpq with
    dStream := .live state notFlushed
    unread := zpq.unread.drop count
    pos := zpq.pos + count
    rxMsgBytesLeft := zpq.rxMsgBytesLeft - count }

section Read

variable {zpq : ZpqStream algorithms} {index : Nat}
  {consumed payload pending later tail : List UInt8} {notFlushed : Bool}

/-- Reading compressed bytes hands out a part of what is pending. -/
theorem readCompressedMessage_cases (left : zpq.rxMsgBytesLeft = payload.length)
    (decodes : Decodes inverse zpq (some (index, consumed)) payload pending notFlushed)
    (shape : zpq.unread ++ later = payload ++ tail) (whole : payload.length ≤ zpq.unread.length)
    (dstLen : Nat) (dst_pos : 0 < dstLen) :
    ∃ count output state flag pending', count ≤ payload.length ∧
      zpq.readCompressedMessage dstLen = some (if output = [] then .again else .data output,
        zpq.taken count state flag) ∧
      pending = output ++ pending' ∧
      Decodes inverse (zpq.taken count state flag)
        (some (index, consumed ++ payload.take count)) (payload.drop count) pending' flag ∧
      (count = 0 → output = [] → payload = [] ∧ flag = false) := by
  obtain ⟨sameIndex, state, emitted, live, holds, valid, result, silent⟩ := decodes
  have source : zpq.unread.take (min zpq.rxMsgBytesLeft zpq.unread.length) = payload := by
    rw [left, Nat.min_eq_left whole]
    have cut := congrArg (List.take payload.length) shape
    rwa [List.take_append_of_le_length whole, List.take_left'] at cut
    rfl
  have read := inverse.read state index consumed emitted payload dstLen holds valid
    ⟨pending, result⟩ dst_pos
  generalize same : algorithms.decompress state payload dstLen = got at read
  obtain ⟨le, -, code, next, isPrefix, flushed, progress⟩ := read
  obtain ⟨pending', rest⟩ := isPrefix
  have split : pending = got.output ++ pending' := by
    have both := result.trans rest.symm
    rwa [List.append_assoc, List.append_cancel_left_eq] at both
  have parts : consumed ++ payload.take got.srcProcessed ++ payload.drop got.srcProcessed =
      consumed ++ payload := by
    rw [List.append_assoc, List.take_append_drop]
  refine ⟨got.srcProcessed, got.output, got.state, (zsReadCode got.code).1, pending', le, ?_, split,
    ⟨sameIndex, got.state, emitted ++ got.output, rfl, next, by rwa [parts], by rwa [parts], ?_⟩, ?_⟩
  · simp only [ZpqStream.readCompressedMessage, live, source, same]
    rcases code with ok | ended | more
    · simp [zsReadCode, ok, ZpqStream.taken]
    · simp [zsReadCode, ended, ZpqStream.taken]
    · simp [zsReadCode, more, ZpqStream.taken]
  · intro all calm
    have count : got.srcProcessed = payload.length := by
      have none := congrArg List.length all
      simp only [List.length_drop, List.length_nil] at none
      omega
    have done : got.code ≠ .dataPending := by
      intro more
      rw [more] at calm
      cases calm
    have whole_output := (flushed done count).trans rest.symm
    simpa using whole_output
  · intro none_read none_out
    obtain ⟨empty, done⟩ := progress none_read none_out
    refine ⟨empty, ?_⟩
    rcases code with ok | ended | more
    · rw [ok]
      rfl
    · rw [ended]
      rfl
    · exact absurd more done

theorem readCompressedMessage_goes {messages : List Message}
    (left : zpq.rxMsgBytesLeft = payload.length) (settled : zpq.readingSetCompression = false)
    (decodes : Decodes inverse zpq (some (index, consumed)) payload pending notFlushed)
    (shape : zpq.unread ++ later = payload ++ encodeAll messages)
    (readable : Readable inverse nCompressors (some (index, consumed ++ payload)) messages)
    (whole : payload.length ≤ zpq.unread.length) (something : payload ≠ [] ∨ notFlushed = true)
    (compressed : payload ≠ [] → zpq.isDecompressing = true)
    (room : payload ≠ [] → zpq.pos + payload.length + 1 ≤ bufferSize)
    (roomy : zpq.size + maxDataTrunk ≤ bufferSize ∨
      (zpq.isDecompressing = true ∧ 0 < zpq.rxMsgBytesLeft ∧
        zpq.unread.length ≤ zpq.rxMsgBytesLeft + 1))
    (dstLen : Nat) (dst_pos : 0 < dstLen) :
    ∃ turned next, zpq.readCompressedMessage dstLen = some (turned, next) ∧
      @Goes _ inverse nCompressors zpq later
        (pending ++ deliver inverse (some (index, consumed ++ payload)) messages) turned next := by
  obtain ⟨count, output, state, flag, pending', le, read, split, decodes', progress⟩ :=
    readCompressedMessage_cases left decodes shape whole dstLen dst_pos
  have parts : consumed ++ payload.take count ++ payload.drop count = consumed ++ payload := by
    rw [List.append_assoc, List.take_append_drop]
  have moved : zpq.unread.drop count ++ later = payload.drop count ++ encodeAll messages := by
    have both := congrArg (List.drop count) shape
    rwa [List.drop_append_of_le_length (le.trans whole), List.drop_append_of_le_length le] at both
  refine ⟨_, _, read, ?_, pending' ++ deliver inverse (some (index, consumed ++ payload)) messages,
    ?_, ?_⟩
  · rcases roomy with far | ⟨decompressing, some_left, near⟩
    · refine .inl ?_
      rw [ZpqStream.size] at far
      simp only [ZpqStream.size, ZpqStream.taken, List.length_drop]
      omega
    · refine .inr ⟨decompressing, ?_, ?_⟩
      · simp only [ZpqStream.taken, List.length_drop]
        omega
      · have filled : payload ≠ [] := by
          rintro rfl
          simp [left] at some_left
        have bound := room filled
        simp only [ZpqStream.taken]
        omega
  · by_cases done : payload.drop count = []
    · have taken : payload.take count = payload := by
        have both := List.take_append_drop count payload
        rwa [done, List.append_nil] at both
      have all : count = payload.length := by
        have length := congrArg List.length done
        simp only [List.length_drop, List.length_nil] at length
        omega
      rw [taken, done] at decodes'
      exact .boundary _ _ _ flag (by simp only [ZpqStream.taken]; omega) settled decodes'
        (by rw [ZpqStream.taken, moved, done, List.nil_append]) readable
    · have filled : payload ≠ [] := by
        rintro rfl
        simp at done
      have bound := room filled
      have stands : Stands inverse nCompressors (zpq.taken count state flag)
          (zpq.unread.drop count ++ later) _ := .payload index (consumed ++ payload.take count)
        messages (payload.drop count) pending' flag
        (by simp only [ZpqStream.taken, List.length_drop]; omega) done (compressed filled) settled
        decodes' moved
        (by rwa [parts]) (by simp only [ZpqStream.taken, List.length_drop]; omega)
        (fun _ => by simp only [ZpqStream.taken, List.length_drop]; omega)
      rwa [parts] at stands
  · rw [split, List.append_assoc]
    by_cases none : output = []
    · have less : work (zpq.taken count state flag) < work zpq := by
        have before := decodes_buffered decodes
        by_cases zero : count = 0
        · obtain ⟨empty, calm⟩ := progress zero none
          have pend := something.resolve_left (fun filled => filled empty)
          simp only [work, ZpqStream.taken, zsBuffered_live, before, pend, calm, zero,
            List.drop_zero, Nat.sub_zero]
          simp
        · have upper := (work_bounds (zpq.taken count state flag)).2
          have lower := (work_bounds zpq).1
          simp only [ZpqStream.taken, List.length_drop] at upper
          have positive : 0 < zpq.unread.length := by omega
          refine Nat.lt_of_le_of_lt upper (Nat.lt_of_lt_of_le ?_ lower)
          omega
      exact .inr ⟨by rw [if_pos none], by rw [none, List.nil_append], Nat.le_of_lt less,
        fun _ => less⟩
    · exact .inl ⟨output, none, by rw [if_neg none], rfl⟩

end Read

/-! ### Headers -/

section Header

variable {unread later more body : List UInt8} {msgType : UInt8}

/-- Five bytes of a frame tell its type and its length. -/
theorem header_of_frame (shape : unread ++ later = frame msgType body ++ more)
    (enough : 5 ≤ unread.length) (fits : body.length + 4 < 2 ^ 32) :
    unread.headD 0 = msgType ∧ msgLen unread = body.length + 4 := by
  have cut : unread = (frame msgType body ++ more).take unread.length := by
    rw [← shape, List.take_left]
  constructor
  · cases unread with
    | nil => simp at enough
    | cons first rest =>
        rw [frame, List.cons_append, List.cons_append] at shape
        exact (List.cons.inj shape).1
  · rw [cut, msgLen_take enough, msgLen_frame fits]

theorem size_of_frame (shape : unread ++ later = frame msgType body ++ more)
    (enough : 5 ≤ unread.length) (fits : body.length + 4 < 2 ^ 32)
    (small : body.length + 5 ≠ 2 ^ 32) : msgSize unread = body.length + 5 := by
  rw [msgSize, (header_of_frame shape enough fits).2, Nat.mod_eq_of_lt (by omega)]

/-- Behind the header of a frame comes its body. -/
theorem drop_of_frame (shape : unread ++ later = frame msgType body ++ more)
    (enough : 5 ≤ unread.length) : unread.drop 5 ++ later = body ++ more := by
  have both := congrArg (List.drop 5) shape
  rw [List.drop_append_of_le_length enough, List.drop_append_of_le_length
    (by rw [frame_length]; omega)] at both
  rw [both, frame, List.drop_succ_cons, List.drop_left' (big_length 4 _)]

/-- Behind a whole frame come the others. -/
theorem drop_frame (shape : unread ++ later = frame msgType body ++ more)
    (whole : body.length + 5 ≤ unread.length) :
    unread.drop (body.length + 5) ++ later = more := by
  have both := congrArg (List.drop (body.length + 5)) shape
  rwa [List.drop_append_of_le_length whole, List.drop_left' (frame_length _ _)] at both

end Header

theorem readable_cons {method : Method} {message : Message} {messages : List Message} :
    Readable inverse nCompressors method (message :: messages) ↔
      (WellFormed inverse nCompressors method message ∧ Harmless method message) ∧
        Readable inverse nCompressors (method.after message) messages := Iff.rfl

section Toggle

variable {zpq : ZpqStream algorithms} {later : List UInt8} {method : Method}
  {messages : List Message}

/-- The header of a plain message starts the copying of all of it. -/
theorem toggle_plain {msgType : UInt8} {body : List UInt8} (left : zpq.rxMsgBytesLeft = 0)
    (settled : zpq.readingSetCompression = false)
    (decodes : Decodes inverse zpq method [] [] false)
    (shape : zpq.unread ++ later = frame msgType body ++ encodeAll messages)
    (fits : body.length + 4 < 2 ^ 32) (small : body.length + 5 ≠ 2 ^ 32)
    (formed : ¬ isCompressedMsg msgType ∧ ¬ isSetCompressionMsg msgType ∧
      ¬ isCompressionAck msgType)
    (readable : Readable inverse nCompressors method messages)
    (far : zpq.size + maxDataTrunk ≤ bufferSize) (enough : 5 ≤ zpq.unread.length) :
    ∃ next, zpq.toggleDecompression = some next ∧
      @Goes _ inverse nCompressors zpq later
        (frame msgType body ++ deliver inverse method messages) .again next := by
  obtain ⟨uncompressed, no_switch, no_ack⟩ := formed
  have type := (header_of_frame shape enough fits).1
  have size := size_of_frame shape enough fits small
  refine ⟨{ zpq with isDecompressing := false, rxMsgBytesLeft := body.length + 5 }, ?_, .inl far, _,
    .plain method messages (frame msgType body) (frame_length _ _).symm (by simp [frame]) rfl
      settled (decodes_congr rfl rfl decodes) shape readable, .inr ⟨rfl, rfl, ?_⟩⟩
  · simp only [ZpqStream.toggleDecompression, type, size, no_switch, no_ack, uncompressed,
      Bool.false_eq_true, if_false]
  · have less : work { zpq with
        isDecompressing := false, rxMsgBytesLeft := body.length + 5 } < work zpq := by
      simp [work, left]
    exact ⟨Nat.le_of_lt less, fun _ => less⟩

/-- The stream behind the header of a message, or behind all of it. -/
def ZpqStream.behind (zpq : ZpqStream algorithms) (count : Nat) : ZpqStream algorithms :=
  { zpq with unread := zpq.unread.drop count, pos := zpq.pos + count }

theorem ZpqStream.bufPosAdvance_behind {count : Nat} (enough : count ≤ zpq.unread.length) :
    zpq.bufPosAdvance count = some (zpq.behind count) :=
  if_pos enough

theorem ZpqStream.behind_far {count : Nat} (far : zpq.size + maxDataTrunk ≤ bufferSize)
    (enough : count ≤ zpq.unread.length) :
    (zpq.behind count).size + maxDataTrunk ≤ bufferSize := by
  rw [size] at far
  simp only [behind, size, List.length_drop]
  omega

/-- Once bytes are taken off the buffer there is less to do. -/
theorem work_lt {next : ZpqStream algorithms} {count : Nat} (some_bytes : 0 < count)
    (enough : count ≤ zpq.unread.length) (same : next.unread = zpq.unread.drop count) :
    work next < work zpq := by
  have upper := (work_bounds next).2
  have lower := (work_bounds zpq).1
  rw [same, List.length_drop] at upper
  omega

/-- The header of a compressed message hands its bytes to the decompressor. -/
theorem toggle_compressed {index : Nat} {written payload : List UInt8}
    (settled : zpq.readingSetCompression = false)
    (decodes : Decodes inverse zpq (some (index, written)) [] [] false)
    (shape : zpq.unread ++ later = frame 109 payload ++ encodeAll messages)
    (fits : payload.length + 4 < 2 ^ 32) (small : payload.length + 5 ≠ 2 ^ 32)
    (short : payload.length + 5 ≤ maxDataTrunk) (valid : inverse.Valid index (written ++ payload))
    (readable : Readable inverse nCompressors (some (index, written ++ payload)) messages)
    (far : zpq.size + maxDataTrunk ≤ bufferSize) (enough : 5 ≤ zpq.unread.length) :
    ∃ next, zpq.toggleDecompression = some next ∧
      @Goes _ inverse nCompressors zpq later
        (contents inverse (some (index, written)) (.compressedData payload) ++
          deliver inverse (some (index, written ++ payload)) messages) .again next := by
  obtain ⟨sameIndex, state, emitted, live, holds, -, result, silent⟩ := decodes
  rw [List.append_nil, silent rfl rfl, List.append_nil] at result
  obtain ⟨pending, whole⟩ := inverse.output_grows index written payload
  have contents_eq : contents inverse (some (index, written)) (.compressedData payload) =
      pending := by
    rw [contents, ← whole, List.drop_left]
  have narrow : (payload.length + 5 + (2 ^ 64 - 5)) % 2 ^ 64 = payload.length := by
    rw [maxDataTrunk] at short
    omega
  have type := (header_of_frame shape enough fits).1
  have size := size_of_frame shape enough fits small
  have behind := drop_of_frame shape enough
  let next : ZpqStream algorithms :=
    { zpq.behind 5 with isDecompressing := true, rxMsgBytesLeft := payload.length }
  have decoding : Decodes inverse next (some (index, written)) payload pending false :=
    ⟨sameIndex, state, emitted, live, holds, valid, by rw [result, whole], by
      rintro rfl -
      have none := congrArg List.length whole
      simp only [List.length_append, List.append_nil] at none
      exact List.length_eq_zero_iff.mp (by omega)⟩
  have less : work next < work zpq := work_lt (by decide) enough rfl
  rw [contents_eq]
  refine ⟨next, ?_, .inl (ZpqStream.behind_far far enough),
    pending ++ deliver inverse (some (index, written ++ payload)) messages, ?_,
    .inr ⟨rfl, rfl, Nat.le_of_lt less, fun _ => less⟩⟩
  · have plain_type : isSetCompressionMsg 109 = false ∧ isCompressionAck 109 = false ∧
        isCompressedMsg 109 = true := by decide
    simp only [ZpqStream.toggleDecompression, type, size, plain_type, Bool.false_eq_true,
      if_false, if_true, narrow]
    exact ZpqStream.bufPosAdvance_behind enough
  · by_cases empty : payload = []
    · subst empty
      rw [List.append_nil] at readable ⊢
      exact .boundary _ _ _ _ rfl settled decoding behind readable
    · have room : next.pos + payload.length + 1 ≤ bufferSize := by
        rw [ZpqStream.size] at far
        simp only [next, ZpqStream.behind]
        omega
      exact .payload _ _ _ _ _ _ rfl empty rfl settled decoding behind readable room
        (fun flag => by cases flag)

/-- The header of a change of the method is taken, and the index is waited for. -/
theorem toggle_method {algorithmIdx : UInt8} (left : zpq.rxMsgBytesLeft = 0)
    (decodes : Decodes inverse zpq method [] [] false)
    (shape : zpq.unread ++ later = frame 107 [algorithmIdx] ++ encodeAll messages)
    (known : algorithmIdx.toNat < nCompressors)
    (readable : Readable inverse nCompressors (method.switch algorithmIdx.toNat) messages)
    (far : zpq.size + maxDataTrunk ≤ bufferSize) (enough : 5 ≤ zpq.unread.length) :
    ∃ next, zpq.toggleDecompression = some next ∧
      @Goes _ inverse nCompressors zpq later
        (deliver inverse (method.switch algorithmIdx.toNat) messages) .again next := by
  have type := (header_of_frame shape enough (by simp)).1
  have behind := drop_of_frame shape enough
  let next : ZpqStream algorithms := { zpq.behind 5 with readingSetCompression := true }
  have less : work next < work zpq := work_lt (by decide) enough rfl
  refine ⟨next, ?_, .inl (ZpqStream.behind_far far enough), _, .switching method messages
    algorithmIdx left rfl known (decodes_congr rfl rfl decodes) behind readable,
    .inr ⟨rfl, rfl, Nat.le_of_lt less, fun _ => less⟩⟩
  have switch_type : isSetCompressionMsg 107 = true := by decide
  simp only [ZpqStream.toggleDecompression, type, switch_type, if_true]
  exact ZpqStream.bufPosAdvance_behind enough

/-- An acknowledgement that has arrived is dropped. -/
theorem toggle_ack {body : List UInt8} (left : zpq.rxMsgBytesLeft = 0)
    (settled : zpq.readingSetCompression = false)
    (decodes : Decodes inverse zpq none [] [] false)
    (shape : zpq.unread ++ later = frame 122 body ++ encodeAll messages)
    (fits : body.length + 4 < 2 ^ 32) (small : body.length + 5 ≠ 2 ^ 32)
    (readable : Readable inverse nCompressors none messages)
    (far : zpq.size + maxDataTrunk ≤ bufferSize) (ack : AckWhole zpq)
    (enough : 5 ≤ zpq.unread.length) :
    ∃ next, zpq.toggleDecompression = some next ∧
      @Goes _ inverse nCompressors zpq later (deliver inverse none messages) .again next := by
  obtain ⟨null, index, -, -, -⟩ := decodes
  obtain ⟨type, length⟩ := header_of_frame shape enough fits
  have size := size_of_frame shape enough fits small
  have ack_type : isSetCompressionMsg 122 = false ∧ isCompressionAck 122 = true := by decide
  have whole : body.length + 5 ≤ zpq.unread.length := by
    have arrived := ack left settled (by rw [null]; rfl) enough (by rw [type]; exact ack_type.2)
    rwa [length] at arrived
  let next : ZpqStream algorithms := { zpq.behind (body.length + 5) with decompressAlgIdx := -1 }
  have less : work next < work zpq := work_lt (Nat.succ_pos _) whole rfl
  refine ⟨next, ?_, .inl (ZpqStream.behind_far far whole), _, .boundary none messages [] false left
    settled ⟨null, rfl, rfl, rfl, rfl⟩ (drop_frame shape whole) readable,
    .inr ⟨rfl, rfl, Nat.le_of_lt less, fun _ => less⟩⟩
  simp only [ZpqStream.toggleDecompression, type, size, ack_type, Bool.false_eq_true, if_false,
    if_true, ZpqStream.restart, null, zsDecompressorFree, bind, Option.bind, pure]
  rw [ZpqStream.bufPosAdvance, if_pos whole]
  simp only [next, ZpqStream.behind, null]

/-- A turn at a message boundary handles the header of the next message. -/
theorem toggle_goes (left : zpq.rxMsgBytesLeft = 0)
    (settled : zpq.readingSetCompression = false)
    (decodes : Decodes inverse zpq method [] [] false)
    (shape : zpq.unread ++ later = encodeAll messages)
    (readable : Readable inverse nCompressors method messages)
    (far : zpq.size + maxDataTrunk ≤ bufferSize) (ack : AckWhole zpq)
    (enough : 5 ≤ zpq.unread.length) :
    ∃ next, zpq.toggleDecompression = some next ∧
      @Goes _ inverse nCompressors zpq later (deliver inverse method messages) .again next := by
  cases messages with
  | nil =>
      have none := congrArg List.length shape
      simp only [encodeAll, List.flatMap_nil, List.length_append, List.length_nil] at none
      omega
  | cons message messages =>
      rw [encodeAll_cons, Message.encode] at shape
      obtain ⟨⟨⟨fits, formed⟩, small, harmless⟩, readable⟩ := readable_cons.mp readable
      cases message with
      | plain msgType body =>
          exact toggle_plain left settled decodes shape fits small formed readable far enough
      | compressedData payload =>
          obtain ⟨short, index, written, rfl, valid⟩ := formed
          exact toggle_compressed settled decodes shape fits small short valid readable far enough
      | setCompressionMethod algorithmIdx =>
          exact toggle_method left decodes shape formed readable far enough
      | compressionAck body =>
          change method = none at harmless
          subst harmless
          have goes := toggle_ack left settled decodes shape fits small readable far ack enough
          exact goes

end Toggle

/-- A turn that waits for the index of a new method. -/
theorem switch_goes {zpq : ZpqStream algorithms} {later : List UInt8} {method : Method}
    {messages : List Message} {algorithmIdx : UInt8} (left : zpq.rxMsgBytesLeft = 0)
    (switching : zpq.readingSetCompression = true) (known : algorithmIdx.toNat < nCompressors)
    (decodes : Decodes inverse zpq method [] [] false)
    (shape : zpq.unread ++ later = algorithmIdx :: encodeAll messages)
    (readable : Readable inverse nCompressors (method.switch algorithmIdx.toNat) messages)
    (far : zpq.size + maxDataTrunk ≤ bufferSize) :
    ∃ next, zpq.processSwitch nCompressors = some next ∧
      @Goes _ inverse nCompressors zpq later
        (deliver inverse (method.switch algorithmIdx.toNat) messages) .again next := by
  have calm := decodes_buffered decodes
  cases unread : zpq.unread with
  | nil =>
      refine ⟨zpq, by simp only [ZpqStream.processSwitch, unread], .inl far, _,
        .switching method messages algorithmIdx left switching known decodes shape readable,
        .inr ⟨rfl, rfl, le_refl _, ?_⟩⟩
      intro supplied
      have enough := supplied.1 false calm
      simp [ZpqStream.bufferedRx, unread] at enough
  | cons first rest =>
      rw [unread, List.cons_append] at shape
      obtain ⟨rfl, behind⟩ := List.cons.inj shape
      rw [ZpqStream.size, unread, List.length_cons] at far
      have lower := (work_bounds zpq).1
      rw [unread, List.length_cons] at lower
      have smaller : ∀ next : ZpqStream algorithms, next.unread = rest → work next < work zpq := by
        intro next same
        have upper := (work_bounds next).2
        rw [same] at upper
        omega
      let next : ZpqStream algorithms := { zpq with
        dStream := .live (algorithms.create first.toNat) false
        unread := rest
        pos := zpq.pos + 1
        decompressAlgIdx := first.toNat
        readingSetCompression := false }
      have fresh : Decodes inverse next (some (first.toNat, [])) [] [] false :=
        ⟨rfl, _, [], rfl, inverse.holds_create _, inverse.valid_nil _,
          by rw [List.append_nil, inverse.output_nil], fun _ _ => rfl⟩
      by_cases same : (first.toNat : Int) = zpq.decompressAlgIdx
      · cases method with
        | none =>
            obtain ⟨-, index, -⟩ := decodes
            omega
        | some method =>
            obtain ⟨index, consumed⟩ := method
            have equal : index = first.toNat := by
              obtain ⟨index_eq, -⟩ := decodes
              omega
            have stays : Method.switch (some (index, consumed)) first.toNat =
                some (index, consumed) := by
              simp [Method.switch, equal]
            rw [stays] at readable ⊢
            refine ⟨{ zpq with unread := rest, pos := zpq.pos + 1, readingSetCompression := false },
              ?_, .inl ?_, _, .boundary (some (index, consumed)) messages [] false left rfl
                (decodes_congr rfl rfl decodes) behind readable, .inr ⟨rfl, rfl, ?_, ?_⟩⟩
            · simp only [ZpqStream.processSwitch, unread, same, ne_eq, not_true_eq_false, if_false]
            · simp only [ZpqStream.size]
              omega
            · exact Nat.le_of_lt (smaller _ rfl)
            · exact fun _ => smaller _ rfl
      · have created : method.switch first.toNat = some (first.toNat, []) := by
          cases method with
          | none => rfl
          | some method =>
              obtain ⟨index, consumed⟩ := method
              have other : ¬ index = first.toNat := by
                obtain ⟨index_eq, -⟩ := decodes
                omega
              simp [Method.switch, other]
        obtain ⟨dangling, free⟩ : ∃ dangling, zsDecompressorFree zpq.dStream = some dangling := by
          cases dStream : zpq.dStream with
          | null => exact ⟨_, rfl⟩
          | live state notFlushed => exact ⟨_, rfl⟩
          | freed =>
              rw [dStream] at calm
              cases calm
        rw [created] at readable ⊢
        refine ⟨next, ?_, .inl ?_, _, .boundary (some (first.toNat, [])) messages [] false left rfl
          fresh behind readable, .inr ⟨rfl, rfl, ?_, ?_⟩⟩
        · simp only [ZpqStream.processSwitch, unread, ne_eq, same, not_false_eq_true, if_true, free,
            known, bind, Option.bind, pure]
          rfl
        · simp only [next, ZpqStream.size]
          omega
        · exact Nat.le_of_lt (smaller _ rfl)
        · exact fun _ => smaller _ rfl

/-- Reading ahead joins plain messages that have begun to arrive. -/
theorem readAhead_plain {unread later : List UInt8} {method : Method} (turns : Nat)
    {messages : List Message} {rest : List UInt8} (some_left : rest ≠ [])
    (shape : unread ++ later = rest ++ encodeAll messages)
    (readable : Readable inverse nCompressors method messages)
    (enough : unread.length ≤ turns + rest.length) :
    ∃ rest' messages', ZpqStream.readAhead unread turns rest.length = some rest'.length ∧
      rest' ≠ [] ∧ unread ++ later = rest' ++ encodeAll messages' ∧
      Readable inverse nCompressors method messages' ∧
      rest ++ deliver inverse method messages = rest' ++ deliver inverse method messages' := by
  induction turns generalizing messages rest with
  | zero =>
      refine ⟨rest, messages, ?_, some_left, shape, readable, rfl⟩
      unfold ZpqStream.readAhead
      rw [if_neg]
      rintro ⟨-, more, -⟩
      omega
  | succ turns ih =>
      by_cases ahead : rest.length + 5 ≤ unread.length
      · have behind : unread.drop rest.length ++ later = encodeAll messages := by
          have both := congrArg (List.drop rest.length) shape
          rwa [List.drop_append_of_le_length (by omega), List.drop_left] at both
        have header : 5 ≤ (unread.drop rest.length).length := by
          rw [List.length_drop]
          omega
        cases messages with
        | nil =>
            have none := congrArg List.length behind
            simp only [encodeAll, List.flatMap_nil, List.length_append, List.length_nil] at none
            omega
        | cons message messages =>
            rw [encodeAll_cons, Message.encode] at behind
            obtain ⟨⟨⟨fits, formed⟩, small, -⟩, after⟩ := readable_cons.mp readable
            obtain ⟨type, -⟩ := header_of_frame behind header fits
            have size := size_of_frame behind header fits small
            have first : (unread.drop rest.length).head? = some message.msgType := by
              cases first : unread.drop rest.length with
              | nil => simp [first] at header
              | cons byte bytes =>
                  rw [first] at type
                  exact congrArg some type
            have positive : 0 < rest.length := List.length_pos_iff.mpr some_left
            cases message with
            | plain msgType body =>
                obtain ⟨uncompressed, no_switch, no_ack⟩ := formed
                have longer : rest.length + (body.length + 5) =
                    (rest ++ frame msgType body).length := by
                  rw [List.length_append, frame_length]
                obtain ⟨rest', messages', read, filled, shape', readable', same⟩ :=
                  @ih messages (rest ++ frame msgType body) (by simp [some_left])
                    (by rw [shape, encodeAll_cons, List.append_assoc]; rfl) after
                    (by rw [← longer]; omega)
                refine ⟨rest', messages', ?_, filled, shape', readable', ?_⟩
                · rw [← read, ← longer]
                  conv_lhs => unfold ZpqStream.readAhead
                  simp only [first, size, Message.msgType, Message.body, Option.any_some,
                    uncompressed, no_switch, no_ack, positive, ahead, Bool.or_self, and_self,
                    not_false_eq_true, if_true, Bool.false_eq_true]
                · rw [← same, deliver, List.append_assoc]
                  rfl
            | compressedData payload =>
                refine ⟨rest, _, ?_, some_left, shape, readable, rfl⟩
                unfold ZpqStream.readAhead
                simp [first, Message.msgType, isCompressedMsg]
            | setCompressionMethod algorithmIdx =>
                refine ⟨rest, _, ?_, some_left, shape, readable, rfl⟩
                unfold ZpqStream.readAhead
                simp [first, Message.msgType, isSetCompressionMsg]
            | compressionAck body =>
                refine ⟨rest, _, ?_, some_left, shape, readable, rfl⟩
                unfold ZpqStream.readAhead
                simp [first, Message.msgType, isCompressionAck]
      · refine ⟨rest, messages, ?_, some_left, shape, readable, rfl⟩
        unfold ZpqStream.readAhead
        rw [if_neg]
        rintro ⟨-, more, -⟩
        omega

/-- Copying plain bytes hands out the next of them. -/
theorem readUncompressed_goes {zpq : ZpqStream algorithms} {later : List UInt8} {method : Method}
    {messages : List Message} {rest : List UInt8} (left : zpq.rxMsgBytesLeft = rest.length)
    (some_left : rest ≠ []) (uncompressed : zpq.isDecompressing = false)
    (settled : zpq.readingSetCompression = false) (decodes : Decodes inverse zpq method [] [] false)
    (shape : zpq.unread ++ later = rest ++ encodeAll messages)
    (readable : Readable inverse nCompressors method messages)
    (far : zpq.size + maxDataTrunk ≤ bufferSize) {dstLen : Nat} (dst_pos : 0 < dstLen) :
    @Goes _ inverse nCompressors zpq later (rest ++ deliver inverse method messages)
      (zpq.readUncompressed dstLen).1 (zpq.readUncompressed dstLen).2 := by
  have positive := List.length_pos_iff.mpr some_left
  rw [ZpqStream.readUncompressed]
  generalize copied : min zpq.rxMsgBytesLeft (min zpq.unread.length dstLen) = copyLen
  have available : copyLen ≤ zpq.unread.length := by omega
  have inside : copyLen ≤ rest.length := by omega
  have taken : zpq.unread.take copyLen = rest.take copyLen := by
    have both := congrArg (List.take copyLen) shape
    rwa [List.take_append_of_le_length available, List.take_append_of_le_length inside] at both
  have moved : zpq.unread.drop copyLen ++ later = rest.drop copyLen ++ encodeAll messages := by
    have both := congrArg (List.drop copyLen) shape
    rwa [List.drop_append_of_le_length available, List.drop_append_of_le_length inside] at both
  refine ⟨.inl ?_, rest.drop copyLen ++ deliver inverse method messages, ?_, ?_⟩
  · rw [ZpqStream.size] at far
    simp only [ZpqStream.size, List.length_drop]
    omega
  · by_cases done : rest.drop copyLen = []
    · rw [done, List.nil_append]
      have all : rest.length ≤ copyLen := List.drop_eq_nil_iff.mp done
      exact .boundary method messages [] false (by simp only; omega) settled
        (decodes_congr rfl rfl decodes) (by simp only [moved, done, List.nil_append]) readable
    · exact .plain method messages (rest.drop copyLen) (by simp only [List.length_drop]; omega) done
        uncompressed settled (decodes_congr rfl rfl decodes) moved readable
  · by_cases none : copyLen = 0
    · have empty : zpq.unread.length = 0 := by omega
      refine .inr ⟨by rw [if_pos none], by rw [none, List.drop_zero], ?_, ?_⟩
      · simp only [work, none, List.drop_zero, Nat.sub_zero]
        exact le_refl _
      · intro supplied
        have enough := supplied.1 false (decodes_buffered decodes)
        simp [ZpqStream.bufferedRx, empty] at enough
    · refine .inl ⟨zpq.unread.take copyLen, ?_, by rw [if_neg none], ?_⟩
      · rw [Ne, List.take_eq_nil_iff]
        rintro (zero | empty)
        · exact none zero
        · simp [empty] at available
          omega
      · rw [taken, ← List.append_assoc, List.take_append_drop]

section Process

variable {zpq : ZpqStream algorithms} {later : List UInt8} {dstSize : Nat}

/-- Nothing is looked ahead for when no message is being read. -/
theorem process_idle (none : zpq.rxMsgBytesLeft = 0) :
    zpq.process nCompressors dstSize = zpq.handle nCompressors dstSize := by
  have same : zpq.lookAhead = some zpq.rxMsgBytesLeft := by
    rw [ZpqStream.lookAhead, none, readAhead_zero, ite_self]
  rw [ZpqStream.process, same]

/-- At a message boundary what is pending comes first, and then the next header. -/
theorem process_boundary {method : Method} {messages : List Message} {pending : List UInt8}
    {notFlushed : Bool} (left : zpq.rxMsgBytesLeft = 0)
    (settled : zpq.readingSetCompression = false)
    (decodes : Decodes inverse zpq method [] pending notFlushed)
    (shape : zpq.unread ++ later = encodeAll messages)
    (readable : Readable inverse nCompressors method messages)
    (far : zpq.size + maxDataTrunk ≤ bufferSize) (ack : AckWhole zpq) (dst_pos : 0 < dstSize) :
    ∃ turned next, zpq.process nCompressors dstSize = some (turned, next) ∧
      @Goes _ inverse nCompressors zpq later (pending ++ deliver inverse method messages) turned
        next := by
  have flag := decodes_buffered decodes
  rw [process_idle left, ZpqStream.handle]
  cases notFlushed with
  | true =>
      obtain ⟨index, consumed, rfl⟩ : ∃ index consumed, method = some (index, consumed) := by
        cases method with
        | none => simp [Decodes] at decodes
        | some method => exact ⟨method.1, method.2, rfl⟩
      simp only [flag, Bool.or_true, if_true, Bool.not_true, Bool.false_and, Bool.false_eq_true,
        if_false]
      have goes := readCompressedMessage_goes left settled decodes shape
        (by rwa [List.append_nil]) (Nat.zero_le _) (.inr rfl) (fun filled => absurd rfl filled)
        (fun filled => absurd rfl filled) (.inl far) dstSize dst_pos
      rwa [List.append_nil] at goes
  | false =>
      have silent : pending = [] := by
        cases method with
        | none => exact decodes.2.2.2.1
        | some method =>
            obtain ⟨-, _, _, -, -, -, -, silent⟩ := decodes
            exact silent rfl rfl
      subst silent
      rw [List.nil_append]
      simp only [flag, left, Nat.lt_irrefl, decide_false, Bool.or_self, Bool.false_eq_true,
        if_false, settled]
      by_cases enough : 5 ≤ zpq.unread.length
      · obtain ⟨next, toggled, goes⟩ :=
          toggle_goes left settled decodes shape readable far ack enough
        rw [if_pos enough]
        exact ⟨.again, next, by rw [toggled, Option.map_some], goes⟩
      · rw [if_neg enough]
        refine ⟨.again, zpq, rfl, .inl far, _, .boundary method messages [] false left settled
          decodes shape readable, .inr ⟨rfl, rfl, le_refl _, ?_⟩⟩
        intro supplied
        have filled := supplied.1 false (decodes_buffered decodes)
        simp [ZpqStream.bufferedRx, enough, left] at filled

/-- Inside a plain message the plain messages behind it that have begun are joined to it. -/
theorem process_plain {method : Method} {messages : List Message} {rest : List UInt8}
    (left : zpq.rxMsgBytesLeft = rest.length) (some_left : rest ≠ [])
    (uncompressed : zpq.isDecompressing = false) (settled : zpq.readingSetCompression = false)
    (decodes : Decodes inverse zpq method [] [] false)
    (shape : zpq.unread ++ later = rest ++ encodeAll messages)
    (readable : Readable inverse nCompressors method messages)
    (far : zpq.size + maxDataTrunk ≤ bufferSize) (dst_pos : 0 < dstSize) :
    ∃ turned next, zpq.process nCompressors dstSize = some (turned, next) ∧
      @Goes _ inverse nCompressors zpq later (rest ++ deliver inverse method messages) turned
        next := by
  obtain ⟨rest', messages', ahead, filled, shape', readable', same⟩ :=
    readAhead_plain zpq.unread.length some_left shape readable (Nat.le_add_right _ _)
  have looked : zpq.lookAhead = some rest'.length := by
    rw [ZpqStream.lookAhead, uncompressed, left]
    exact ahead
  have positive := List.length_pos_iff.mpr filled
  let ahead : ZpqStream algorithms := { zpq with rxMsgBytesLeft := rest'.length }
  have decoding : Decodes inverse ahead method [] [] false := decodes_congr rfl rfl decodes
  obtain ⟨roomy', rest'', stands', outcome⟩ :=
    @readUncompressed_goes _ _ _ ahead _ _ _ _ rfl filled uncompressed settled decoding shape'
      readable' far _ dst_pos
  have handled : zpq.process nCompressors dstSize = some
      ({ zpq with rxMsgBytesLeft := rest'.length }.readUncompressed dstSize) := by
    simp only [ZpqStream.process, looked, ZpqStream.handle, decodes_buffered decodes, positive,
      decide_true, Bool.or_false, if_true, uncompressed, Bool.false_eq_true, if_false]
  rw [handled, same]
  refine ⟨_, _, rfl, roomy', rest'', stands', ?_⟩
  have some_bytes : ¬ zpq.rxMsgBytesLeft = 0 := by
    have before := List.length_pos_iff.mpr some_left
    omega
  have still : ¬ ahead.rxMsgBytesLeft = 0 := by
    simp only [ahead]
    omega
  have equal : work ahead = work zpq := by
    rw [work, work, if_neg some_bytes, if_neg still]
  rcases outcome with data | ⟨again, rest_eq, le, less⟩
  · exact .inl data
  · rw [equal] at le less
    refine .inr ⟨again, rest_eq, le, fun supplied => less ⟨fun notFlushed flag => ?_, ?_⟩⟩
    · have enough := supplied.1 notFlushed flag
      simp only [ZpqStream.bufferedRx, Nat.pos_of_ne_zero some_bytes,
        Nat.pos_of_ne_zero still] at enough ⊢
      exact enough
    · rintro ⟨compressed, -⟩
      simp [ahead, uncompressed] at compressed

/-- Inside a compressed message the decompressor goes on once all of it has arrived. -/
theorem process_payload {index : Nat} {consumed : List UInt8} {messages : List Message}
    {payload pending : List UInt8} {notFlushed : Bool}
    (left : zpq.rxMsgBytesLeft = payload.length) (some_left : payload ≠ [])
    (compressed : zpq.isDecompressing = true) (settled : zpq.readingSetCompression = false)
    (decodes : Decodes inverse zpq (some (index, consumed)) payload pending notFlushed)
    (shape : zpq.unread ++ later = payload ++ encodeAll messages)
    (readable : Readable inverse nCompressors (some (index, consumed ++ payload)) messages)
    (room : zpq.pos + payload.length + 1 ≤ bufferSize)
    (whole : notFlushed = true → payload.length ≤ zpq.unread.length)
    (roomy : zpq.size + maxDataTrunk ≤ bufferSize ∨
      (zpq.isDecompressing = true ∧ 0 < zpq.rxMsgBytesLeft ∧
        zpq.unread.length ≤ zpq.rxMsgBytesLeft + 1)) (dst_pos : 0 < dstSize) :
    ∃ turned next, zpq.process nCompressors dstSize = some (turned, next) ∧
      @Goes _ inverse nCompressors zpq later
        (pending ++ deliver inverse (some (index, consumed ++ payload)) messages) turned next := by
  have positive := List.length_pos_iff.mpr some_left
  have looked : zpq.lookAhead = some zpq.rxMsgBytesLeft := by
    rw [ZpqStream.lookAhead, if_pos compressed]
  have some_bytes : 0 < zpq.rxMsgBytesLeft := by omega
  have handled : zpq.process nCompressors dstSize = zpq.handle nCompressors dstSize := by
    rw [ZpqStream.process, looked]
  rw [handled, ZpqStream.handle]
  simp only [decodes_buffered decodes, some_bytes, decide_true, Bool.true_or, if_true,
    compressed]
  by_cases wait : (!notFlushed && decide (zpq.unread.length < zpq.rxMsgBytesLeft)) = true
  · rw [if_pos wait]
    rw [Bool.and_eq_true, decide_eq_true_eq] at wait
    refine ⟨.again, zpq, rfl, ?_, _, .payload index consumed messages payload pending notFlushed
      left some_left compressed settled decodes shape readable room whole,
      .inr ⟨rfl, rfl, le_refl _, fun supplied => absurd ⟨compressed, wait.2⟩ supplied.2⟩⟩
    rcases roomy with far | ⟨-, -, near⟩
    · exact .inl far
    · exact .inr ⟨compressed, near, by omega⟩
  · rw [if_neg wait]
    have arrived : payload.length ≤ zpq.unread.length := by
      cases notFlushed with
      | true => exact whole rfl
      | false =>
          simp at wait
          omega
    exact readCompressedMessage_goes left settled decodes shape readable arrived (.inl some_left)
      (fun _ => compressed) (fun _ => room) roomy dstSize dst_pos

/-- What is in the buffer is handled as the messages say. -/
theorem process_goes {rest : List UInt8}
    (stands : Stands inverse nCompressors zpq (zpq.unread ++ later) rest)
    (roomy : zpq.size + maxDataTrunk ≤ bufferSize ∨
      (zpq.isDecompressing = true ∧ 0 < zpq.rxMsgBytesLeft ∧
        zpq.unread.length ≤ zpq.rxMsgBytesLeft + 1))
    (ack : AckWhole zpq) (dst_pos : 0 < dstSize) :
    ∃ turned next, zpq.process nCompressors dstSize = some (turned, next) ∧
      @Goes _ inverse nCompressors zpq later rest turned next := by
  -- only inside a compressed message may the buffer be near its end
  have far (outside : zpq.rxMsgBytesLeft = 0 ∨ zpq.isDecompressing = false) :
      zpq.size + maxDataTrunk ≤ bufferSize := by
    rcases roomy with far | ⟨compressed, some_left, -⟩
    · exact far
    · rcases outside with none | uncompressed
      · omega
      · rw [uncompressed] at compressed
        cases compressed
  cases stands with
  | boundary method messages pending notFlushed left settled decodes shape readable =>
      exact process_boundary left settled decodes shape readable (far (.inl left)) ack dst_pos
  | plain method messages rest left some_left uncompressed settled decodes shape readable =>
      exact process_plain left some_left uncompressed settled decodes shape readable
        (far (.inr uncompressed)) dst_pos
  | payload index consumed messages payload pending notFlushed left some_left compressed settled
      decodes shape readable room whole =>
      exact process_payload left some_left compressed settled decodes shape readable room whole
        roomy dst_pos
  | switching method messages algorithmIdx left switching known decodes shape readable =>
      rw [process_idle left, ZpqStream.handle]
      simp only [decodes_buffered decodes, left, Nat.lt_irrefl, decide_false, Bool.or_self,
        Bool.false_eq_true, if_false, switching, if_true]
      obtain ⟨next, switched, goes⟩ :=
        switch_goes left switching known decodes shape readable (far (.inl left))
      exact ⟨.again, next, by rw [switched, Option.map_some], goes⟩

end Process

end RedshiftOdbc.Zpq

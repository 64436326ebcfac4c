import Mathlib.Logic.Function.Basic
import RedshiftOdbc.Zpq.Messages

/-!
# The sending side

`zpq_write` copies what it is given into one buffer, takes it from there message
by message, compressed or as it is, into a second one, and sends what that holds.
A compressor that never gets on makes its loops run for ever, which is `none`
here, as is the use of a compressor that is absent.
-/

namespace RedshiftOdbc.Zpq

open RedshiftOdbc.Words

/-! ## Buffers -/

/-- A `ZpqBuffer`, kept as its unread bytes and their position. -/
structure ZpqBuffer where
  unread : List UInt8
  pos : Nat
  deriving DecidableEq, Repr

namespace ZpqBuffer

def init : ZpqBuffer := ⟨[], 0⟩

def size (zb : ZpqBuffer) : Nat := zb.pos + zb.unread.length

def left (zb : ZpqBuffer) : Nat := bufferSize - zb.size

/-- Bytes are copied behind the buffer's own, which `zpq_buf_size_advance` counts. -/
def sizeAdvance (zb : ZpqBuffer) (bytes : List UInt8) : ZpqBuffer :=
  { zb with unread := zb.unread ++ bytes }

def posAdvance (zb : ZpqBuffer) (value : Nat) : ZpqBuffer :=
  ⟨zb.unread.drop value, zb.pos + value⟩

def reuse (zb : ZpqBuffer) : ZpqBuffer :=
  if 5 < zb.unread.length then zb else { zb with pos := 0 }

end ZpqBuffer

/-! ## Compressors -/

/-- The return codes of a compression function. -/
inductive CompressCode where
  | ok
  | dataPending
  | compressError
  deriving DecidableEq, Repr

def zsCompressError : Int := -3

def zpqIncompleteHeader : Int := -6

def zpqCompressThreshold : Nat := 60

/-- What a compression function hands back. -/
structure Compressed (State : Type) where
  state : State
  srcProcessed : Nat
  output : List UInt8
  code : CompressCode

/-- The compressors of the compressors array, by their index. -/
structure TxAlgorithms where
  State : Type
  create : Nat → State
  compress : State → List UInt8 → Nat → Compressed State

/-- `zs_write` on a live stream: the new `not_flushed` flag and the return code. -/
def zsWriteCode : CompressCode → Bool × Int
  | .ok => (false, 0)
  | .dataPending => (true, 0)
  | .compressError => (false, zsCompressError)

/-- `zpq_build_msg_compression_map`: the types `d`, `D` and `Q` get the first compressor. -/
def zpqBuildMsgCompressionMap (nCompressors : Nat) : UInt8 → Int :=
  (List.range nCompressors).foldl
    (fun map (i : Nat) => [100, 68, 81].foldl
      (fun map msgType => if map msgType = -1 then Function.update map msgType (i : Int) else map)
      map)
    fun _ => -1

/-- `zpq_should_compress`, with which reading ahead compares. -/
def zpqShouldCompress (_msgType : UInt8) (_msgLen : Nat) : Bool := false

variable (algorithms : TxAlgorithms)

/-- The sending side of a `ZpqStream`; `cStream` is the compressor with its `not_flushed` flag. -/
structure ZpqSender where
  cStream : Option (algorithms.State × Bool)
  isCompressing : Bool
  txMsgBytesLeft : Nat
  txIn : ZpqBuffer
  txOut : ZpqBuffer
  compressAlgIdx : Int
  compressorByMsgType : UInt8 → Int

variable {algorithms}

namespace ZpqSender

def create (algorithms : TxAlgorithms) (nCompressors : Nat) : ZpqSender algorithms where
  cStream := none
  isCompressing := false
  txMsgBytesLeft := 0
  txIn := .init
  txOut := .init
  compressAlgIdx := -1
  compressorByMsgType := zpqBuildMsgCompressionMap nCompressors

/-- `zs_buffered` of the compressor. -/
def csBuffered (zpq : ZpqSender algorithms) : Bool :=
  match zpq.cStream with
  | none => false
  | some (_, notFlushed) => notFlushed

def chooseCompressor (zpq : ZpqSender algorithms) (msgType : UInt8) (msgLen : Nat) : Int :=
  if zpqCompressThreshold ≤ msgLen then zpq.compressorByMsgType msgType else -1

/-- `zpq_write_compressed_message`: the return code and the bytes taken. -/
def writeCompressedMessage (zpq : ZpqSender algorithms) (src : List UInt8) :
    Option (Int × Nat × ZpqSender algorithms) :=
  if zpq.txOut.left ≤ 5 then some (0, 0, zpq)
  else
    match zpq.cStream with
    | none => none
    | some (state, _) =>
        let written := algorithms.compress state src (zpq.txOut.left - 5)
        let (notFlushed, rc) := zsWriteCode written.code
        some (rc, written.srcProcessed, { zpq with
          cStream := some (written.state, notFlushed)
          txOut := if written.output = [] then zpq.txOut
            else zpq.txOut.sizeAdvance (frame 109 written.output) })

def writeUncompressed (zpq : ZpqSender algorithms) (src : List UInt8) :
    Nat × ZpqSender algorithms :=
  let srcSize := min zpq.txOut.left src.length
  (srcSize, { zpq with txOut := zpq.txOut.sizeAdvance (src.take srcSize) })

/-- `zpq_write_set_compression_msg`; without room for the message it is `none`. -/
def writeSetCompressionMsg (zpq : ZpqSender algorithms) (newCompressIdx : Int) :
    Option (ZpqSender algorithms) :=
  if zpq.txOut.left < 6 then none
  else some { zpq with
    txOut := zpq.txOut.sizeAdvance (frame 107 [UInt8.ofNat newCompressIdx.toNat]) }

def toggleCompression (zpq : ZpqSender algorithms) (msgType : UInt8) (msgLen : Nat) :
    ZpqSender algorithms :=
  let newCompressIdx := zpq.chooseCompressor msgType msgLen
  let next (zpq : ZpqSender algorithms) : ZpqSender algorithms := { zpq with
    isCompressing := newCompressIdx ≠ -1
    txMsgBytesLeft := (msgLen + 1) % 2 ^ 32 }
  if newCompressIdx ≠ -1 ∧ zpq.compressAlgIdx ≠ newCompressIdx then
    match zpq.writeSetCompressionMsg newCompressIdx with
    | none => zpq
    | some zpq => next { zpq with
        cStream := some (algorithms.create newCompressIdx.toNat, false)
        compressAlgIdx := newCompressIdx }
  else next zpq

/-- The loop of `zpq_write_internal` that reads ahead; a loop that does not end is `none`. -/
def readAhead (zpq : ZpqSender algorithms) (src : List UInt8) : Nat → Nat → Option Nat
  | turns, txMsgBytesLeft =>
      let header := src.drop txMsgBytesLeft
      if 0 < txMsgBytesLeft ∧ txMsgBytesLeft + 5 ≤ src.length ∧
          zpqShouldCompress (header.headD 0) (msgLen header) = zpq.isCompressing then
        match turns with
        | 0 => none
        | turns + 1 => readAhead zpq src turns (txMsgBytesLeft + msgSize header)
      else some txMsgBytesLeft

/-- The rest of a turn of `zpq_write_internal` behind the reading ahead: the code it returns with,
if it does, and the bytes taken. -/
def handle (zpq : ZpqSender algorithms) (src : List UInt8) :
    Option (Option Int × Nat × ZpqSender algorithms) :=
  if zpq.csBuffered || (zpq.isCompressing && 0 < zpq.txMsgBytesLeft) then
    match zpq.writeCompressedMessage (src.take (min zpq.txMsgBytesLeft src.length)) with
    | none => none
    | some (rc, bufProcessed, next) =>
        some (if rc = 0 then none else some rc, bufProcessed,
          { next with txMsgBytesLeft := zpq.txMsgBytesLeft - bufProcessed })
  else if 0 < zpq.txMsgBytesLeft then
    let (copyProcessed, next) :=
      zpq.writeUncompressed (src.take (min src.length zpq.txMsgBytesLeft))
    some (none, copyProcessed, { next with txMsgBytesLeft := zpq.txMsgBytesLeft - copyProcessed })
  else if src.length < 5 then some (some zpqIncompleteHeader, 0, zpq)
  else some (none, 0, zpq.toggleCompression (src.headD 0) (msgLen src))

/-- A turn of `zpq_write_internal`. -/
def writeTurn (zpq : ZpqSender algorithms) (src : List UInt8) :
    Option (Option Int × Nat × ZpqSender algorithms) :=
  match zpq.readAhead src src.length zpq.txMsgBytesLeft with
  | none => none
  | some txMsgBytesLeft => { zpq with txMsgBytesLeft := txMsgBytesLeft }.handle src

/-- The loop of `zpq_write_internal`: what it returns and what it stores in `*processed`. -/
def writeLoop : Nat → ZpqSender algorithms → List UInt8 → Nat →
    Option (Int × Nat × ZpqSender algorithms)
  | 0, _, _, _ => none
  | turns + 1, zpq, src, srcPos =>
      match zpq.writeTurn src with
      | none => none
      | some (some rc, taken, zpq) => some (rc, srcPos + taken, zpq)
      | some (none, taken, zpq) =>
          if taken < src.length ∧ 6 < zpq.txOut.left then
            writeLoop turns zpq (src.drop taken) (srcPos + taken)
          else some (((srcPos + taken : Nat) : Int), 0, zpq)

/-- `zpq_write_internal`; the turns suffice for a compressor that gets on. -/
def writeInternal (zpq : ZpqSender algorithms) (src : List UInt8) :
    Option (Int × Nat × ZpqSender algorithms) :=
  writeLoop (4 * src.length + 4 * zpq.txOut.left + 4) zpq src 0

/-- A turn of the first loop of `zpq_write`: the bytes copied and, if it ends the loop, what is
returned at once, if anything is. -/
def fillTurn (zpq : ZpqSender algorithms) (src : List UInt8) :
    Option (Option (Option Int) × Nat × ZpqSender algorithms) :=
  let copyLen := min zpq.txIn.left src.length
  let zpq := { zpq with txIn := zpq.txIn.sizeAdvance (src.take copyLen) }
  if zpq.txIn.unread = [] ∧ zpq.csBuffered = false then some (some none, copyLen, zpq)
  else
    match zpq.writeInternal zpq.txIn.unread with
    | none => none
    | some (rc, processed, next) =>
        if 0 < rc then
          some (none, copyLen, { next with txIn := (next.txIn.posAdvance rc.toNat).reuse })
        else
          some (some (if rc = zpqIncompleteHeader then none else some rc), copyLen,
            { next with txIn := (next.txIn.posAdvance processed).reuse })

/-- The first loop of `zpq_write`: what it returns at once, if it does, and `src_pos`. -/
def fillLoop : Nat → ZpqSender algorithms → List UInt8 → Nat →
    Option (Option Int × Nat × ZpqSender algorithms)
  | turns, zpq, src, srcPos =>
      if 6 < zpq.txOut.left then
        match turns with
        | 0 => none
        | turns + 1 =>
            match zpq.fillTurn src with
            | none => none
            | some (some returned, copyLen, next) => some (returned, srcPos + copyLen, next)
            | some (none, copyLen, next) =>
                fillLoop turns next (src.drop copyLen) (srcPos + copyLen)
      else some (none, srcPos, zpq)

end ZpqSender

/-- What a call of `tx_func` does: it sends up to so many bytes, or returns a code that is not
positive. -/
inductive Tx where
  | sent (count : Nat)
  | failed (code : Nat)
  deriving DecidableEq, Repr

namespace ZpqSender

/-- The second loop of `zpq_write`: what it returns, if a send fails, and the bytes sent.  A send
that is not listed is blocked. -/
def sendLoop : List Tx → ZpqSender algorithms → Option Int × List UInt8 × ZpqSender algorithms
  | sends, zpq =>
      let stop (rc : Option Int) := (rc, ([] : List UInt8), { zpq with txOut := zpq.txOut.reuse })
      if zpq.txOut.unread = [] then stop none
      else
        match sends with
        | [] => stop (some 0)
        | .failed code :: _ => stop (some (-(code : Int)))
        | .sent count :: sends =>
            let rc := min count zpq.txOut.unread.length
            if rc = 0 then stop (some 0)
            else
              let (failed, given, next) :=
                sendLoop sends { zpq with txOut := zpq.txOut.posAdvance rc }
              (failed, zpq.txOut.unread.take rc ++ given, next)

end ZpqSender

/-- What a call of `zpq_write` comes to; `*src_processed` is 0 unless it was set. -/
structure Written (algorithms : TxAlgorithms) where
  rc : Int
  srcProcessed : Nat
  given : List UInt8
  zpq : ZpqSender algorithms

/-- The bytes behind which a caller goes on: the returned count, or `*src_processed`. -/
def Written.accepted (written : Written algorithms) : Nat :=
  if 0 < written.rc then written.rc.toNat else written.srcProcessed

namespace ZpqSender

def zpqWrite (zpq : ZpqSender algorithms) (src : List UInt8) (sends : List Tx) :
    Option (Written algorithms) :=
  match zpq.fillLoop (src.length + zpq.txIn.unread.length + 1) src 0 with
  | none => none
  | some (some rc, srcPos, zpq) => some ⟨rc, srcPos, [], zpq⟩
  | some (none, srcPos, zpq) =>
      match sendLoop sends zpq with
      | (some rc, given, zpq) => some ⟨rc, srcPos, given, zpq⟩
      | (none, given, zpq) => some ⟨srcPos, 0, given, zpq⟩

def bufferedTx (zpq : ZpqSender algorithms) : Bool :=
  5 ≤ zpq.txIn.unread.length || (0 < zpq.txIn.unread.length && 0 < zpq.txMsgBytesLeft) ||
    0 < zpq.txOut.unread.length || zpq.csBuffered

end ZpqSender

/-- A call of `zpq_write` with so many of the remaining bytes, and what `tx_func` does in it. -/
structure WriteCall where
  count : Nat
  sends : List Tx

variable (algorithms) in
/-- The sending side and the bytes its caller has yet to hand over. -/
structure Sending where
  zpq : ZpqSender algorithms
  remaining : List UInt8

namespace Sending

def start (algorithms : TxAlgorithms) (nCompressors : Nat) (bytes : List UInt8) :
    Sending algorithms :=
  ⟨.create algorithms nCompressors, bytes⟩

/-- One call, behind which the caller goes on after the bytes it accepted. -/
def call (sending : Sending algorithms) (call : WriteCall) :
    Option (Written algorithms × Sending algorithms) :=
  (sending.zpq.zpqWrite (sending.remaining.take call.count) call.sends).map fun written =>
    (written, ⟨written.zpq, sending.remaining.drop written.accepted⟩)

def calls : Sending algorithms → List WriteCall →
    Option (List (Written algorithms) × Sending algorithms)
  | sending, [] => some ([], sending)
  | sending, call :: rest =>
      match sending.call call with
      | none => none
      | some (written, next) =>
          (calls next rest).map fun behind => (written :: behind.1, behind.2)

end Sending

/-- What calls gave to `tx_func`, one behind the other. -/
def given (results : List (Written algorithms)) : List UInt8 := results.flatMap Written.given

def accepted (results : List (Written algorithms)) : Nat := (results.map Written.accepted).sum

end RedshiftOdbc.Zpq

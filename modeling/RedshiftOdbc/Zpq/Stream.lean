import RedshiftOdbc.Library.Words

/-!
# The compressed transport

`zpq_read` takes the server's bytes apart into messages.  One counter says how
many bytes of plain messages, or of one compressed message, are still to come;
the buffer is moved back to its start only when at most five bytes are unread.
A buffer is kept here as its unread bytes and their position.
-/

namespace RedshiftOdbc.Zpq

open RedshiftOdbc.Words

def bufferSize : Nat := 8192000

def maxDataTrunk : Nat := 262144

/-- The return codes of a decompression function. -/
inductive ZsCode where
  | ok
  | dataPending
  | streamEnd
  | incompleteSrc
  | decompressError
  deriving DecidableEq, Repr

def ZsCode.value : ZsCode → Int
  | ok => 0
  | decompressError => -2
  | streamEnd => -4
  | dataPending => -5
  | incompleteSrc => -6

def zsBufferError : Int := -8

/-- What a decompression function hands back. -/
structure Decompressed (State : Type) where
  state : State
  srcProcessed : Nat
  output : List UInt8
  code : ZsCode

/-- The decompressors of the compressors array, by their index. -/
structure Algorithms where
  State : Type
  create : Nat → State
  decompress : State → List UInt8 → Nat → Decompressed State

variable (algorithms : Algorithms)

/-- `d_stream`: absent, live with its `not_flushed` flag, or pointing to freed memory. -/
inductive DStream where
  | null
  | live (state : algorithms.State) (notFlushed : Bool)
  | freed

/-- The receiving side of a `ZpqStream`. -/
structure ZpqStream where
  dStream : DStream algorithms
  isDecompressing : Bool
  rxMsgBytesLeft : Nat
  unread : List UInt8
  pos : Nat
  decompressAlgIdx : Int
  readingSetCompression : Bool

variable {algorithms}

/-- `zs_buffered`; reading freed memory is `none`. -/
def zsBuffered : DStream algorithms → Option Bool
  | .null => some false
  | .live _ notFlushed => some notFlushed
  | .freed => none

/-- `zs_decompressor_free`, which leaves the pointer; freeing twice is `none`. -/
def zsDecompressorFree : DStream algorithms → Option (DStream algorithms)
  | .null => some .null
  | .live _ _ => some .freed
  | .freed => none

/-- `zs_read` on a live stream: the new `not_flushed` flag and the code. -/
def zsReadCode : ZsCode → Bool × ZsCode
  | .dataPending => (true, .ok)
  | code => (false, code)

/-- What one turn of the loop of `zpq_read` comes to. -/
inductive Turned where
  | again
  | data (bytes : List UInt8)
  | code (rc : Int)
  deriving DecidableEq, Repr

def Turned.bytes : Turned → List UInt8
  | data bytes => bytes
  | _ => []

def returned (results : List Turned) : List UInt8 := results.flatMap Turned.bytes

/-- The types `m`, `k` and `z`, whose messages the transport keeps to itself. -/
def isCompressedMsg (msgType : UInt8) : Bool := msgType = 109

def isSetCompressionMsg (msgType : UInt8) : Bool := msgType = 107

def isCompressionAck (msgType : UInt8) : Bool := msgType = 122

/-- The length word behind the type of a message, most significant byte first. -/
def msgLen (bytes : List UInt8) : Nat := ofBig ((bytes.drop 1).take 4)

/-- `msg_len + 1` in 32 bits. -/
def msgSize (bytes : List UInt8) : Nat := (msgLen bytes + 1) % 2 ^ 32

namespace ZpqStream

/-- `zpq_create`, with the bytes that were read before the transport took over. -/
def create (algorithms : Algorithms) (rxData : List UInt8) : ZpqStream algorithms where
  dStream := .null
  isDecompressing := false
  rxMsgBytesLeft := 0
  unread := rxData
  pos := 0
  decompressAlgIdx := -1
  readingSetCompression := false

def size (zpq : ZpqStream algorithms) : Nat := zpq.pos + zpq.unread.length

def bufLeft (zpq : ZpqStream algorithms) : Nat := bufferSize - zpq.size

def bufReuse (zpq : ZpqStream algorithms) : ZpqStream algorithms :=
  if 5 < zpq.unread.length then zpq else { zpq with pos := 0 }

/-- `zpq_buf_pos_advance`; a position behind the bytes received is `none`. -/
def bufPosAdvance (zpq : ZpqStream algorithms) (value : Nat) : Option (ZpqStream algorithms) :=
  if value ≤ zpq.unread.length then
    some { zpq with unread := zpq.unread.drop value, pos := zpq.pos + value }
  else none

/-- `zpq_buffered_rx`, given `zs_buffered`. -/
def bufferedRx (zpq : ZpqStream algorithms) (buffered : Bool) : Bool :=
  5 ≤ zpq.unread.length || (0 < zpq.unread.length && 0 < zpq.rxMsgBytesLeft) || buffered

/--
A call of `rx_func` for at most `size` bytes.  It hands over up to `chunk` of
the bytes that are still to come, or it fails.
-/
def rxFunc (zpq : ZpqStream algorithms) (incoming : List UInt8) (chunk : Option Nat) (size : Nat) :
    Except Int (ZpqStream algorithms × List UInt8) :=
  match chunk with
  | none => .error (-1)
  | some chunk =>
      let rc := min (min chunk size) incoming.length
      if 0 < rc then
        .ok ({ zpq with unread := zpq.unread ++ incoming.take rc }, incoming.drop rc)
      else .error 0

/-- The reading part of a turn; `error` is what `zpq_read` returns. -/
def receive (zpq : ZpqStream algorithms) (incoming : List UInt8) (noblock : Bool)
    (chunk : Option Nat) :
    Except Int (ZpqStream algorithms × List UInt8) :=
  if noblock then .error 0
  else if zpq.bufLeft = 0 then .error zsBufferError
  else if zpq.bufLeft ≤ maxDataTrunk then
    if zpq.unread.length < zpq.rxMsgBytesLeft + 1 then
      zpq.rxFunc incoming chunk
        (min (zpq.rxMsgBytesLeft - zpq.unread.length + 1) zpq.bufLeft)
    else .ok (zpq, incoming)
  else zpq.rxFunc incoming chunk (zpq.bufLeft - maxDataTrunk)

/-- The buffer is emptied or moved back and then, if need be, filled. -/
def fill (zpq : ZpqStream algorithms) (incoming : List UInt8) (noblock : Bool)
    (chunk : Option Nat) :
    Option (Except Int (ZpqStream algorithms × List UInt8)) := do
  let zpq := zpq.bufReuse
  let buffered ← zsBuffered zpq.dStream
  if !zpq.bufferedRx buffered ||
      (zpq.isDecompressing && zpq.unread.length < zpq.rxMsgBytesLeft) then
    return zpq.receive incoming noblock chunk
  else return .ok (zpq, incoming)

/--
The loop that reads ahead over plain messages.  Every turn needs more unread
bytes than the one before unless a length word is `2 ^ 32 - 1`, with which the
loop does not end: `none`.
-/
def readAhead (unread : List UInt8) : Nat → Nat → Option Nat
  | turns, rxMsgBytesLeft =>
      let header := unread.drop rxMsgBytesLeft
      if 0 < rxMsgBytesLeft ∧ rxMsgBytesLeft + 5 ≤ unread.length ∧
          ¬ header.head?.any fun msgType =>
            isCompressedMsg msgType || isSetCompressionMsg msgType ||
              isCompressionAck msgType then
        match turns with
        | 0 => none
        | turns + 1 => readAhead unread turns (rxMsgBytesLeft + msgSize header)
      else some rxMsgBytesLeft

/-- `rx_msg_bytes_left` once the header of every plain message that has begun was read. -/
def lookAhead (zpq : ZpqStream algorithms) : Option Nat :=
  if zpq.isDecompressing then some zpq.rxMsgBytesLeft
  else readAhead zpq.unread zpq.unread.length zpq.rxMsgBytesLeft

def restart (zpq : ZpqStream algorithms) : Option (ZpqStream algorithms) := do
  let dStream ← zsDecompressorFree zpq.dStream
  return { zpq with dStream := dStream, decompressAlgIdx := -1 }

/-- `zpq_toggle_decompression`, with five bytes unread. -/
def toggleDecompression (zpq : ZpqStream algorithms) : Option (ZpqStream algorithms) :=
  let msgType := zpq.unread.headD 0
  if isSetCompressionMsg msgType then
    { zpq with readingSetCompression := true }.bufPosAdvance 5
  else if isCompressionAck msgType then do
    let restarted ← zpq.restart
    restarted.bufPosAdvance (msgSize zpq.unread)
  else if isCompressedMsg msgType then
    { zpq with
      isDecompressing := true
      rxMsgBytesLeft := (msgSize zpq.unread + (2 ^ 64 - 5)) % 2 ^ 64 }.bufPosAdvance 5
  else some { zpq with isDecompressing := false, rxMsgBytesLeft := msgSize zpq.unread }

/-- `zpq_process_switch`.  An index behind the compressors array is `none`. -/
def processSwitch (nCompressors : Nat) (zpq : ZpqStream algorithms) :
    Option (ZpqStream algorithms) :=
  match zpq.unread with
  | [] => some zpq
  | algorithmIdx :: unread =>
      let zpq := { zpq with
        unread := unread, pos := zpq.pos + 1, readingSetCompression := false }
      if (algorithmIdx.toNat : Int) ≠ zpq.decompressAlgIdx then do
        let _ ← zsDecompressorFree zpq.dStream
        if algorithmIdx.toNat < nCompressors then
          return { zpq with
            dStream := .live (algorithms.create algorithmIdx.toNat) false
            decompressAlgIdx := algorithmIdx.toNat }
        else none
      else some zpq

/-- `zpq_read_compressed_message` and what `zpq_read` makes of its code. -/
def readCompressedMessage (zpq : ZpqStream algorithms) (dstLen : Nat) :
    Option (Turned × ZpqStream algorithms) :=
  match zpq.dStream with
  | .live state _ =>
      let readLen := min zpq.rxMsgBytesLeft zpq.unread.length
      let read := algorithms.decompress state (zpq.unread.take readLen) dstLen
      let (notFlushed, code) := zsReadCode read.code
      let next := { zpq with
        dStream := .live read.state notFlushed
        unread := zpq.unread.drop read.srcProcessed
        pos := zpq.pos + read.srcProcessed
        rxMsgBytesLeft := zpq.rxMsgBytesLeft - read.srcProcessed }
      if code = .ok ∨ code = .streamEnd then
        some (if read.output = [] then .again else .data read.output, next)
      else some (.code code.value, next)
  | _ => none

def readUncompressed (zpq : ZpqStream algorithms) (dstLen : Nat) :
    Turned × ZpqStream algorithms :=
  let copyLen := min zpq.rxMsgBytesLeft (min zpq.unread.length dstLen)
  (if copyLen = 0 then .again else .data (zpq.unread.take copyLen),
    { zpq with
      unread := zpq.unread.drop copyLen
      pos := zpq.pos + copyLen
      rxMsgBytesLeft := zpq.rxMsgBytesLeft - copyLen })

/-- The rest of a turn behind the reading ahead. -/
def handle (nCompressors : Nat) (zpq : ZpqStream algorithms) (dstSize : Nat) :
    Option (Turned × ZpqStream algorithms) :=
  match zsBuffered zpq.dStream with
  | none => none
  | some buffered =>
      if 0 < zpq.rxMsgBytesLeft || buffered then
        if zpq.isDecompressing || buffered then
          if !buffered && zpq.unread.length < zpq.rxMsgBytesLeft then some (.again, zpq)
          else zpq.readCompressedMessage dstSize
        else some (zpq.readUncompressed dstSize)
      else if zpq.readingSetCompression then (zpq.processSwitch nCompressors).map (.again, ·)
      else if 5 ≤ zpq.unread.length then zpq.toggleDecompression.map (.again, ·)
      else some (.again, zpq)

/-- What a turn does with the bytes in the buffer. -/
def process (nCompressors : Nat) (zpq : ZpqStream algorithms) (dstSize : Nat) :
    Option (Turned × ZpqStream algorithms) :=
  match zpq.lookAhead with
  | none => none
  | some rxMsgBytesLeft =>
      { zpq with rxMsgBytesLeft := rxMsgBytesLeft }.handle nCompressors dstSize

end ZpqStream

/-- The arguments of a call of `zpq_read` and what `rx_func` does in one turn of its loop. -/
structure Turn where
  dstSize : Nat
  noblock : Bool
  chunk : Option Nat
  dst_pos : 0 < dstSize

/-- `rx_func` hands something over when it is called, as long as there is anything. -/
def Hands (noblock : Bool) (chunk : Option Nat) : Prop := noblock = false ∧ 0 < chunk.getD 0

variable (algorithms) in
/-- The stream and the bytes that are still to come. -/
structure System where
  zpq : ZpqStream algorithms
  incoming : List UInt8

namespace System

/-- One turn of the loop of `zpq_read`; undefined behaviour is `none`. -/
def turn (nCompressors : Nat) (system : System algorithms) (turn : Turn) :
    Option (Turned × System algorithms) :=
  match system.zpq.fill system.incoming turn.noblock turn.chunk with
  | none => none
  | some (.error rc) => some (.code rc, { system with zpq := system.zpq.bufReuse })
  | some (.ok (zpq, incoming)) =>
      match zpq.process nCompressors turn.dstSize with
      | none => none
      | some (turned, zpq) => some (turned, ⟨zpq, incoming⟩)

/-- `zpq_read` over at most the given turns; it is not over when they do not suffice. -/
def zpqRead (nCompressors : Nat) : System algorithms → List Turn →
    Option (Turned × System algorithms)
  | system, [] => some (.again, system)
  | system, turn :: turns =>
      match system.turn nCompressors turn with
      | some (.again, next) => zpqRead nCompressors next turns
      | result => result

/-- Calls of `zpq_read` one after the other: what each comes to, and what they leave. -/
def calls (nCompressors : Nat) : System algorithms → List (List Turn) →
    Option (List Turned × System algorithms)
  | system, [] => some ([], system)
  | system, call :: rest =>
      match system.zpqRead nCompressors call with
      | none => none
      | some (turned, next) =>
          (calls nCompressors next rest).map fun behind => (turned :: behind.1, behind.2)

end System

end RedshiftOdbc.Zpq

import RedshiftOdbc.Zpq.Stream

/-!
# The server's messages

What a sequence of messages stands for: the bytes of the plain ones, with every
`CompressedData` message replaced by its decompression.  A decompressor is known
through what a compressed stream decompresses to; it may take the stream and
hand out the result in any pieces.
-/

namespace RedshiftOdbc.Zpq

open RedshiftOdbc.Words

/--
The decompressors are streaming inverses of their compressors.  `output` is what
the first bytes of a compressed stream decompress to, and `Holds` says that a
decompressor has taken some bytes and handed out some of the result.
-/
structure StreamingInverse (algorithms : Algorithms) where
  output : Nat → List UInt8 → List UInt8
  Valid : Nat → List UInt8 → Prop
  Holds : algorithms.State → Nat → List UInt8 → List UInt8 → Prop
  output_nil : ∀ index, output index [] = []
  output_grows : ∀ index first more, output index first <+: output index (first ++ more)
  valid_nil : ∀ index, Valid index []
  holds_create : ∀ index, Holds (algorithms.create index) index [] []
  read : ∀ state index consumed emitted src dstLen, Holds state index consumed emitted →
    Valid index (consumed ++ src) → emitted <+: output index (consumed ++ src) → 0 < dstLen →
    let next := algorithms.decompress state src dstLen
    next.srcProcessed ≤ src.length ∧ next.output.length ≤ dstLen ∧
      (next.code = .ok ∨ next.code = .streamEnd ∨ next.code = .dataPending) ∧
      Holds next.state index (consumed ++ src.take next.srcProcessed) (emitted ++ next.output) ∧
      emitted ++ next.output <+: output index (consumed ++ src) ∧
      (next.code ≠ .dataPending → next.srcProcessed = src.length →
        emitted ++ next.output = output index (consumed ++ src)) ∧
      (next.srcProcessed = 0 → next.output = [] → src = [] ∧ next.code ≠ .dataPending)

/-- Decompressors that take all they are given and hand out what they have decoded so far. -/
def greedy (output : Nat → List UInt8 → List UInt8) : Algorithms where
  State := Nat × List UInt8 × List UInt8
  create := fun index => (index, [], [])
  decompress := fun (index, taken, given) src dstLen =>
    let decoded := output index (taken ++ src)
    let out := (decoded.drop given.length).take dstLen
    { state := (index, taken ++ src, given ++ out)
      srcProcessed := src.length
      output := out
      code := if given ++ out = decoded then .ok else .dataPending }

/-- A decoding whose result only grows is inverted by the greedy decompressors. -/
def greedyInverse (output : Nat → List UInt8 → List UInt8)
    (output_nil : ∀ index, output index [] = [])
    (output_grows : ∀ index first more, output index first <+: output index (first ++ more)) :
    StreamingInverse (greedy output) where
  output := output
  Valid := fun _ _ => True
  Holds := fun state index consumed emitted => state = (index, consumed, emitted)
  output_nil := output_nil
  output_grows := output_grows
  valid_nil := fun _ => trivial
  holds_create := fun _ => rfl
  read := by
    rintro _ index consumed emitted src dstLen rfl - ⟨pending, decoded⟩ dst_pos
    have out : ((output index (consumed ++ src)).drop emitted.length).take dstLen =
        pending.take dstLen := by
      rw [← decoded, List.drop_left]
    have same : emitted ++ pending.take dstLen = output index (consumed ++ src) ↔
        pending.take dstLen = pending := by
      rw [← decoded, List.append_cancel_left_eq]
    simp only [greedy, out, List.take_length]
    refine ⟨le_refl _, List.length_take_le _ _, ?_, trivial, ?_, ?_, ?_⟩
    · split <;> simp
    · rw [← decoded]
      exact (List.prefix_append_right_inj emitted).mpr (List.take_prefix dstLen pending)
    · intro done _
      by_contra more
      rw [if_neg more] at done
      exact done rfl
    · intro none empty
      have all : pending = [] := by
        cases pending with
        | nil => rfl
        | cons first rest =>
            rw [List.take_eq_nil_iff] at empty
            rcases empty with zero | nothing
            · omega
            · cases nothing
      refine ⟨List.length_eq_zero_iff.mp none, ?_⟩
      rw [if_pos (same.mpr (by rw [all, List.take_nil]))]
      simp

inductive Message where
  | plain (msgType : UInt8) (body : List UInt8)
  | compressedData (payload : List UInt8)
  | setCompressionMethod (algorithmIdx : UInt8)
  | compressionAck (body : List UInt8)
  deriving DecidableEq, Repr

/-- A type, a length word that counts itself, and a body. -/
def frame (msgType : UInt8) (body : List UInt8) : List UInt8 :=
  msgType :: (big 4 (body.length + 4) ++ body)

namespace Message

def msgType : Message → UInt8
  | plain msgType _ => msgType
  | compressedData _ => 109
  | setCompressionMethod _ => 107
  | compressionAck _ => 122

def body : Message → List UInt8
  | plain _ body => body
  | compressedData payload => payload
  | setCompressionMethod algorithmIdx => [algorithmIdx]
  | compressionAck body => body

def encode (message : Message) : List UInt8 := frame message.msgType message.body

end Message

/-- The compressor in use and the bytes it has written. -/
abbrev Method : Type := Option (Nat × List UInt8)

/-- A method that is set again goes on where it was. -/
def Method.switch (method : Method) (index : Nat) : Method :=
  if method.map Prod.fst = some index then method else some (index, [])

def Method.after (method : Method) : Message → Method
  | .plain _ _ => method
  | .compressedData payload => method.map fun (index, written) => (index, written ++ payload)
  | .setCompressionMethod algorithmIdx => method.switch algorithmIdx.toNat
  | .compressionAck _ => none

/-- A property of every message and the method it meets. -/
def Throughout (property : Method → Message → Prop) : Method → List Message → Prop
  | _, [] => True
  | method, message :: rest => property method message ∧ Throughout property (method.after message) rest

def encodeAll (messages : List Message) : List UInt8 := messages.flatMap Message.encode

variable {algorithms : Algorithms} (inverse : StreamingInverse algorithms)

def contents (method : Method) : Message → List UInt8
  | .plain msgType body => (Message.plain msgType body).encode
  | .compressedData payload =>
      match method with
      | none => []
      | some (index, written) =>
          (inverse.output index (written ++ payload)).drop (inverse.output index written).length
  | _ => []

def deliver : Method → List Message → List UInt8
  | _, [] => []
  | method, message :: rest => contents inverse method message ++ deliver (method.after message) rest

/--
A message as a server writes it: its length fits the length word, a method index
is that of a compressor, and compressed data goes on with the stream of the
compressor in use.
-/
def WellFormed (nCompressors : Nat) (method : Method) (message : Message) : Prop :=
  message.body.length + 4 < 2 ^ 32 ∧
    match message with
    | .plain msgType _ =>
        ¬ isCompressedMsg msgType ∧ ¬ isSetCompressionMsg msgType ∧ ¬ isCompressionAck msgType
    | .compressedData payload =>
        payload.length + 5 ≤ maxDataTrunk ∧
          ∃ index written, method = some (index, written) ∧
            inverse.Valid index (written ++ payload)
    | .setCompressionMethod algorithmIdx => algorithmIdx.toNat < nCompressors
    | .compressionAck _ => True

/-- No length word is `2 ^ 32 - 1`, and no acknowledgement comes while a method is set. -/
def Harmless (method : Method) (message : Message) : Prop :=
  message.body.length + 5 ≠ 2 ^ 32 ∧
    match message with
    | .compressionAck _ => method = none
    | _ => True

/-! ## Reading a header -/

theorem frame_length (msgType : UInt8) (body : List UInt8) :
    (frame msgType body).length = body.length + 5 := by
  simp [frame]
  omega

theorem msgLen_frame {msgType : UInt8} {body : List UInt8} (fits : body.length + 4 < 2 ^ 32)
    (more : List UInt8) : msgLen (frame msgType body ++ more) = body.length + 4 := by
  have word : (big 4 (body.length + 4)).length = 4 := big_length 4 _
  rw [msgLen, frame, List.cons_append, List.drop_one, List.tail_cons, List.append_assoc,
    List.take_left' word, ofBig_big fits]

/-- The header of a message can be read as soon as five bytes have arrived. -/
theorem msgLen_take {bytes : List UInt8} {count : Nat} (enough : 5 ≤ count) :
    msgLen (bytes.take count) = msgLen bytes := by
  rw [msgLen, msgLen, List.drop_take, List.take_take, Nat.min_eq_left (by omega)]

theorem encodeAll_cons (message : Message) (rest : List Message) :
    encodeAll (message :: rest) = message.encode ++ encodeAll rest := by
  simp [encodeAll]

theorem encode_length (message : Message) : message.encode.length = message.body.length + 5 :=
  frame_length _ _

end RedshiftOdbc.Zpq

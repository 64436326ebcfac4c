import RedshiftOdbc.Zpq.Receiver

/-!
# A turn of the sender

A compressor is known through what its output decompresses to: it may take its
input and hand out the result in any pieces.  The sender is described by what the
receiver has made of the bytes it wrote, what the compressor holds back, and how
much of a message is still to come.
-/

namespace RedshiftOdbc.Zpq

open RedshiftOdbc.Words

/-! ## Compressors -/

/--
The compressors are correct streaming compressors for the decompressors `output`.
`Holds` says that a compressor has taken some bytes and handed out others, and
`held` bounds what it has yet to hand out of what it took.
-/
structure StreamingCompressor (algorithms : TxAlgorithms) where
  output : Nat → List UInt8 → List UInt8
  Holds : algorithms.State → Nat → List UInt8 → List UInt8 → Prop
  held : algorithms.State → Nat
  output_nil : ∀ index, output index [] = []
  output_grows : ∀ index first more, output index first <+: output index (first ++ more)
  holds_create : ∀ index, Holds (algorithms.create index) index [] []
  held_create : ∀ index, held (algorithms.create index) = 0
  behind : ∀ state index taken emitted, Holds state index taken emitted →
    output index emitted <+: taken
  write : ∀ state index taken emitted src dstLen, Holds state index taken emitted → 0 < dstLen →
    let next := algorithms.compress state src dstLen
    next.srcProcessed ≤ src.length ∧ next.output.length ≤ dstLen ∧ next.code ≠ .compressError ∧
      Holds next.state index (taken ++ src.take next.srcProcessed) (emitted ++ next.output) ∧
      (next.code = .ok → next.srcProcessed = src.length →
        output index (emitted ++ next.output) = taken ++ src) ∧
      (next.srcProcessed = 0 → next.output = [] → src = [] ∧ next.code = .ok) ∧
      (next.srcProcessed = 0 → next.output.length + held next.state ≤ held state)

variable {algorithms : TxAlgorithms} (compressor : StreamingCompressor algorithms)

/-! ## What the sender stands for -/

/-- The compressor that the receiver's method belongs to, and what it holds back. -/
def Packs (zpq : ZpqSender algorithms) (pending : List UInt8) : Method → Prop
  | none => zpq.cStream = none ∧ zpq.compressAlgIdx = -1 ∧ pending = []
  | some (index, emitted) => index < 256 ∧ zpq.compressAlgIdx = index ∧
      ∃ state notFlushed taken, zpq.cStream = some (state, notFlushed) ∧
        compressor.Holds state index taken emitted ∧
        compressor.output index emitted ++ pending = taken

/-- Whole messages of the client are still to come. -/
def Upcoming (bytes : List UInt8) : Prop :=
  ∃ messages, (∀ message ∈ messages, ClientMessage message) ∧ bytes = encodeAll messages

/--
Of what the sender took, `consumed` went through; `written` is what it wrote for it,
`avail` what it has at hand and `later` what will come.
-/
inductive Carries (zpq : ZpqSender algorithms) (written consumed avail later : List UInt8) :
    Prop where
  | plain (method : Method) (done before part rest : List UInt8) (plains : List Message)
      (mode : zpq.isCompressing = false) (quiet : zpq.csBuffered = false)
      (reads : Reads compressor.output done method before) (packs : Packs compressor zpq [] method)
      (split : written = done ++ part) (same : consumed = before ++ part)
      (client : ∀ message ∈ plains, ClientMessage message)
      (shape : part ++ rest = encodeAll plains) (left : rest.length = zpq.txMsgBytesLeft)
      (next : ∃ bytes, Upcoming bytes ∧ avail ++ later = rest ++ bytes)
      (header : rest ≠ [] → ∃ front last, plains = front ++ [last] ∧
        rest.length + 5 ≤ avail.length + last.encode.length)
  | packed (index : Nat) (emitted got pending rest : List UInt8)
      (mode : zpq.isCompressing = true)
      (reads : Reads compressor.output written (some (index, emitted)) got)
      (packs : Packs compressor zpq pending (some (index, emitted)))
      (same : consumed = got ++ pending) (left : rest.length = zpq.txMsgBytesLeft)
      (next : ∃ bytes, Upcoming bytes ∧ avail ++ later = rest ++ bytes)
      (flushed : zpq.csBuffered = false → rest = [] ∨ avail = [] → pending = [])

/-! ## Reading ahead -/

section ReadAhead

variable {zpq : ZpqSender algorithms}

theorem readAhead_stops {src : List UInt8} {turns left : Nat}
    (stops : left = 0 ∨ zpq.isCompressing = true) :
    zpq.readAhead src turns left = some left := by
  rw [ZpqSender.readAhead.eq_def]
  refine if_neg ?_
  rintro ⟨some_left, -, same⟩
  rcases stops with rfl | compressing
  · exact absurd some_left (Nat.lt_irrefl 0)
  · rw [compressing] at same
    cases same

/-- The size of the first of the messages that are to come. -/
theorem size_of_upcoming {bytes later : List UInt8} {message : Message} {messages : List Message}
    (client : ClientMessage message) (shape : bytes ++ later = encodeAll (message :: messages))
    (complete : 5 ≤ bytes.length) : msgSize bytes = message.encode.length := by
  cases message with
  | plain msgType body =>
      obtain ⟨fits, -, -⟩ := client
      rw [encodeAll_cons] at shape
      obtain ⟨-, -, length⟩ := header_append (Nat.not_lt.mpr complete) later
      change bytes ++ later = frame msgType body ++ encodeAll messages at shape
      rw [shape, msgLen_frame (by omega)] at length
      rw [msgSize, ← length, encode_length]
      exact Nat.mod_eq_of_lt fits
  | _ => exact client.elim

/-- Reading ahead without a compressor moves over whole messages whose headers are at hand. -/
theorem readAhead_whole (mode : zpq.isCompressing = false) {avail later : List UInt8}
    {turns : Nat} (rest : List UInt8) (messages : List Message)
    (client : ∀ message ∈ messages, ClientMessage message)
    (shape : avail ++ later = rest ++ encodeAll messages)
    (enough : avail.length ≤ rest.length + turns) :
    ∃ passed behind, messages = passed ++ behind ∧
      zpq.readAhead avail turns rest.length = some (rest ++ encodeAll passed).length ∧
      (passed ≠ [] → ∃ front last, passed = front ++ [last] ∧
        (rest ++ encodeAll passed).length + 5 ≤ avail.length + last.encode.length) := by
  induction turns generalizing rest messages with
  | zero =>
      refine ⟨[], messages, rfl, ?_, fun some_passed => absurd rfl some_passed⟩
      rw [ZpqSender.readAhead.eq_def, encodeAll, List.flatMap_nil, List.append_nil]
      refine if_neg ?_
      rintro ⟨-, room, -⟩
      omega
  | succ turns ih =>
      by_cases goes : 0 < rest.length ∧ rest.length + 5 ≤ avail.length
      · obtain ⟨some_left, room⟩ := goes
        have behind : avail.drop rest.length ++ later = encodeAll messages := by
          rw [← List.drop_append_of_le_length (by omega), shape, List.drop_left]
        have complete : 5 ≤ (avail.drop rest.length).length := by
          rw [List.length_drop]
          omega
        cases messages with
        | nil =>
            rw [encodeAll, List.flatMap_nil, List.append_eq_nil_iff] at behind
            rw [behind.1, List.length_nil] at complete
            omega
        | cons message messages =>
            have size := size_of_upcoming (client message (List.mem_cons_self ..)) behind complete
            have longer : rest.length + msgSize (avail.drop rest.length) =
                (rest ++ message.encode).length := by
              rw [size, List.length_append]
            have positive : 5 ≤ message.encode.length := by
              rw [encode_length]
              omega
            obtain ⟨passed, later_messages, split, ends, last⟩ := ih (rest ++ message.encode) messages
              (fun message member => client message (List.mem_cons_of_mem _ member))
              (by rw [shape, encodeAll_cons, List.append_assoc])
              (by rw [List.length_append]; omega)
            refine ⟨message :: passed, later_messages, by rw [split, List.cons_append], ?_, ?_⟩
            · rw [ZpqSender.readAhead.eq_def, encodeAll_cons, ← List.append_assoc, ← ends, ← longer]
              exact if_pos ⟨some_left, room, mode.symm⟩
            · intro _
              rw [encodeAll_cons, ← List.append_assoc]
              by_cases none : passed = []
              · refine ⟨[], message, by rw [none]; rfl, ?_⟩
                rw [none, encodeAll, List.flatMap_nil, List.append_nil, List.length_append]
                omega
              · obtain ⟨front, final, same, near⟩ := last none
                exact ⟨message :: front, final, by rw [same, List.cons_append], near⟩
      · refine ⟨[], messages, rfl, ?_, fun some_passed => absurd rfl some_passed⟩
        rw [ZpqSender.readAhead.eq_def, encodeAll, List.flatMap_nil, List.append_nil]
        exact if_neg fun all => goes ⟨all.1, all.2.1⟩

theorem encodeAll_append (first second : List Message) :
    encodeAll (first ++ second) = encodeAll first ++ encodeAll second := List.flatMap_append

variable {compressor}

/-- Reading ahead ends and changes nothing but the counter. -/
theorem readAhead_carries {written consumed avail later : List UInt8}
    (carries : Carries compressor zpq written consumed avail later) :
    ∃ left, zpq.readAhead avail avail.length zpq.txMsgBytesLeft = some left ∧
      (left = 0 ↔ zpq.txMsgBytesLeft = 0) ∧
      Carries compressor { zpq with txMsgBytesLeft := left } written consumed avail later := by
  by_cases stops : zpq.txMsgBytesLeft = 0 ∨ zpq.isCompressing = true
  · exact ⟨_, readAhead_stops stops, Iff.rfl, carries⟩
  · rw [not_or] at stops
    obtain ⟨some_left, plain_mode⟩ := stops
    cases carries with
    | packed _ _ _ _ _ mode => exact absurd mode plain_mode
    | plain method done before part rest plains mode quiet reads packs split same client shape left
        next header =>
        obtain ⟨bytes, ⟨messages, formed, rfl⟩, both⟩ := next
        obtain ⟨passed, behind, rfl, ends, last⟩ := readAhead_whole mode rest messages formed both
          (Nat.le_add_left avail.length rest.length)
        rw [← left]
        refine ⟨_, ends, ?_, .plain method done before part (rest ++ encodeAll passed)
          (plains ++ passed) mode quiet reads packs split same ?_ ?_ rfl ?_ ?_⟩
        · rw [List.length_append]
          omega
        · intro message member
          rcases List.mem_append.mp member with before | after
          · exact client message before
          · exact formed message (List.mem_append_left _ after)
        · rw [encodeAll_append, ← shape, List.append_assoc]
        · refine ⟨encodeAll behind, ⟨behind, ?_, rfl⟩, ?_⟩
          · exact fun message member => formed message (List.mem_append_right _ member)
          · rw [both, encodeAll_append, List.append_assoc]
        · intro _
          by_cases none : passed = []
          · subst none
            obtain ⟨front, final, split, near⟩ :=
              header (List.length_pos_iff.mp (by omega))
            exact ⟨front, final, by rw [List.append_nil, split], by simpa [encodeAll] using near⟩
          · obtain ⟨front, final, split, near⟩ := last none
            exact ⟨plains ++ front, final, by rw [split, List.append_assoc], near⟩

end ReadAhead

/-! ## A turn -/

/-- What the compressor has yet to hand out of what it took. -/
def holding (zpq : ZpqSender algorithms) : Nat :=
  match zpq.cStream with
  | none => 0
  | some (state, _) => compressor.held state

/-- A bound on the turns that can pass without a byte being taken. -/
def weight (zpq : ZpqSender algorithms) : Nat :=
  4 * holding compressor zpq + 2 * zpq.csBuffered.toNat + if zpq.txMsgBytesLeft = 0 then 1 else 0

/-- A bound on the turns before the input is used up or the output is full. -/
def load (zpq : ZpqSender algorithms) (src : List UInt8) : Nat :=
  4 * src.length + 4 * zpq.txOut.left + 2 * zpq.csBuffered.toNat +
    if zpq.txMsgBytesLeft = 0 then 1 else 0

/-- The map chooses the first compressor or none. -/
def Mapped (zpq : ZpqSender algorithms) : Prop :=
  ∀ msgType, zpq.compressorByMsgType msgType = -1 ∨ zpq.compressorByMsgType msgType = 0

/-- Some bytes are taken, others written for them, and there is less to do. -/
structure Moves (zpq next : ZpqSender algorithms) (written consumed avail later extra : List UInt8)
    (taken : Nat) : Prop where
  within : taken ≤ avail.length
  txIn : next.txIn = zpq.txIn
  txOut : next.txOut = zpq.txOut.sizeAdvance extra
  room : extra.length ≤ zpq.txOut.left
  map : next.compressorByMsgType = zpq.compressorByMsgType
  carries : Carries compressor next (written ++ extra) (consumed ++ avail.take taken)
    (avail.drop taken) later
  less : load next (avail.drop taken) < load zpq avail
  lighter : taken = 0 → weight compressor next < weight compressor zpq

section Turn

variable {compressor} {zpq : ZpqSender algorithms} {written consumed avail later : List UInt8}

theorem sizeAdvance_nil (zb : ZpqBuffer) : zb.sizeAdvance [] = zb := by
  rw [ZpqBuffer.sizeAdvance, List.append_nil]

theorem left_sizeAdvance (zb : ZpqBuffer) (extra : List UInt8) :
    (zb.sizeAdvance extra).left = zb.left - extra.length := by
  rw [ZpqBuffer.left, ZpqBuffer.left, ZpqBuffer.size, ZpqBuffer.size, ZpqBuffer.sizeAdvance,
    List.length_append]
  dsimp only
  omega

/-- A stretch of bytes that are at hand is a stretch of those that are to come. -/
theorem stretch {rest bytes : List UInt8} (both : avail ++ later = rest ++ bytes) {count : Nat}
    (low : count ≤ avail.length) (high : count ≤ rest.length) :
    avail.take count = rest.take count ∧ avail.drop count ++ later = rest.drop count ++ bytes := by
  constructor
  · have front : (avail ++ later).take count = avail.take count :=
      List.take_append_of_le_length low
    rw [← front, both, List.take_append_of_le_length high]
  · rw [← List.drop_append_of_le_length low, both, List.drop_append_of_le_length high]

/-- Between two messages the receiver has everything that went through. -/
theorem Carries.boundary (carries : Carries compressor zpq written consumed avail later)
    (none : zpq.txMsgBytesLeft = 0) (quiet : zpq.csBuffered = false) :
    ∃ method, Reads compressor.output written method consumed ∧ Packs compressor zpq [] method ∧
      Upcoming (avail ++ later) := by
  cases carries with
  | plain method done before part rest plains _ _ reads packs split same client shape left next =>
      rw [none, List.length_eq_zero_iff] at left
      subst left
      obtain ⟨bytes, upcoming, both⟩ := next
      rw [List.append_nil] at shape
      refine ⟨method, ?_, packs, by rw [both]; exact upcoming⟩
      rw [split, same, shape]
      exact reads.plains client
  | packed index emitted got pending rest _ reads packs same left next flushed =>
      rw [none, List.length_eq_zero_iff] at left
      subst left
      obtain ⟨bytes, upcoming, both⟩ := next
      have silent := flushed quiet (.inl rfl)
      subst silent
      rw [List.append_nil] at same
      subst same
      exact ⟨_, reads, packs, by rw [both]; exact upcoming⟩

/--
What a compressor makes of `given`: with what it held back the bytes it takes are those
that come out of its output and those it now holds back.
-/
structure Writes (compressor : StreamingCompressor algorithms) (state : algorithms.State)
    (index : Nat) (taken emitted pending given : List UInt8) (dstLen : Nat)
    (write : Compressed algorithms.State) (notFlushed : Bool) (added pending' : List UInt8) :
    Prop where
  within : write.srcProcessed ≤ given.length
  fits : write.output.length ≤ dstLen
  coded : zsWriteCode write.code = (notFlushed, 0)
  holds : compressor.Holds write.state index (taken ++ given.take write.srcProcessed)
    (emitted ++ write.output)
  grown : compressor.output index emitted ++ added =
    compressor.output index (emitted ++ write.output)
  pends : compressor.output index (emitted ++ write.output) ++ pending' =
    taken ++ given.take write.srcProcessed
  shift : pending ++ given.take write.srcProcessed = added ++ pending'
  drained : notFlushed = false → write.srcProcessed = given.length → pending' = []
  stuck : write.srcProcessed = 0 → write.output = [] → given = [] ∧ notFlushed = false
  drains : write.srcProcessed = 0 →
    write.output.length + compressor.held write.state ≤ compressor.held state

theorem compress_writes {state : algorithms.State} {index : Nat}
    {taken emitted pending : List UInt8} {dstLen : Nat}
    (holds : compressor.Holds state index taken emitted)
    (pends : compressor.output index emitted ++ pending = taken) (given : List UInt8)
    (dst_pos : 0 < dstLen) :
    ∃ notFlushed added pending', Writes compressor state index taken emitted pending given dstLen
      (algorithms.compress state given dstLen) notFlushed added pending' := by
  obtain ⟨within, fits, fine, holds', all, stuck, drains⟩ :=
    compressor.write state index taken emitted given dstLen holds dst_pos
  generalize algorithms.compress state given dstLen = write at *
  obtain ⟨notFlushed, coded, quiet⟩ : ∃ notFlushed, zsWriteCode write.code = (notFlushed, 0) ∧
      (notFlushed = false → write.code = .ok) := by
    cases code : write.code with
    | ok => exact ⟨false, rfl, fun _ => rfl⟩
    | dataPending => exact ⟨true, rfl, fun quiet => by cases quiet⟩
    | compressError => exact absurd code fine
  obtain ⟨added, grown⟩ := compressor.output_grows index emitted write.output
  obtain ⟨pending', pends'⟩ := compressor.behind _ _ _ _ holds'
  refine ⟨notFlushed, added, pending', within, fits, coded, holds', grown, pends', ?_, ?_, ?_,
    drains⟩
  · rw [← List.append_cancel_left_eq (compressor.output index emitted), ← List.append_assoc,
      pends, ← pends', ← grown, List.append_assoc]
  · intro calm whole
    have everything := all (quiet calm) whole
    rw [whole, List.take_length, everything] at pends'
    simpa using pends'
  · intro none silent
    obtain ⟨empty, code⟩ := stuck none silent
    rw [code, zsWriteCode] at coded
    exact ⟨empty, (congrArg Prod.fst coded).symm⟩

/-- The receiver reads what the output of the compressor stands for. -/
theorem Writes.reads {state : algorithms.State} {index : Nat}
    {taken emitted pending given added pending' got : List UInt8} {dstLen : Nat}
    {write : Compressed algorithms.State} {notFlushed : Bool}
    (writes : Writes compressor state index taken emitted pending given dstLen write notFlushed
      added pending') (small : dstLen + 5 ≤ bufferSize)
    (reads : Reads compressor.output written (some (index, emitted)) got) :
    Reads compressor.output
      (written ++ if write.output = [] then [] else frame 109 write.output)
      (some (index, emitted ++ write.output)) (got ++ added) := by
  have grown := writes.grown
  split
  · rename_i silent
    rw [silent, List.append_nil] at grown
    have none : added = [] := by simpa using grown
    rw [none, silent, List.append_nil, List.append_nil, List.append_nil]
    exact reads
  · have unpacked : unpack compressor.output write.output (some (index, emitted)) = added := by
      rw [unpack, ← grown, List.drop_left]
    have room : bufferSize < 2 ^ 32 := by decide
    have fits := writes.fits
    exact unpacked ▸ reads.compressed (by omega)

/-- There is less to do once a compressor was given bytes. -/
theorem load_write {next : ZpqSender algorithms} {count : Nat} {output : List UInt8}
    (low : count ≤ avail.length) (fits : output.length + 5 ≤ zpq.txOut.left)
    (txOut : next.txOut = if output = [] then zpq.txOut else zpq.txOut.sizeAdvance (frame 109 output))
    (stuck : count = 0 → output = [] →
      zpq.csBuffered = true ∧ next.csBuffered = false ∧ next.txMsgBytesLeft = zpq.txMsgBytesLeft) :
    load next (avail.drop count) < load zpq avail := by
  have flags := Bool.toNat_le next.csBuffered
  rw [load, load, txOut, List.length_drop]
  by_cases silent : output = []
  · rw [if_pos silent]
    rcases Nat.eq_zero_or_pos count with none | some_taken
    · obtain ⟨buffered, quiet, left⟩ := stuck none silent
      rw [buffered, quiet, left, none, Nat.sub_zero, Bool.toNat_true, Bool.toNat_false]
      omega
    · split_ifs <;> omega
  · rw [if_neg silent, left_sizeAdvance, frame_length]
    split_ifs <;> omega

/-- Without a byte taken, the compressor holds less than before. -/
theorem weight_write {next : ZpqSender algorithms} {output : List UInt8}
    (left : next.txMsgBytesLeft = zpq.txMsgBytesLeft)
    (drains : output.length + holding compressor next ≤ holding compressor zpq)
    (stuck : output = [] → zpq.csBuffered = true ∧ next.csBuffered = false) :
    weight compressor next < weight compressor zpq := by
  have flags := Bool.toNat_le next.csBuffered
  rw [weight, weight, left]
  by_cases silent : output = []
  · obtain ⟨buffered, quiet⟩ := stuck silent
    rw [buffered, quiet, Bool.toNat_true, Bool.toNat_false]
    omega
  · have some_output := List.length_pos_iff.mpr silent
    omega

/-- A compressor is given what is at hand of the messages. -/
theorem writeCompressed_moves (carries : Carries compressor zpq written consumed avail later)
    (room : 6 < zpq.txOut.left) (some_input : avail ≠ [] ∨ zpq.csBuffered = true)
    (goes : zpq.csBuffered = true ∨ (zpq.isCompressing = true ∧ 0 < zpq.txMsgBytesLeft)) :
    ∃ taken extra next, zpq.writeCompressedMessage
        (avail.take (min zpq.txMsgBytesLeft avail.length)) = some (0, taken, next) ∧
      Moves compressor zpq { next with txMsgBytesLeft := zpq.txMsgBytesLeft - taken } written
        consumed avail later extra taken := by
  cases carries with
  | plain _ _ _ _ _ _ mode quiet =>
      rw [mode, quiet] at goes
      simp at goes
  | packed index emitted got pending rest mode reads packs same left next flushed =>
      obtain ⟨bytes, upcoming, both⟩ := next
      obtain ⟨byte, idx, state, notFlushed, taken, stream, holds, pends⟩ := packs
      obtain ⟨notFlushed', added, pending', writes⟩ := compress_writes holds pends
        (avail.take (min zpq.txMsgBytesLeft avail.length))
        (show 0 < zpq.txOut.left - 5 by omega)
      rw [ZpqSender.writeCompressedMessage, if_neg (by omega), stream]
      dsimp only
      generalize algorithms.compress state (avail.take (min zpq.txMsgBytesLeft avail.length))
        (zpq.txOut.left - 5) = write at writes ⊢
      have within := writes.within
      have fits := writes.fits
      rw [List.length_take, Nat.min_eq_left (Nat.min_le_right _ _)] at within
      have low : write.srcProcessed ≤ avail.length := by omega
      obtain ⟨same_bytes, moved⟩ :=
        stretch both low (show write.srcProcessed ≤ rest.length by omega)
      have given : (avail.take (min zpq.txMsgBytesLeft avail.length)).take write.srcProcessed =
          avail.take write.srcProcessed := by
        rw [List.take_take, Nat.min_eq_left within]
      have drained : notFlushed' = false →
          rest.drop write.srcProcessed = [] ∨ avail.drop write.srcProcessed = [] →
          pending' = [] := by
        intro quiet none
        refine writes.drained quiet ?_
        rw [List.length_take, ← left]
        rw [List.drop_eq_nil_iff, List.drop_eq_nil_iff] at none
        omega
      have emptied : write.srcProcessed = 0 → write.output = [] →
          zpq.csBuffered = true ∧ notFlushed' = false := by
        intro none silent
        obtain ⟨empty, quiet⟩ := writes.stuck none silent
        refine ⟨?_, quiet⟩
        rw [List.take_eq_nil_iff] at empty
        rcases goes with buffered | ⟨_, some_left⟩
        · exact buffered
        · rcases some_input with some_avail | buffered
          · have positive := List.length_pos_iff.mpr some_avail
            rcases empty with zero | nothing
            · omega
            · exact absurd nothing some_avail
          · exact buffered
      rw [writes.coded]
      refine ⟨write.srcProcessed, if write.output = [] then [] else frame 109 write.output, _, rfl,
        ⟨low, rfl, ?_, ?_, rfl, ?_, ?_, ?_⟩⟩
      · dsimp only
        split
        · exact (sizeAdvance_nil _).symm
        · rfl
      · split
        · exact Nat.zero_le _
        · rw [frame_length]
          omega
      · have bounded : zpq.txOut.left ≤ bufferSize := Nat.sub_le _ _
        refine .packed index (emitted ++ write.output) (got ++ added) pending'
          (rest.drop write.srcProcessed) mode (writes.reads (by omega) reads)
          ⟨byte, idx, write.state, notFlushed', _, rfl, writes.holds, writes.pends⟩ ?_ ?_
          ⟨bytes, upcoming, moved⟩ drained
        · rw [same, List.append_assoc, ← given, writes.shift, List.append_assoc]
        · rw [List.length_drop, left]
      · refine load_write low (by omega) rfl fun none silent => ?_
        obtain ⟨buffered, quiet⟩ := emptied none silent
        exact ⟨buffered, quiet, by rw [none, Nat.sub_zero]⟩
      · intro none
        have drains := writes.drains none
        refine weight_write (by rw [none, Nat.sub_zero]) ?_ (emptied none)
        rwa [holding, holding, stream]

/-- Bytes of plain messages are written as they are. -/
theorem writeUncompressed_moves (carries : Carries compressor zpq written consumed avail later)
    (room : 6 < zpq.txOut.left) (some_avail : avail ≠ []) (quiet : zpq.csBuffered = false)
    (mode : zpq.isCompressing = false) (some_left : 0 < zpq.txMsgBytesLeft) :
    ∃ taken extra next, zpq.writeUncompressed (avail.take (min avail.length zpq.txMsgBytesLeft)) =
        (taken, next) ∧
      Moves compressor zpq { next with txMsgBytesLeft := zpq.txMsgBytesLeft - taken } written
        consumed avail later extra taken := by
  have positive := List.length_pos_iff.mpr some_avail
  cases carries with
  | packed _ _ _ _ _ compressing =>
      rw [mode] at compressing
      cases compressing
  | plain method done before part rest plains _ _ reads packs split same client shape left next
      header =>
      obtain ⟨bytes, upcoming, both⟩ := next
      obtain ⟨taken, counted, low, high, some_taken, fits⟩ : ∃ taken, taken = min zpq.txOut.left
          (avail.take (min avail.length zpq.txMsgBytesLeft)).length ∧ taken ≤ avail.length ∧
          taken ≤ rest.length ∧ 0 < taken ∧ taken ≤ zpq.txOut.left := by
        refine ⟨_, rfl, ?_⟩
        rw [List.length_take]
        omega
      obtain ⟨same_bytes, moved⟩ := stretch both low high
      have copied : (avail.take (min avail.length zpq.txMsgBytesLeft)).take taken =
          avail.take taken := by
        rw [List.take_take, Nat.min_eq_left (by omega)]
      have length : (avail.take taken).length = taken := by
        rw [List.length_take, Nat.min_eq_left low]
      rw [ZpqSender.writeUncompressed, ← counted, copied]
      refine ⟨taken, avail.take taken, _, rfl, ⟨low, rfl, rfl, by omega, rfl, ?_, ?_, ?_⟩⟩
      · refine .plain method done before (part ++ avail.take taken) (rest.drop taken) plains mode
          quiet reads packs (by rw [split, List.append_assoc]) (by rw [same, List.append_assoc])
          client ?_ ?_ ⟨bytes, upcoming, moved⟩ ?_
        · rw [same_bytes, List.append_assoc, List.take_append_drop, shape]
        · rw [List.length_drop, left]
        · intro some_rest
          have some_before : rest ≠ [] := by
            rintro rfl
            exact some_rest List.drop_nil
          obtain ⟨front, last, ends, near⟩ := header some_before
          refine ⟨front, last, ends, ?_⟩
          rw [List.length_drop, List.length_drop]
          omega
      · change 4 * (avail.drop taken).length +
            4 * (zpq.txOut.sizeAdvance (avail.take taken)).left + 2 * zpq.csBuffered.toNat +
            (if zpq.txMsgBytesLeft - taken = 0 then 1 else 0) < load zpq avail
        rw [load, List.length_drop, left_sizeAdvance, length]
        split_ifs <;> omega
      · intro none
        omega

/-- Nothing was taken, and the counter of the next message is set. -/
theorem load_toggle {next : ZpqSender algorithms} (none : zpq.txMsgBytesLeft = 0)
    (some_counter : next.txMsgBytesLeft ≠ 0) (left : next.txOut.left ≤ zpq.txOut.left)
    (flag : next.csBuffered = zpq.csBuffered) : load next (avail.drop 0) < load zpq avail := by
  rw [load, load, List.drop_zero, if_neg some_counter, if_pos none, flag]
  omega

theorem weight_toggle {next : ZpqSender algorithms} (none : zpq.txMsgBytesLeft = 0)
    (some_counter : next.txMsgBytesLeft ≠ 0)
    (held : holding compressor next ≤ holding compressor zpq)
    (flag : next.csBuffered = zpq.csBuffered) :
    weight compressor next < weight compressor zpq := by
  rw [weight, weight, if_neg some_counter, if_pos none, flag]
  omega

/-- A header that leaves the compressor as it is writes nothing. -/
theorem toggle_kept {next : ZpqSender algorithms} (none : zpq.txMsgBytesLeft = 0)
    (some_counter : next.txMsgBytesLeft ≠ 0) (txIn : next.txIn = zpq.txIn)
    (txOut : next.txOut = zpq.txOut) (stream : next.cStream = zpq.cStream)
    (map : next.compressorByMsgType = zpq.compressorByMsgType)
    (carries : Carries compressor next written consumed avail later) :
    Moves compressor zpq next written consumed avail later [] 0 := by
  have flag : next.csBuffered = zpq.csBuffered := by
    rw [ZpqSender.csBuffered, ZpqSender.csBuffered, stream]
  have held : holding compressor next = holding compressor zpq := by
    rw [holding, holding, stream]
  refine ⟨Nat.zero_le _, txIn, txOut.trans (sizeAdvance_nil _).symm, Nat.zero_le _, map, ?_,
    load_toggle none some_counter (by rw [txOut]) flag,
    fun _ => weight_toggle none some_counter held.le flag⟩
  rw [List.append_nil, List.take_zero, List.append_nil, List.drop_zero]
  exact carries

/-- A change of the compressor is written, and the new one is set up. -/
theorem toggle_created {next : ZpqSender algorithms} {method : Method}
    (reads : Reads compressor.output written method consumed) (packs : Packs compressor zpq [] method)
    (room : 6 < zpq.txOut.left) (none : zpq.txMsgBytesLeft = 0) (quiet : zpq.csBuffered = false)
    (current : zpq.compressAlgIdx ≠ 0) {message : List UInt8} (some_message : message ≠ [])
    (upcoming : ∃ bytes, Upcoming bytes ∧ avail ++ later = message ++ bytes)
    (isNext : next = { zpq with
      cStream := some (algorithms.create 0, false)
      compressAlgIdx := 0
      txOut := zpq.txOut.sizeAdvance (frame 107 [0])
      isCompressing := true
      txMsgBytesLeft := message.length }) :
    Moves compressor zpq next written consumed avail later (frame 107 [0]) 0 := by
  have first : method.switch (0 : UInt8).toNat = some (0, []) := by
    cases method with
    | none => rfl
    | some used =>
        obtain ⟨-, idx, -⟩ := packs
        have other : ¬ some used.1 = some (0 : UInt8).toNat := by
          intro equal
          rw [Option.some.injEq] at equal
          exact current (by rw [idx, equal]; rfl)
        exact if_neg other
  have some_counter : next.txMsgBytesLeft ≠ 0 := by
    rw [isNext]
    exact List.length_eq_zero_iff.not.mpr some_message
  have flag : next.csBuffered = zpq.csBuffered := by
    rw [isNext, quiet]
    rfl
  have held : holding compressor next = 0 := by
    rw [isNext]
    exact compressor.held_create 0
  have left : next.txOut.left ≤ zpq.txOut.left := by
    rw [isNext, left_sizeAdvance]
    exact Nat.sub_le _ _
  refine ⟨Nat.zero_le _, by rw [isNext], by rw [isNext], ?_, by rw [isNext], ?_,
    load_toggle none some_counter left flag,
    fun _ => weight_toggle none some_counter (held.le.trans (Nat.zero_le _)) flag⟩
  · rw [frame_length]
    exact room.le
  · rw [isNext, List.take_zero, List.append_nil, List.drop_zero]
    refine .packed 0 [] consumed [] message rfl ?_ ⟨by decide, rfl, algorithms.create 0, false, [],
      rfl, compressor.holds_create 0, ?_⟩ (List.append_nil _).symm rfl upcoming fun _ _ => rfl
    · rw [← first]
      exact reads.switch _
    · rw [compressor.output_nil, List.append_nil]

/-- The header of the next message sets the counter, and the compressor if need be. -/
theorem toggleCompression_moves (carries : Carries compressor zpq written consumed avail later)
    (mapped : Mapped zpq) (room : 6 < zpq.txOut.left) (none : zpq.txMsgBytesLeft = 0)
    (quiet : zpq.csBuffered = false) (complete : 5 ≤ avail.length) :
    ∃ extra, Moves compressor zpq (zpq.toggleCompression (avail.headD 0) (msgLen avail)) written
      consumed avail later extra 0 := by
  obtain ⟨method, reads, packs, messages, client, shape⟩ := carries.boundary none quiet
  cases messages with
  | nil =>
      have length := congrArg List.length shape
      rw [List.length_append, encodeAll, List.flatMap_nil, List.length_nil] at length
      omega
  | cons message messages =>
      have formed := client message (List.mem_cons_self ..)
      have size : (msgLen avail + 1) % 2 ^ 32 = message.encode.length :=
        size_of_upcoming formed shape complete
      have positive : 5 ≤ message.encode.length := by
        rw [encode_length]
        omega
      have upcoming : ∃ bytes, Upcoming bytes ∧ avail ++ later = message.encode ++ bytes :=
        ⟨encodeAll messages, ⟨messages, fun message member =>
          client message (List.mem_cons_of_mem _ member), rfl⟩, by rw [shape, encodeAll_cons]⟩
      have some_counter : message.encode.length ≠ 0 := by omega
      rw [ZpqSender.toggleCompression]
      dsimp only
      rw [size]
      have chosen : zpq.chooseCompressor (avail.headD 0) (msgLen avail) = -1 ∨
          zpq.chooseCompressor (avail.headD 0) (msgLen avail) = 0 := by
        rw [ZpqSender.chooseCompressor]
        split
        · exact mapped _
        · exact .inl rfl
      generalize zpq.chooseCompressor (avail.headD 0) (msgLen avail) = newCompressIdx at chosen ⊢
      rcases chosen with rfl | rfl
      · rw [if_neg fun both => both.1 rfl]
        refine ⟨[], toggle_kept none some_counter rfl rfl rfl rfl ?_⟩
        exact .plain method written consumed [] message.encode [message] rfl quiet reads packs
          (List.append_nil _).symm (List.append_nil _).symm
          (fun other member => List.mem_singleton.mp member ▸ formed)
          (by rw [encodeAll_cons, encodeAll, List.flatMap_nil, List.append_nil]; rfl) rfl upcoming
          fun _ => ⟨[], message, rfl, by omega⟩
      · by_cases current : zpq.compressAlgIdx = 0
        · rw [if_neg fun both => both.2 current]
          refine ⟨[], toggle_kept none some_counter rfl rfl rfl rfl ?_⟩
          cases method with
          | none =>
              obtain ⟨-, idx, -⟩ := packs
              rw [current] at idx
              cases idx
          | some used =>
              exact .packed used.1 used.2 consumed [] message.encode rfl reads packs
                (List.append_nil _).symm rfl upcoming fun _ _ => rfl
        · rw [if_pos ⟨by decide, current⟩, ZpqSender.writeSetCompressionMsg, if_neg (by omega)]
          have some_message : message.encode ≠ [] := List.length_eq_zero_iff.not.mp some_counter
          exact ⟨_, toggle_created reads packs room none quiet current some_message upcoming rfl⟩

/-- Nothing but the beginning of a header is at hand. -/
def Incomplete (zpq : ZpqSender algorithms) (avail : List UInt8) : Prop :=
  zpq.txMsgBytesLeft = 0 ∧ zpq.csBuffered = false ∧ avail.length < 5

theorem handle_moves (carries : Carries compressor zpq written consumed avail later)
    (mapped : Mapped zpq) (room : 6 < zpq.txOut.left)
    (some_input : avail ≠ [] ∨ zpq.csBuffered = true) :
    ∃ code taken next, zpq.handle avail = some (code, taken, next) ∧
      ((code = none ∧ ∃ extra, Moves compressor zpq next written consumed avail later extra taken) ∨
        (code = some zpqIncompleteHeader ∧ taken = 0 ∧ next = zpq ∧ Incomplete zpq avail)) := by
  rw [ZpqSender.handle]
  by_cases goes : zpq.csBuffered = true ∨ (zpq.isCompressing = true ∧ 0 < zpq.txMsgBytesLeft)
  · obtain ⟨taken, extra, next, done, moves⟩ :=
      writeCompressed_moves carries room some_input goes
    rw [if_pos (by simpa only [Bool.or_eq_true, Bool.and_eq_true, decide_eq_true_eq] using goes),
      done]
    exact ⟨_, _, _, rfl, .inl ⟨rfl, extra, moves⟩⟩
  · rw [if_neg (by simpa only [Bool.or_eq_true, Bool.and_eq_true, decide_eq_true_eq] using goes)]
    rw [not_or, Bool.not_eq_true, not_and] at goes
    obtain ⟨quiet, plain⟩ := goes
    have some_avail : avail ≠ [] := by
      rcases some_input with some_avail | buffered
      · exact some_avail
      · rw [quiet] at buffered
        cases buffered
    by_cases some_left : 0 < zpq.txMsgBytesLeft
    · have mode : zpq.isCompressing = false := by
        cases compressing : zpq.isCompressing with
        | false => rfl
        | true => exact absurd some_left (plain compressing)
      obtain ⟨taken, extra, next, done, moves⟩ :=
        writeUncompressed_moves carries room some_avail quiet mode some_left
      rw [if_pos some_left, done]
      exact ⟨_, _, _, rfl, .inl ⟨rfl, extra, moves⟩⟩
    · have none : zpq.txMsgBytesLeft = 0 := by omega
      rw [if_neg some_left]
      by_cases short : avail.length < 5
      · exact ⟨_, _, _, if_pos short, .inr ⟨rfl, rfl, rfl, none, quiet, short⟩⟩
      · obtain ⟨extra, moves⟩ :=
          toggleCompression_moves carries mapped room none quiet (Nat.le_of_not_lt short)
        exact ⟨_, _, _, if_neg short, .inl ⟨rfl, extra, moves⟩⟩

theorem writeTurn_moves (carries : Carries compressor zpq written consumed avail later)
    (mapped : Mapped zpq) (room : 6 < zpq.txOut.left)
    (some_input : avail ≠ [] ∨ zpq.csBuffered = true) :
    ∃ code taken next, zpq.writeTurn avail = some (code, taken, next) ∧
      ((code = none ∧ ∃ extra, Moves compressor zpq next written consumed avail later extra taken) ∨
        (code = some zpqIncompleteHeader ∧ taken = 0 ∧ next = zpq ∧ Incomplete zpq avail)) := by
  obtain ⟨left, ends, zero, ahead⟩ := readAhead_carries carries
  obtain ⟨code, taken, next, done, moved⟩ := handle_moves ahead mapped room some_input
  refine ⟨code, taken, next, by rw [ZpqSender.writeTurn, ends]; exact done, ?_⟩
  rcases moved with ⟨rfl, extra, moves⟩ | ⟨rfl, rfl, rfl, none, quiet, short⟩
  · refine .inl ⟨rfl, extra, moves.within, moves.txIn, moves.txOut, moves.room, moves.map,
      moves.carries, ?_, fun none => ?_⟩
    · have same : load { zpq with txMsgBytesLeft := left } avail = load zpq avail := by
        simp only [load, zero]
        rfl
      exact same ▸ moves.less
    · have same : weight compressor { zpq with txMsgBytesLeft := left } =
          weight compressor zpq := by
        simp only [weight, zero]
        rfl
      exact same ▸ moves.lighter none
  · have unset := zero.mp none
    refine .inr ⟨rfl, rfl, ?_, unset, quiet, short⟩
    change left = 0 at none
    rw [none, ← unset]

/-- Moves that follow each other are one move. -/
theorem Moves.trans {second third : ZpqSender algorithms} {extra extra' : List UInt8}
    {taken taken' : Nat}
    (first : Moves compressor zpq second written consumed avail later extra taken)
    (last : Moves compressor second third (written ++ extra) (consumed ++ avail.take taken)
      (avail.drop taken) later extra' taken') :
    Moves compressor zpq third written consumed avail later (extra ++ extra') (taken + taken') := by
  have within := last.within
  rw [List.length_drop] at within
  have low := first.within
  have room := last.room
  rw [first.txOut, left_sizeAdvance] at room
  have fits := first.room
  refine ⟨by omega, last.txIn.trans first.txIn, ?_, ?_, last.map.trans first.map, ?_, ?_, ?_⟩
  · rw [last.txOut, first.txOut, ZpqBuffer.sizeAdvance, ZpqBuffer.sizeAdvance, ZpqBuffer.sizeAdvance,
      List.append_assoc]
  · rw [List.length_append]
    omega
  · have carries := last.carries
    rw [List.drop_drop, List.append_assoc, List.append_assoc, ← List.take_add] at carries
    exact carries
  · have less := last.less
    rw [List.drop_drop] at less
    exact less.trans first.less
  · intro none
    exact (last.lighter (by omega)).trans (first.lighter (by omega))

theorem writeLoop_moves {turns : Nat} (srcPos : Nat)
    (carries : Carries compressor zpq written consumed avail later) (mapped : Mapped zpq)
    (room : 6 < zpq.txOut.left) (some_input : avail ≠ [] ∨ zpq.csBuffered = true)
    (enough : load zpq avail < turns) :
    ∃ rc processed next, zpq.writeLoop turns avail srcPos = some (rc, processed, next) ∧
      ((∃ taken extra, rc = ((srcPos + taken : Nat) : Int) ∧ processed = 0 ∧
        Moves compressor zpq next written consumed avail later extra taken) ∨
      ∃ taken, rc = zpqIncompleteHeader ∧ processed = srcPos + taken ∧
        Incomplete next (avail.drop taken) ∧
        ((∃ extra, Moves compressor zpq next written consumed avail later extra taken) ∨
          (taken = 0 ∧ next = zpq))) := by
  induction turns generalizing zpq written consumed avail srcPos with
  | zero => exact absurd enough (Nat.not_lt_zero _)
  | succ turns ih =>
      obtain ⟨code, taken, next, done, moved⟩ := writeTurn_moves carries mapped room some_input
      rw [ZpqSender.writeLoop, done]
      rcases moved with ⟨rfl, extra, moves⟩ | ⟨rfl, rfl, rfl, incomplete⟩
      · by_cases goes : taken < avail.length ∧ 6 < next.txOut.left
        · have some_rest : avail.drop taken ≠ [] := by
            rw [ne_eq, List.drop_eq_nil_iff]
            omega
          have still : Mapped next := by
            rw [Mapped, moves.map]
            exact mapped
          obtain ⟨rc, processed, last, ends, outcome⟩ := ih (srcPos + taken) moves.carries still
            goes.2 (.inl some_rest) (by have less := moves.less; omega)
          refine ⟨rc, processed, last, (if_pos goes).trans ends, ?_⟩
          rcases outcome with ⟨taken', extra', rfl, rfl, more⟩ | ⟨taken', rfl, rfl, incomplete, more⟩
          · exact .inl ⟨taken + taken', extra ++ extra', by rw [Nat.add_assoc], rfl,
              moves.trans more⟩
          · rw [List.drop_drop] at incomplete
            refine .inr ⟨taken + taken', rfl, Nat.add_assoc _ _ _, incomplete, .inl ?_⟩
            rcases more with ⟨extra', more⟩ | ⟨rfl, rfl⟩
            · exact ⟨extra ++ extra', moves.trans more⟩
            · exact ⟨extra, moves⟩
        · exact ⟨_, _, _, if_neg goes, .inl ⟨taken, extra, rfl, rfl, moves⟩⟩
      · exact ⟨_, _, _, rfl, .inr ⟨0, rfl, rfl, incomplete, .inr ⟨rfl, rfl⟩⟩⟩

theorem writeInternal_moves (carries : Carries compressor zpq written consumed avail later)
    (mapped : Mapped zpq) (room : 6 < zpq.txOut.left)
    (some_input : avail ≠ [] ∨ zpq.csBuffered = true) :
    ∃ rc processed next, zpq.writeInternal avail = some (rc, processed, next) ∧
      ((∃ (taken : Nat) (extra : List UInt8), rc = (taken : Int) ∧ processed = 0 ∧
        Moves compressor zpq next written consumed avail later extra taken) ∨
      (rc = zpqIncompleteHeader ∧ Incomplete next (avail.drop processed) ∧
        ((∃ extra, Moves compressor zpq next written consumed avail later extra processed) ∨
          (processed = 0 ∧ next = zpq)))) := by
  have enough : load zpq avail < 4 * avail.length + 4 * zpq.txOut.left + 4 := by
    have flag := Bool.toNat_le zpq.csBuffered
    rw [load]
    split_ifs <;> omega
  obtain ⟨rc, processed, next, done, outcome⟩ :=
    writeLoop_moves 0 carries mapped room some_input enough
  refine ⟨rc, processed, next, done, ?_⟩
  rcases outcome with ⟨taken, extra, same, none, moves⟩ | ⟨taken, same, rfl, incomplete, more⟩
  · exact .inl ⟨taken, extra, by rw [same, Nat.zero_add], none, moves⟩
  · rw [Nat.zero_add]
    exact .inr ⟨same, incomplete, more⟩

end Turn

end RedshiftOdbc.Zpq

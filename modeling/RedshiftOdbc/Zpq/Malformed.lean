import RedshiftOdbc.Library.Machine
import RedshiftOdbc.Zpq.Transport

/-!
# Malformed headers

What `zpq_read` does with arbitrary bytes.  `zpq_restart` frees both streams and
keeps the pointers, so the compressor of the sending side is part of the state
here; undefined behaviour (a freed stream, an index behind the compressors array,
a position behind the bytes received, a loop that does not end) is `none`.
-/

namespace RedshiftOdbc.Zpq

open RedshiftOdbc.Words RedshiftOdbc.Machine

/-! ## Both streams -/

/-- `c_stream`: absent, live, or pointing to freed memory. -/
inductive CStream where
  | null
  | live
  | freed
  deriving DecidableEq, Repr

/-- `zs_compressor_free`, which leaves the pointer; freeing twice is `none`. -/
def zsCompressorFree : CStream → Option CStream
  | .null => some .null
  | .live => some .freed
  | .freed => none

variable {algorithms : Algorithms}

def DStream.isNull : DStream algorithms → Bool
  | .null => true
  | _ => false

namespace ZpqStream

/-- A turn comes to `zpq_toggle_decompression`. -/
def toggles (zpq : ZpqStream algorithms) : Prop :=
  zpq.rxMsgBytesLeft = 0 ∧ zsBuffered zpq.dStream = some false ∧
    zpq.readingSetCompression = false ∧ 5 ≤ zpq.unread.length

/-- A turn comes to `zpq_process_switch`. -/
def switches (zpq : ZpqStream algorithms) : Prop :=
  zpq.rxMsgBytesLeft = 0 ∧ zsBuffered zpq.dStream = some false ∧ zpq.readingSetCompression = true

instance (zpq : ZpqStream algorithms) : Decidable zpq.toggles :=
  inferInstanceAs (Decidable (_ ∧ _ ∧ _ ∧ _))

instance (zpq : ZpqStream algorithms) : Decidable zpq.switches :=
  inferInstanceAs (Decidable (_ ∧ _ ∧ _))

/-- `zpq_restart` is called. -/
def restarts (zpq : ZpqStream algorithms) : Prop :=
  zpq.toggles ∧ isSetCompressionMsg (zpq.unread.headD 0) = false ∧
    isCompressionAck (zpq.unread.headD 0) = true

instance (zpq : ZpqStream algorithms) : Decidable zpq.restarts :=
  inferInstanceAs (Decidable (_ ∧ _ ∧ _))

end ZpqStream

variable (algorithms) in
/-- The reading side with the compressor of the sending side. -/
structure Connection where
  system : System algorithms
  cStream : CStream

/-- What the client does next: a turn of the loop of `zpq_read`, or `zpq_write` sets up a
compressor in place of the one before. -/
inductive Call where
  | read (turn : Turn)
  | write

namespace Connection

/-- The stream behind the reading part of a turn. -/
def filled (connection : Connection algorithms) (turn : Turn) : Option (ZpqStream algorithms) :=
  match connection.system.zpq.fill connection.system.incoming turn.noblock turn.chunk with
  | some (.ok (zpq, _)) => some zpq
  | _ => none

/-- One turn of the loop of `zpq_read`. -/
def turn (nCompressors : Nat) (connection : Connection algorithms) (turn : Turn) :
    Option (Turned × Connection algorithms) :=
  match connection.system.turn nCompressors turn with
  | none => none
  | some (turned, system) =>
      if ∃ zpq ∈ connection.filled turn, zpq.restarts then
        (zsCompressorFree connection.cStream).map fun cStream => (turned, ⟨system, cStream⟩)
      else some (turned, ⟨system, connection.cStream⟩)

def step (nCompressors : Nat) (connection : Connection algorithms) : Call →
    Option (Connection algorithms)
  | .read turn => (connection.turn nCompressors turn).map Prod.snd
  | .write => (zsCompressorFree connection.cStream).map fun _ => { connection with cStream := .live }

/-- The connection before its first call, with the bytes that were read before. -/
def start (algorithms : Algorithms) (received incoming : List UInt8) : Connection algorithms :=
  ⟨System.start algorithms received incoming, .null⟩

end Connection

/-! ## Harmless headers -/

/-- The loop that reads ahead goes on behind so many bytes. -/
def Passes (unread : List UInt8) (rxMsgBytesLeft : Nat) : Prop :=
  0 < rxMsgBytesLeft ∧ rxMsgBytesLeft + 5 ≤ unread.length ∧
    ¬ (unread.drop rxMsgBytesLeft).head?.any fun msgType =>
      isCompressedMsg msgType || isSetCompressionMsg msgType || isCompressionAck msgType

instance (unread : List UInt8) (rxMsgBytesLeft : Nat) : Decidable (Passes unread rxMsgBytesLeft) :=
  inferInstanceAs (Decidable (_ ∧ _ ∧ _))

/-- The headers that are read ahead from some byte on, by what is in front of them. -/
inductive Ahead (unread : List UInt8) : Nat → Nat → Prop where
  | here {left : Nat} (passes : Passes unread left) : Ahead unread left left
  | behind {left later : Nat} (passes : Passes unread left)
      (ahead : Ahead unread (left + msgSize (unread.drop left)) later) : Ahead unread left later

/-- A header with which nothing goes wrong. -/
def HeaderFine (zpq : ZpqStream algorithms) (cStream : CStream) : Prop :=
  if isSetCompressionMsg (zpq.unread.headD 0) then True
  else if isCompressionAck (zpq.unread.headD 0) then
    0 < msgSize zpq.unread ∧ msgSize zpq.unread ≤ zpq.unread.length ∧
      zpq.dStream.isNull = true ∧ cStream ≠ .freed
  else if isCompressedMsg (zpq.unread.headD 0) then 5 ≤ msgSize zpq.unread
  else 0 < msgSize zpq.unread

/-- What the headers in the buffer must be like in a turn. -/
structure HeadersFine (nCompressors : Nat) (zpq : ZpqStream algorithms) (cStream : CStream) :
    Prop where
  ahead : zpq.isDecompressing = false →
    ∀ left, Ahead zpq.unread zpq.rxMsgBytesLeft left → 0 < msgSize (zpq.unread.drop left)
  toggled : zpq.toggles → HeaderFine zpq cStream
  switched : zpq.switches → ∀ algorithmIdx ∈ zpq.unread.head?,
    (algorithmIdx.toNat : Int) = zpq.decompressAlgIdx ∨ algorithmIdx.toNat < nCompressors
  decompressed : zpq.isDecompressing = true → 0 < zpq.rxMsgBytesLeft →
    zpq.rxMsgBytesLeft ≤ zpq.unread.length → zpq.dStream.isNull = false

def Fine (nCompressors : Nat) (connection : Connection algorithms) : Call → Prop
  | .read turn => ∀ zpq ∈ connection.filled turn, HeadersFine nCompressors zpq connection.cStream
  | .write => connection.cStream ≠ .freed

/-! ## What holds in every state -/

variable (algorithms) in
inductive Reachable : algorithms.State → Prop where
  | create (index : Nat) : Reachable (algorithms.create index)
  | read {state : algorithms.State} (before : Reachable state) (src : List UInt8) {dstLen : Nat}
      (room : 0 < dstLen) : Reachable (algorithms.decompress state src dstLen).state

variable (algorithms) in
/--
What any decompressor keeps to, whatever it is given: it takes no more than that,
with something to take it takes or hands out a byte unless it fails, and data is
pending only when it filled the room it had.
-/
structure Decompresses : Prop where
  within : ∀ state, Reachable algorithms state → ∀ src dstLen, 0 < dstLen →
    (algorithms.decompress state src dstLen).srcProcessed ≤ src.length
  forward : ∀ state, Reachable algorithms state → ∀ src dstLen, 0 < dstLen → src ≠ [] →
    (algorithms.decompress state src dstLen).code ≠ .decompressError →
    (algorithms.decompress state src dstLen).code ≠ .incompleteSrc →
    0 < (algorithms.decompress state src dstLen).srcProcessed ∨
      (algorithms.decompress state src dstLen).output ≠ []
  pending : ∀ state, Reachable algorithms state → ∀ src dstLen, 0 < dstLen →
    (algorithms.decompress state src dstLen).code = .dataPending →
    (algorithms.decompress state src dstLen).output ≠ []

/-- The buffer holds at most what it has room for, the counter has not wrapped around, and the
stream is not freed. -/
structure Healthy (zpq : ZpqStream algorithms) : Prop where
  bounded : zpq.size ≤ bufferSize
  counter : zpq.rxMsgBytesLeft ≤ bufferSize + 2 ^ 32
  intact : zpq.dStream ≠ .freed
  reachable : ∀ state notFlushed, zpq.dStream = .live state notFlushed → Reachable algorithms state

theorem Healthy.buffered {zpq : ZpqStream algorithms} (healthy : Healthy zpq) :
    ∃ notFlushed, zsBuffered zpq.dStream = some notFlushed := by
  cases stream : zpq.dStream with
  | null => exact ⟨false, rfl⟩
  | live state notFlushed => exact ⟨notFlushed, rfl⟩
  | freed => exact absurd stream healthy.intact

/-! ## Filling the buffer -/

/-- The stream behind the reading part of a turn: bytes were read, or there were enough of them. -/
structure Fed (zpq next : ZpqStream algorithms) (incoming later : List UInt8) : Prop where
  bounded : next.size ≤ bufferSize
  dStream : next.dStream = zpq.dStream
  left : next.rxMsgBytesLeft = zpq.rxMsgBytesLeft
  supply : (later.length < incoming.length ∧
      next.unread.length + later.length = zpq.unread.length + incoming.length) ∨
    (later = incoming ∧ next.unread = zpq.unread ∧ Supplied next)

theorem Fed.healthy {zpq next : ZpqStream algorithms} {incoming later : List UInt8}
    (fed : Fed zpq next incoming later) (healthy : Healthy zpq) : Healthy next :=
  ⟨fed.bounded, fed.left ▸ healthy.counter, fed.dStream ▸ healthy.intact,
    fun state notFlushed same => healthy.reachable state notFlushed (fed.dStream ▸ same)⟩

namespace ZpqStream

variable {zpq : ZpqStream algorithms}

theorem bufReuse_bounded (bounded : zpq.size ≤ bufferSize) : zpq.bufReuse.size ≤ bufferSize := by
  rw [bufReuse]
  split
  · exact bounded
  · rw [size] at bounded ⊢
    dsimp only
    omega

/-- Few unread bytes are moved to the start of the buffer. -/
theorem bufReuse_space (few : zpq.unread.length ≤ 5) : maxDataTrunk < zpq.bufReuse.bufLeft := by
  rw [bufReuse, if_neg (by omega), bufLeft, size, bufferSize, maxDataTrunk]
  dsimp only
  omega

theorem rxFunc_fed (bounded : zpq.size ≤ bufferSize) (incoming : List UInt8) (chunk : Option Nat)
    {size : Nat} (room : size ≤ zpq.bufLeft) :
    (∃ rc, zpq.rxFunc incoming chunk size = .error rc) ∨
      ∃ next later, zpq.rxFunc incoming chunk size = .ok (next, later) ∧
        Fed zpq next incoming later := by
  rcases zpq.rxFunc_cases incoming chunk size with ⟨rc, failed, -⟩ | ⟨count, pos, le, available, done⟩
  · exact .inl ⟨rc, failed⟩
  · refine .inr ⟨_, _, done, ⟨?_, rfl, rfl, .inl ⟨?_, ?_⟩⟩⟩
    · rw [bufLeft] at room
      rw [ZpqStream.size] at room bounded ⊢
      simp only [List.length_append, List.length_take]
      omega
    · rw [List.length_drop]
      omega
    · simp only [List.length_append, List.length_take, List.length_drop]
      omega

/-- A turn that wants bytes reads some or returns. -/
theorem receive_fed (bounded : zpq.size ≤ bufferSize) (incoming : List UInt8) (noblock : Bool)
    (chunk : Option Nat)
    (near : zpq.bufLeft ≤ maxDataTrunk → zpq.unread.length < zpq.rxMsgBytesLeft + 1) :
    (∃ rc, zpq.receive incoming noblock chunk = .error rc) ∨
      ∃ next later, zpq.receive incoming noblock chunk = .ok (next, later) ∧
        Fed zpq next incoming later := by
  rw [receive]
  split
  · exact .inl ⟨_, rfl⟩
  · split
    · exact .inl ⟨_, rfl⟩
    · split
      · rename_i close
        rw [if_pos (near close)]
        exact rxFunc_fed bounded incoming chunk (Nat.min_le_right _ _)
      · exact rxFunc_fed bounded incoming chunk (Nat.sub_le _ _)

theorem fill_fed (healthy : Healthy zpq) (incoming : List UInt8) (noblock : Bool)
    (chunk : Option Nat) :
    (∃ rc, zpq.fill incoming noblock chunk = some (.error rc)) ∨
      ∃ next later, zpq.fill incoming noblock chunk = some (.ok (next, later)) ∧
        Fed zpq next incoming later := by
  obtain ⟨notFlushed, flag⟩ := healthy.buffered
  have bounded := bufReuse_bounded healthy.bounded
  have unfolded : zpq.fill incoming noblock chunk =
      if !zpq.bufReuse.bufferedRx notFlushed || (zpq.bufReuse.isDecompressing &&
          zpq.bufReuse.unread.length < zpq.bufReuse.rxMsgBytesLeft) then
        some (zpq.bufReuse.receive incoming noblock chunk)
      else some (.ok (zpq.bufReuse, incoming)) := by
    simp only [fill, bufReuse_dStream, flag, bind, Option.bind, pure]
  have back {next : ZpqStream algorithms} {later : List UInt8}
      (fed : Fed zpq.bufReuse next incoming later) : Fed zpq next incoming later := by
    refine ⟨fed.bounded, fed.dStream.trans zpq.bufReuse_dStream,
      fed.left.trans zpq.bufReuse_rxMsgBytesLeft, ?_⟩
    simpa using fed.supply
  rw [unfolded]
  split
  · rename_i wanted
    rw [Bool.or_eq_true, Bool.not_eq_true', Bool.and_eq_true, decide_eq_true_eq] at wanted
    have near : zpq.bufReuse.bufLeft ≤ maxDataTrunk →
        zpq.bufReuse.unread.length < zpq.bufReuse.rxMsgBytesLeft + 1 := by
      intro close
      rcases wanted with none | short
      · have few : zpq.unread.length ≤ 5 := by
          simp only [bufferedRx, Bool.or_eq_false_iff, decide_eq_false_iff_not,
            bufReuse_unread] at none
          omega
        have space := bufReuse_space few
        omega
      · omega
    rcases receive_fed bounded incoming noblock chunk near with ⟨rc, failed⟩ | ⟨next, later, done, fed⟩
    · exact .inl ⟨rc, by rw [failed]⟩
    · exact .inr ⟨next, later, by rw [done], back fed⟩
  · rename_i enough
    refine .inr ⟨_, _, rfl, back ⟨bounded, rfl, rfl, .inr ⟨rfl, rfl, ?_, ?_⟩⟩⟩
    · intro other same
      rw [bufReuse_dStream, flag] at same
      cases same
      simp only [Bool.or_eq_true, Bool.not_eq_true', not_or] at enough
      simpa using enough.1
    · simpa using fun compressed => by
        simp only [Bool.or_eq_true, Bool.and_eq_true, decide_eq_true_eq, not_or, not_and] at enough
        simpa using enough.2 compressed

end ZpqStream

/-! ## Handling what is in the buffer -/

theorem msgSize_lt (bytes : List UInt8) : msgSize bytes < 2 ^ 32 := Nat.mod_lt _ (by decide)

/-- Reading ahead ends when every header that is read ahead has a size. -/
theorem readAhead_ends {unread : List UInt8} (bounded : unread.length ≤ bufferSize) {turns left : Nat}
    (fine : ∀ later, Ahead unread left later → 0 < msgSize (unread.drop later))
    (enough : unread.length ≤ left + turns) (counter : left ≤ bufferSize + 2 ^ 32) :
    ∃ final, ZpqStream.readAhead unread turns left = some final ∧ (final = 0 ↔ left = 0) ∧
      final ≤ bufferSize + 2 ^ 32 := by
  induction turns generalizing left with
  | zero =>
      have stops : ¬Passes unread left := by
        rintro ⟨_, room, _⟩
        omega
      rw [Passes] at stops
      refine ⟨left, ?_, Iff.rfl, counter⟩
      rw [ZpqStream.readAhead]
      exact if_neg stops
  | succ turns ih =>
      by_cases passes : Passes unread left
      · have size := fine left (.here passes)
        have small := msgSize_lt (unread.drop left)
        have room := passes.2.1
        obtain ⟨final, ends, zero, low⟩ := ih
          (fun later ahead => fine later (.behind passes ahead)) (by omega) (by omega)
        refine ⟨final, ?_, by have pos := passes.1; omega, low⟩
        rw [Passes] at passes
        rw [ZpqStream.readAhead]
        exact (if_pos passes).trans ends
      · rw [Passes] at passes
        refine ⟨left, ?_, Iff.rfl, counter⟩
        rw [ZpqStream.readAhead]
        exact if_neg passes

/-- What a turn does with the bytes in the buffer: it keeps the stream healthy, and another turn
has less to do. -/
def Handles (zpq : ZpqStream algorithms) (turned : Turned) (next : ZpqStream algorithms) : Prop :=
  Healthy next ∧ (turned = .again → work next ≤ work zpq ∧ (Supplied zpq → work next < work zpq))

namespace ZpqStream

variable {zpq : ZpqStream algorithms}

theorem lookAhead_ends (healthy : Healthy zpq)
    (fine : zpq.isDecompressing = false →
      ∀ left, Ahead zpq.unread zpq.rxMsgBytesLeft left → 0 < msgSize (zpq.unread.drop left)) :
    ∃ left, zpq.lookAhead = some left ∧ (left = 0 ↔ zpq.rxMsgBytesLeft = 0) ∧
      left ≤ bufferSize + 2 ^ 32 ∧ (zpq.isDecompressing = true → left = zpq.rxMsgBytesLeft) := by
  have bounded : zpq.unread.length ≤ bufferSize := by
    have all := healthy.bounded
    rw [size] at all
    omega
  rw [lookAhead]
  cases mode : zpq.isDecompressing with
  | true => exact ⟨_, rfl, Iff.rfl, healthy.counter, fun _ => rfl⟩
  | false =>
      obtain ⟨left, ends, zero, low⟩ := readAhead_ends bounded (fine mode)
        (Nat.le_add_left zpq.unread.length zpq.rxMsgBytesLeft) healthy.counter
      exact ⟨left, by simpa using ends, zero, low, fun compressed => by cases compressed⟩

/-- A stream that takes bytes from its buffer keeps its size. -/
theorem advance_bounded {next : ZpqStream algorithms} {count : Nat} (healthy : Healthy zpq)
    (within : count ≤ zpq.unread.length) (unread : next.unread = zpq.unread.drop count)
    (pos : next.pos = zpq.pos + count) : next.size ≤ bufferSize := by
  have bounded := healthy.bounded
  rw [size] at bounded ⊢
  rw [unread, pos, List.length_drop]
  omega

theorem supplied_unread (supplied : Supplied zpq) (flag : zsBuffered zpq.dStream = some false) :
    5 ≤ zpq.unread.length ∨ (0 < zpq.unread.length ∧ 0 < zpq.rxMsgBytesLeft) := by
  have enough := supplied.1 false flag
  simpa [bufferedRx] using enough

theorem readUncompressed_handles (healthy : Healthy zpq) (some_left : 0 < zpq.rxMsgBytesLeft)
    (flag : zsBuffered zpq.dStream = some false) {dstSize : Nat} (room : 0 < dstSize) :
    Handles zpq (zpq.readUncompressed dstSize).1 (zpq.readUncompressed dstSize).2 := by
  refine ⟨⟨?_, ?_, healthy.intact, healthy.reachable⟩, ?_⟩
  · exact advance_bounded healthy ((Nat.min_le_right _ _).trans (Nat.min_le_left _ _)) rfl rfl
  · exact (Nat.sub_le _ _).trans healthy.counter
  · intro again
    have nothing : min zpq.rxMsgBytesLeft (min zpq.unread.length dstSize) = 0 := by
      by_contra some_bytes
      simp [readUncompressed, some_bytes] at again
    have none : zpq.unread.length = 0 := by omega
    have same : work (zpq.readUncompressed dstSize).2 = work zpq := by
      simp [work, readUncompressed, nothing]
    refine ⟨same.le, fun supplied => ?_⟩
    have some_unread := supplied_unread supplied flag
    omega

/-- Bytes were taken, or what was pending is flushed. -/
theorem taken_handles (healthy : Healthy zpq) {count : Nat} {state : algorithms.State}
    (reachable : Reachable algorithms state) (within : count ≤ zpq.unread.length)
    {notFlushed flag : Bool} (before : zsBuffered zpq.dStream = some notFlushed) {turned : Turned}
    (forward : turned = .again → flag = false ∧ (0 < count ∨ notFlushed = true)) :
    Handles zpq turned (zpq.taken count state flag) := by
  refine ⟨⟨advance_bounded healthy within rfl rfl, (Nat.sub_le _ _).trans healthy.counter, ?_, ?_⟩,
    fun again => ?_⟩
  · intro freed
    cases freed
  · intro other _ same
    cases same
    exact reachable
  · obtain ⟨rfl, progress⟩ := forward again
    have lower : work (zpq.taken count state false) < work zpq := by
      have unread : (zpq.taken count state false).unread.length = zpq.unread.length - count :=
        List.length_drop
      have left : (zpq.taken count state false).rxMsgBytesLeft = zpq.rxMsgBytesLeft - count := rfl
      have quiet : ¬zsBuffered (zpq.taken count state false).dStream = some true := by
        simp [ZpqStream.taken]
      rw [work, work, unread, left, if_neg quiet]
      rcases Nat.eq_zero_or_pos count with rfl | some_bytes
      · have pending : notFlushed = true := progress.resolve_left (Nat.lt_irrefl 0)
        rw [pending] at before
        rw [if_pos before, Nat.sub_zero, Nat.sub_zero]
        omega
      · split_ifs <;> omega
    exact ⟨lower.le, fun _ => lower⟩

theorem readCompressedMessage_handles (lawful : Decompresses algorithms) (healthy : Healthy zpq)
    {notFlushed : Bool} (flag : zsBuffered zpq.dStream = some notFlushed)
    (some_stream : zpq.dStream.isNull = false)
    (input : notFlushed = false → 0 < zpq.rxMsgBytesLeft ∧ 0 < zpq.unread.length)
    {dstSize : Nat} (room : 0 < dstSize) :
    ∃ turned next, zpq.readCompressedMessage dstSize = some (turned, next) ∧
      Handles zpq turned next := by
  cases stream : zpq.dStream with
  | null => simp [stream, DStream.isNull] at some_stream
  | freed => exact absurd stream healthy.intact
  | live state flushed =>
      have reachable := healthy.reachable state flushed stream
      have within := lawful.within state reachable
        (zpq.unread.take (min zpq.rxMsgBytesLeft zpq.unread.length)) dstSize room
      have forward := lawful.forward state reachable
        (zpq.unread.take (min zpq.rxMsgBytesLeft zpq.unread.length)) dstSize room
      have pending := lawful.pending state reachable
        (zpq.unread.take (min zpq.rxMsgBytesLeft zpq.unread.length)) dstSize room
      have later := Reachable.read reachable
        (zpq.unread.take (min zpq.rxMsgBytesLeft zpq.unread.length)) room
      rw [readCompressedMessage, stream]
      dsimp only
      generalize algorithms.decompress state
        (zpq.unread.take (min zpq.rxMsgBytesLeft zpq.unread.length)) dstSize = read
        at within forward pending later
      have count : read.srcProcessed ≤ zpq.unread.length := by
        rw [List.length_take] at within
        omega
      have some_input : notFlushed = false →
          zpq.unread.take (min zpq.rxMsgBytesLeft zpq.unread.length) ≠ [] := by
        intro quiet none
        obtain ⟨left, unread⟩ := input quiet
        have length := congrArg List.length none
        rw [List.length_take, List.length_nil] at length
        omega
      have progress : read.code = .ok ∨ read.code = .streamEnd → read.output = [] →
          0 < read.srcProcessed ∨ notFlushed = true := by
        intro fine none
        cases flushed : notFlushed with
        | true => exact .inr rfl
        | false =>
            rcases forward (some_input flushed) (by rcases fine with same | same <;> simp [same])
              (by rcases fine with same | same <;> simp [same]) with taken | output
            · exact .inl taken
            · exact absurd none output
      cases code : read.code with
      | ok =>
          refine ⟨_, _, if_pos (.inl rfl), taken_handles healthy later count flag fun again => ?_⟩
          by_cases none : read.output = []
          · exact ⟨rfl, progress (.inl code) none⟩
          · rw [if_neg none] at again
            cases again
      | streamEnd =>
          refine ⟨_, _, if_pos (.inr rfl), taken_handles healthy later count flag fun again => ?_⟩
          by_cases none : read.output = []
          · exact ⟨rfl, progress (.inr code) none⟩
          · rw [if_neg none] at again
            cases again
      | dataPending =>
          refine ⟨_, _, if_pos (.inl rfl), taken_handles healthy later count flag fun again => ?_⟩
          rw [if_neg (pending code)] at again
          cases again
      | incompleteSrc =>
          refine ⟨_, _, if_neg (by simp [zsReadCode]), taken_handles healthy later count flag
            fun again => ?_⟩
          cases again
      | decompressError =>
          refine ⟨_, _, if_neg (by simp [zsReadCode]), taken_handles healthy later count flag
            fun again => ?_⟩
          cases again

/-- What a step with a decompressor that was not read from comes to. -/
theorem handles_of_unread {turned : Turned} {next : ZpqStream algorithms} (healthy : Healthy next)
    (flag : zsBuffered next.dStream ≠ some true) (left : zpq.rxMsgBytesLeft = 0)
    (less : next.unread.length < zpq.unread.length ∨
      (next.unread.length = zpq.unread.length ∧ 0 < next.rxMsgBytesLeft)) :
    Handles zpq turned next := by
  refine ⟨healthy, fun _ => ?_⟩
  have lower : work next < work zpq := by
    rw [work, work, if_neg flag, if_pos left]
    rcases less with fewer | ⟨same, counted⟩
    · split_ifs <;> omega
    · rw [if_neg (by omega), same]
      split_ifs <;> omega
  exact ⟨lower.le, fun _ => lower⟩

theorem toggleDecompression_handles (healthy : Healthy zpq) (toggles : zpq.toggles)
    {cStream : CStream} (fine : HeaderFine zpq cStream) :
    ∃ next, zpq.toggleDecompression = some next ∧ Handles zpq .again next := by
  obtain ⟨left, flag, _, five⟩ := toggles
  have quiet : zsBuffered zpq.dStream ≠ some true := by
    rw [flag]
    decide
  rw [HeaderFine] at fine
  unfold toggleDecompression
  by_cases setting : isSetCompressionMsg (zpq.unread.headD 0) = true
  · simp only [setting, if_true]
    refine ⟨_, if_pos five, handles_of_unread ⟨?_, healthy.counter, healthy.intact,
      healthy.reachable⟩ quiet left (.inl ?_)⟩
    · exact advance_bounded healthy five rfl rfl
    · dsimp only
      rw [List.length_drop]
      omega
  · rw [if_neg setting] at fine
    by_cases ack : isCompressionAck (zpq.unread.headD 0) = true
    · rw [if_pos ack] at fine
      obtain ⟨pos, whole, none, _⟩ := fine
      cases stream : zpq.dStream with
      | live state notFlushed => simp [stream, DStream.isNull] at none
      | freed => exact absurd stream healthy.intact
      | null =>
          simp only [setting, ack, restart, stream, zsDecompressorFree, bind, Option.bind, pure,
            if_true, if_false, Bool.false_eq_true]
          refine ⟨_, if_pos whole, handles_of_unread ⟨?_, healthy.counter, ?_, ?_⟩ ?_ left
            (.inl ?_)⟩
          · exact advance_bounded healthy whole rfl rfl
          · intro freed
            cases freed
          · intro state notFlushed same
            cases same
          · intro pending
            cases pending
          · dsimp only
            rw [List.length_drop]
            omega
    · rw [if_neg ack] at fine
      have small := msgSize_lt zpq.unread
      by_cases compressed : isCompressedMsg (zpq.unread.headD 0) = true
      · rw [if_pos compressed] at fine
        have payload : (msgSize zpq.unread + (2 ^ 64 - 5)) % 2 ^ 64 = msgSize zpq.unread - 5 := by
          omega
        simp only [setting, ack, compressed, payload, if_true, if_false, Bool.false_eq_true]
        refine ⟨_, if_pos five, handles_of_unread ⟨?_, ?_, healthy.intact, healthy.reachable⟩
          quiet left (.inl ?_)⟩
        · exact advance_bounded healthy five rfl rfl
        · dsimp only
          omega
        · dsimp only
          rw [List.length_drop]
          omega
      · rw [if_neg compressed] at fine
        simp only [setting, ack, compressed, if_false, Bool.false_eq_true]
        refine ⟨_, rfl, handles_of_unread ⟨healthy.bounded, ?_, healthy.intact, healthy.reachable⟩
          quiet left (.inr ⟨rfl, fine⟩)⟩
        dsimp only
        omega

theorem processSwitch_handles {nCompressors : Nat} (healthy : Healthy zpq)
    (switches : zpq.switches)
    (known : ∀ algorithmIdx ∈ zpq.unread.head?,
      (algorithmIdx.toNat : Int) = zpq.decompressAlgIdx ∨ algorithmIdx.toNat < nCompressors) :
    ∃ next, zpq.processSwitch nCompressors = some next ∧ Handles zpq .again next := by
  obtain ⟨left, flag, _⟩ := switches
  have quiet : zsBuffered zpq.dStream ≠ some true := by
    rw [flag]
    decide
  rw [processSwitch]
  cases unread : zpq.unread with
  | nil =>
      refine ⟨zpq, rfl, healthy, fun _ => ⟨le_refl _, fun supplied => ?_⟩⟩
      have some_unread := supplied_unread supplied flag
      rw [unread, List.length_nil] at some_unread
      omega
  | cons algorithmIdx rest =>
      have fewer : rest.length < zpq.unread.length := by
        rw [unread, List.length_cons]
        omega
      have size : zpq.pos + 1 + rest.length ≤ bufferSize := by
        have bounded := healthy.bounded
        rw [ZpqStream.size, unread, List.length_cons] at bounded
        omega
      rw [unread] at known
      by_cases same : (algorithmIdx.toNat : Int) = zpq.decompressAlgIdx
      · refine ⟨_, if_neg (not_not.mpr same), handles_of_unread
          ⟨size, healthy.counter, healthy.intact, healthy.reachable⟩ quiet left (.inl fewer)⟩
      · have within := (known algorithmIdx rfl).resolve_left same
        obtain ⟨dStream, freed⟩ : ∃ dStream, zsDecompressorFree zpq.dStream = some dStream := by
          cases stream : zpq.dStream with
          | null => exact ⟨.null, rfl⟩
          | live state notFlushed => exact ⟨.freed, rfl⟩
          | freed => exact absurd stream healthy.intact
        simp only [ne_eq, same, not_false_eq_true, if_true, freed, within, bind, Option.bind, pure]
        refine ⟨_, rfl, handles_of_unread ⟨size, healthy.counter, ?_, ?_⟩ ?_ left (.inl fewer)⟩
        · intro freed
          cases freed
        · intro state notFlushed same
          cases same
          exact .create _
        · intro pending
          cases pending

theorem handle_handles (lawful : Decompresses algorithms) (healthy : Healthy zpq)
    (nCompressors : Nat) (cStream : CStream) (toggled : zpq.toggles → HeaderFine zpq cStream)
    (switched : zpq.switches → ∀ algorithmIdx ∈ zpq.unread.head?,
      (algorithmIdx.toNat : Int) = zpq.decompressAlgIdx ∨ algorithmIdx.toNat < nCompressors)
    (decompressed : zpq.isDecompressing = true → 0 < zpq.rxMsgBytesLeft →
      zpq.rxMsgBytesLeft ≤ zpq.unread.length → zpq.dStream.isNull = false)
    {dstSize : Nat} (room : 0 < dstSize) :
    ∃ turned next, zpq.handle nCompressors dstSize = some (turned, next) ∧
      Handles zpq turned next := by
  obtain ⟨notFlushed, flag⟩ := healthy.buffered
  rw [handle, flag]
  dsimp only
  cases notFlushed with
  | true =>
      have live : zpq.dStream.isNull = false := by
        cases stream : zpq.dStream with
        | null => simp [stream, zsBuffered] at flag
        | _ => rfl
      simp only [Bool.or_true, if_true, Bool.not_true, Bool.false_and, Bool.false_eq_true, if_false]
      exact readCompressedMessage_handles lawful healthy flag live
        (fun quiet => by cases quiet) room
  | false =>
      simp only [Bool.or_false, Bool.not_false, Bool.true_and, decide_eq_true_eq]
      by_cases left : 0 < zpq.rxMsgBytesLeft
      · rw [if_pos left]
        by_cases compressed : zpq.isDecompressing = true
        · rw [if_pos compressed]
          by_cases short : zpq.unread.length < zpq.rxMsgBytesLeft
          · refine ⟨_, _, if_pos short, healthy, fun _ => ⟨le_refl _, fun supplied => ?_⟩⟩
            exact absurd ⟨compressed, short⟩ supplied.2
          · rw [if_neg short]
            exact readCompressedMessage_handles lawful healthy flag
              (decompressed compressed left (by omega)) (fun _ => ⟨left, by omega⟩) room
        · rw [if_neg compressed]
          exact ⟨_, _, rfl, readUncompressed_handles healthy left flag room⟩
      · have none : zpq.rxMsgBytesLeft = 0 := by omega
        rw [if_neg left]
        cases switching : zpq.readingSetCompression with
        | true =>
            obtain ⟨next, done, handles⟩ := processSwitch_handles healthy
              ⟨none, flag, switching⟩ (switched ⟨none, flag, switching⟩)
            exact ⟨.again, next, by rw [if_pos rfl, done, Option.map_some], handles⟩
        | false =>
            rw [if_neg Bool.false_ne_true]
            by_cases five : 5 ≤ zpq.unread.length
            · have toggles : zpq.toggles := ⟨none, flag, switching, five⟩
              obtain ⟨next, done, handles⟩ :=
                toggleDecompression_handles healthy toggles (toggled toggles)
              exact ⟨.again, next, by rw [if_pos five, done, Option.map_some], handles⟩
            · refine ⟨_, _, if_neg five, healthy, fun _ => ⟨le_refl _, fun supplied => ?_⟩⟩
              have some_unread := supplied_unread supplied flag
              omega

/-- Reading ahead moves nothing but a counter that was positive before and stays so. -/
theorem process_handles (lawful : Decompresses algorithms) (healthy : Healthy zpq)
    {nCompressors : Nat} {cStream : CStream} (fine : HeadersFine nCompressors zpq cStream)
    {dstSize : Nat} (room : 0 < dstSize) :
    ∃ turned next, zpq.process nCompressors dstSize = some (turned, next) ∧
      Handles zpq turned next := by
  obtain ⟨left, ends, zero, counter, kept⟩ := lookAhead_ends healthy fine.ahead
  have ahead : Healthy { zpq with rxMsgBytesLeft := left } :=
    ⟨healthy.bounded, counter, healthy.intact, healthy.reachable⟩
  obtain ⟨turned, next, done, keeps, less⟩ := handle_handles lawful ahead nCompressors cStream
    (fun toggles => fine.toggled ⟨zero.mp toggles.1, toggles.2⟩)
    (fun switches => fine.switched ⟨zero.mp switches.1, switches.2⟩)
    (fun compressed some_left whole => fine.decompressed compressed
      (kept compressed ▸ some_left) (kept compressed ▸ whole)) room
  have same : work { zpq with rxMsgBytesLeft := left } = work zpq := by
    simp only [work, zero]
  refine ⟨turned, next, by rw [process, ends]; exact done, keeps, fun again => ?_⟩
  obtain ⟨le, lower⟩ := less again
  refine ⟨same ▸ le, fun supplied => same ▸ lower ⟨fun notFlushed flag => ?_, ?_⟩⟩
  · have enough := supplied.1 notFlushed flag
    have positive : 0 < left ↔ 0 < zpq.rxMsgBytesLeft := by omega
    simpa only [bufferedRx, positive] using enough
  · rintro ⟨compressed, short⟩
    exact supplied.2 ⟨compressed, by rw [← kept compressed]; exact short⟩

end ZpqStream

/-! ## Runs -/

/-- A turn does nothing undefined and keeps the stream healthy, and another turn has less to do. -/
def GoesOn (nCompressors : Nat) (connection : Connection algorithms) (turn : Turn) : Prop :=
  ∃ turned next, connection.turn nCompressors turn = some (turned, next) ∧
    Healthy next.system.zpq ∧
    (turned = .again → effort next.system < effort connection.system)

theorem turn_goesOn (lawful : Decompresses algorithms) {nCompressors : Nat}
    {connection : Connection algorithms} (healthy : Healthy connection.system.zpq) {turn : Turn}
    (fine : Fine nCompressors connection (.read turn)) : GoesOn nCompressors connection turn := by
  rcases ZpqStream.fill_fed healthy connection.system.incoming turn.noblock turn.chunk with
    ⟨rc, failed⟩ | ⟨zpq, later, read, fed⟩
  · have none : connection.filled turn = none := by
      rw [Connection.filled, failed]
    refine ⟨.code rc, ⟨{ connection.system with zpq := connection.system.zpq.bufReuse },
      connection.cStream⟩, ?_, ⟨ZpqStream.bufReuse_bounded healthy.bounded, ?_, ?_, ?_⟩, ?_⟩
    · simp [Connection.turn, System.turn, failed, none]
    · rw [ZpqStream.bufReuse_rxMsgBytesLeft]
      exact healthy.counter
    · rw [ZpqStream.bufReuse_dStream]
      exact healthy.intact
    · rw [ZpqStream.bufReuse_dStream]
      exact healthy.reachable
    · intro again
      cases again
  · have filled : connection.filled turn = some zpq := by
      rw [Connection.filled, read]
    have headers := fine zpq filled
    obtain ⟨turned, next, done, keeps, less⟩ :=
      ZpqStream.process_handles lawful (fed.healthy healthy) headers turn.dst_pos
    have moved : connection.system.turn nCompressors turn = some (turned, ⟨next, later⟩) := by
      rw [System.turn, read]
      dsimp only
      rw [done]
    obtain ⟨cStream, goes⟩ : ∃ cStream, connection.turn nCompressors turn =
        some (turned, ⟨⟨next, later⟩, cStream⟩) := by
      rw [Connection.turn, moved]
      dsimp only
      split
      · rename_i restarts
        obtain ⟨other, member, toggles, unset, ack⟩ := restarts
        rw [filled] at member
        cases member
        have harmless := headers.toggled toggles
        rw [HeaderFine, unset, ack] at harmless
        cases stream : connection.cStream with
        | null => exact ⟨_, rfl⟩
        | live => exact ⟨_, rfl⟩
        | freed => exact absurd stream harmless.2.2.2
      · exact ⟨_, rfl⟩
    refine ⟨turned, _, goes, keeps, fun again => ?_⟩
    obtain ⟨le, lower⟩ := less again
    rw [effort, effort]
    dsimp only
    have work_next : work zpq + 8 * connection.system.zpq.unread.length =
        work connection.system.zpq + 8 * zpq.unread.length := by
      rw [work, work, fed.dStream, fed.left]
      omega
    rcases fed.supply with ⟨fewer, total⟩ | ⟨rfl, unread, enough⟩
    · omega
    · have smaller := lower enough
      rw [unread] at work_next
      omega

/--
As long as every header is harmless when it is handled, `zpq_read` withstands
whatever bytes arrive in whatever pieces.
-/
theorem zpqRead_withstands (lawful : Decompresses algorithms) (nCompressors : Nat)
    (received incoming : List UInt8) (small : received.length ≤ bufferSize) (calls : List Call)
    (guarded : Guarded (Connection.step nCompressors) (Fine nCompressors)
      (Connection.start algorithms received incoming) calls) :
    ∀ connection ∈ visited (Connection.step nCompressors)
        (Connection.start algorithms received incoming) calls,
      Healthy connection.system.zpq ∧
        ∀ turn, Fine nCompressors connection (.read turn) → GoesOn nCompressors connection turn := by
  intro connection member
  have healthy := visited_safe (fun connection : Connection algorithms =>
      Healthy connection.system.zpq)
    (by
      intro connection call next healthy fine step
      cases call with
      | read turn =>
          obtain ⟨turned, after, done, keeps, -⟩ := turn_goesOn lawful healthy fine
          rw [Connection.step, done, Option.map_some] at step
          cases step
          exact keeps
      | write =>
          rw [Connection.step, Option.map_eq_some_iff] at step
          obtain ⟨_, _, rfl⟩ := step
          exact healthy)
    ⟨by simpa [Connection.start, System.start, ZpqStream.create, ZpqStream.size] using small,
      Nat.zero_le _, by simp [Connection.start, System.start, ZpqStream.create],
      by simp [Connection.start, System.start, ZpqStream.create]⟩ guarded connection member
  exact ⟨healthy, fun turn fine => turn_goesOn lawful healthy fine⟩

/-! ## Decompressors that take everything -/

/-- What was handed out is a part of what was decoded. -/
theorem greedy_given {output : Nat → List UInt8 → List UInt8}
    (output_grows : ∀ index first more, output index first <+: output index (first ++ more))
    {state : (greedy output).State} (reachable : Reachable (greedy output) state) :
    state.2.2 <+: output state.1 state.2.1 := by
  induction reachable with
  | create index => exact List.nil_prefix
  | read before src room ih =>
      obtain ⟨pending, decoded⟩ := ih.trans (output_grows _ _ src)
      simp only [greedy, ← decoded, List.drop_left]
      exact (List.prefix_append_right_inj _).mpr (List.take_prefix _ pending)

theorem greedy_decompresses {output : Nat → List UInt8 → List UInt8}
    (output_grows : ∀ index first more, output index first <+: output index (first ++ more)) :
    Decompresses (greedy output) := by
  refine ⟨fun state _ src dstLen _ => le_refl _, fun state _ src dstLen _ filled _ _ => ?_,
    fun state reachable src dstLen room code none => ?_⟩
  · exact .inl (List.length_pos_iff.mpr filled)
  · obtain ⟨pending, decoded⟩ := (greedy_given output_grows reachable).trans (output_grows _ _ src)
    simp only [greedy, ← decoded, List.drop_left] at code none
    have all : pending = [] := by
      rcases List.take_eq_nil_iff.mp none with zero | nothing
      · omega
      · exact nothing
    rw [all, List.take_nil, if_pos rfl] at code
    cases code

/-! ## Checking a header -/

/-- A loop that ends met no header of size zero. -/
theorem ahead_of_ends {unread : List UInt8} {turns left final : Nat}
    (ends : ZpqStream.readAhead unread turns left = some final) :
    ∀ later, Ahead unread left later → 0 < msgSize (unread.drop later) := by
  induction turns generalizing left with
  | zero =>
      intro later ahead
      have passes : Passes unread left := by
        cases ahead <;> assumption
      rw [Passes] at passes
      rw [ZpqStream.readAhead] at ends
      exact absurd ((if_pos passes).symm.trans ends) nofun
  | succ turns ih =>
      intro later ahead
      have passes : Passes unread left := by
        cases ahead <;> assumption
      rw [Passes] at passes
      rw [ZpqStream.readAhead] at ends
      have again := (if_pos passes).symm.trans ends
      cases ahead with
      | here passes =>
          by_contra none
          have zero : msgSize (unread.drop left) = 0 := by omega
          rw [zero, Nat.add_zero] at again
          exact none (ih again left (.here passes))
      | behind _ ahead => exact ih again later ahead

instance (zpq : ZpqStream algorithms) (cStream : CStream) : Decidable (HeaderFine zpq cStream) := by
  unfold HeaderFine
  infer_instance

def Checked (nCompressors : Nat) (connection : Connection algorithms) : Call → Prop
  | .read turn => ∀ zpq ∈ connection.filled turn, zpq.lookAhead.isSome = true ∧
      (zpq.toggles → HeaderFine zpq connection.cStream) ∧
      (zpq.switches → ∀ algorithmIdx ∈ zpq.unread.head?,
        (algorithmIdx.toNat : Int) = zpq.decompressAlgIdx ∨ algorithmIdx.toNat < nCompressors) ∧
      (zpq.isDecompressing = true → 0 < zpq.rxMsgBytesLeft →
        zpq.rxMsgBytesLeft ≤ zpq.unread.length → zpq.dStream.isNull = false)
  | .write => connection.cStream ≠ .freed

instance (nCompressors : Nat) (connection : Connection algorithms) :
    (call : Call) → Decidable (Checked nCompressors connection call)
  | .read _ => inferInstanceAs (Decidable (∀ zpq ∈ _, _ ∧ _ ∧ _ ∧ _))
  | .write => inferInstanceAs (Decidable (_ ≠ _))

theorem fine_of_checked {nCompressors : Nat} (connection : Connection algorithms) (call : Call)
    (checked : Checked nCompressors connection call) : Fine nCompressors connection call := by
  cases call with
  | write => exact checked
  | read turn =>
      intro zpq member
      obtain ⟨ends, toggled, switched, decompressed⟩ := checked zpq member
      refine ⟨fun plain => ?_, toggled, switched, decompressed⟩
      obtain ⟨final, ends⟩ := Option.isSome_iff_exists.mp ends
      rw [ZpqStream.lookAhead, plain] at ends
      exact ahead_of_ends ends

/-! ## A run -/

theorem zpqRead_withstands_fourMessages :
    Decompresses (greedy literalOutput) ∧ ([] : List UInt8).length ≤ bufferSize ∧
      Guarded (Connection.step 1) (Fine 1)
        (Connection.start (greedy literalOutput) [] (encodeAll fourMessages))
        (.write :: List.replicate 9 (.read nineBytes)) ∧
      ∀ connection ∈ visited (Connection.step 1)
          (Connection.start (greedy literalOutput) [] (encodeAll fourMessages))
          (.write :: List.replicate 9 (.read nineBytes)),
        Healthy connection.system.zpq ∧
          ∀ turn, Fine 1 connection (.read turn) → GoesOn 1 connection turn := by
  have lawful : Decompresses (greedy literalOutput) :=
    greedy_decompresses literalInverse.output_grows
  have guarded : Guarded (Connection.step 1) (Fine 1)
      (Connection.start (greedy literalOutput) [] (encodeAll fourMessages))
      (.write :: List.replicate 9 (.read nineBytes)) := by
    refine Guarded.mono fine_of_checked ?_
    decide +kernel
  exact ⟨lawful, by decide, guarded, zpqRead_withstands lawful 1 [] (encodeAll fourMessages)
    (by decide) _ guarded⟩

/-- The header of a compressed message with a length word that is too small. -/
def shortHeader : List UInt8 := [109, 0, 0, 0, 3]

/-- A compressed message shorter than its header leaves a counter that has wrapped around. -/
theorem zpqRead_withstands_wrong :
    ¬ ∀ (algorithms : Algorithms), Decompresses algorithms → ∀ (nCompressors : Nat)
      (received incoming : List UInt8), received.length ≤ bufferSize → ∀ calls : List Call,
      ∀ connection ∈ visited (Connection.step nCompressors)
          (Connection.start algorithms received incoming) calls,
        Healthy connection.system.zpq ∧
          ∀ turn, GoesOn nCompressors connection turn := by
  intro every
  have wraps : ∃ connection ∈ visited (Connection.step 1)
      (Connection.start (greedy literalOutput) [] shortHeader) [.read nineBytes],
      bufferSize + 2 ^ 32 < connection.system.zpq.rxMsgBytesLeft := by
    have found : (visited (Connection.step 1)
        (Connection.start (greedy literalOutput) [] shortHeader) [.read nineBytes]).any
        (fun connection => bufferSize + 2 ^ 32 < connection.system.zpq.rxMsgBytesLeft) = true := by
      decide +kernel
    simpa only [List.any_eq_true, decide_eq_true_eq] using found
  obtain ⟨connection, member, high⟩ := wraps
  have healthy := (every _ (greedy_decompresses literalInverse.output_grows) 1 [] shortHeader
    (by decide) _ connection member).1
  have low := healthy.counter
  omega

end RedshiftOdbc.Zpq

import RedshiftOdbc.Zpq.Delivery

/-!
# Calls of `zpq_read`

A turn of the loop of `zpq_read` keeps what is left to return, so a whole run of
calls returns what the messages stand for.  A call ends after finitely many
turns, and once all bytes have arrived it returns a part of what is left.
-/

namespace RedshiftOdbc.Zpq

variable {algorithms : Algorithms} {inverse : StreamingInverse algorithms} {nCompressors : Nat}

/-- The stream stands soundly before what is left to return. -/
structure Sound (inverse : StreamingInverse algorithms) (nCompressors : Nat)
    (system : System algorithms) (rest : List UInt8) : Prop where
  stands : Stands inverse nCompressors system.zpq (system.zpq.unread ++ system.incoming) rest
  roomy : Roomy system.zpq

/-- Whenever the turn handles the header of an acknowledgement, all of it has arrived. -/
def AckBuffered (system : System algorithms) (turn : Turn) : Prop :=
  match system.zpq.fill system.incoming turn.noblock turn.chunk with
  | some (.ok (zpq, _)) => AckWhole zpq
  | _ => True

instance (zpq : ZpqStream algorithms) : Decidable (AckWhole zpq) :=
  inferInstanceAs (Decidable (_ → _ → _ → _ → _ → _))

instance (system : System algorithms) (turn : Turn) : Decidable (AckBuffered system turn) :=
  match read : system.zpq.fill system.incoming turn.noblock turn.chunk with
  | none => isTrue (by simp [AckBuffered, read])
  | some (.error _) => isTrue (by simp [AckBuffered, read])
  | some (.ok (zpq, _)) => decidable_of_iff (AckWhole zpq) (by simp [AckBuffered, read])

/-- A bound on the turns of a call. -/
def effort (system : System algorithms) : Nat :=
  16 * system.incoming.length + work system.zpq

/-- Reading leaves the flag and the counter that the work depends on. -/
theorem work_filled {zpq next : ZpqStream algorithms} {incoming later rest : List UInt8}
    (filled : @Filled _ inverse nCompressors zpq next incoming later rest) :
    work next + 8 * zpq.unread.length = work zpq + 8 * next.unread.length := by
  rw [work, work, filled.dStream, filled.left]
  omega

/-- What a turn comes to when `rest` is left to return. -/
inductive Comes (system : System algorithms) (turn : Turn) (rest : List UInt8) :
    Turned → System algorithms → List UInt8 → Prop where
  | failed {rc : Int} {next : System algorithms} (kind : rc ≠ zsBufferError)
      (read : system.zpq.fill system.incoming turn.noblock turn.chunk = some (.error rc))
      (ends : Hands turn.noblock turn.chunk → system.incoming = []) :
      Comes system turn rest (.code rc) next rest
  | returned {bytes rest' : List UInt8} {next : System algorithms} (some_bytes : bytes ≠ [])
      (split : rest = bytes ++ rest') : Comes system turn rest (.data bytes) next rest'
  | continued {next : System algorithms} (less : effort next < effort system) :
      Comes system turn rest .again next rest

/-- One turn returns the next bytes of what is left, fails harmlessly, or has less to do. -/
theorem turn_sound {system : System algorithms} {rest : List UInt8}
    (sound : Sound inverse nCompressors system rest) {turn : Turn}
    (ack : AckBuffered system turn) :
    ∃ turned next rest', system.turn nCompressors turn = some (turned, next) ∧
      Sound inverse nCompressors next rest' ∧ Comes system turn rest turned next rest' := by
  rcases ZpqStream.fill_cases sound.stands sound.roomy turn.noblock turn.chunk with
    ⟨rc, failed, kind, ends⟩ | ⟨zpq, later, read, filled⟩
  · refine ⟨.code rc, { system with zpq := system.zpq.bufReuse }, rest, ?_, ⟨?_, ?_⟩,
      .failed kind failed ends⟩
    · rw [System.turn, failed]
    · rw [ZpqStream.bufReuse_unread]
      exact system.zpq.bufReuse_stands sound.stands
    · rcases system.zpq.bufReuse_roomy sound.roomy with far | ⟨compressed, -, near, room⟩
      · exact .inl far
      · exact .inr ⟨compressed, by simpa using near, by simpa using room⟩
  · rw [AckBuffered, read] at ack
    obtain ⟨turned, next, done, roomy, rest', stands, outcome⟩ :=
      process_goes filled.stands filled.roomy ack turn.dst_pos
    have same := work_filled filled
    rcases outcome with ⟨bytes, some_bytes, rfl, split⟩ | ⟨rfl, rfl, le, less⟩
    · refine ⟨.data bytes, ⟨next, later⟩, rest', ?_, ⟨stands, roomy⟩,
        .returned some_bytes split⟩
      rw [System.turn, read]
      simp only [done]
    · refine ⟨.again, ⟨next, later⟩, rest, ?_, ⟨stands, roomy⟩, .continued ?_⟩
      · rw [System.turn, read]
        simp only [done]
      · rw [effort, effort]
        rcases filled.supply with ⟨read_some, total⟩ | ⟨rfl, unread, enough⟩
        · simp only
          omega
        · have smaller := less enough
          simp only
          rw [unread] at same
          omega

/-- With everything arrived nothing need be read while something is left to return. -/
theorem supplied_of_arrived {zpq : ZpqStream algorithms} {rest : List UInt8}
    (stands : Stands inverse nCompressors zpq (zpq.unread ++ []) rest) (some_left : rest ≠ []) :
    Supplied zpq := by
  have first_message : ∀ {method : Method} {messages : List Message},
      deliver inverse method messages ≠ [] → 5 ≤ (encodeAll messages).length := by
    intro method messages something
    cases messages with
    | nil => exact absurd rfl something
    | cons message messages =>
        rw [encodeAll_cons, List.length_append, encode_length]
        omega
  cases stands with
  | boundary method messages pending notFlushed left settled decodes shape readable =>
      have flag := decodes_buffered decodes
      refine ⟨fun other same => ?_, fun waits => by omega⟩
      rw [flag] at same
      cases same
      cases notFlushed with
      | true => simp [ZpqStream.bufferedRx]
      | false =>
          have silent : pending = [] := by
            cases method with
            | none => exact decodes.2.2.2.1
            | some method =>
                obtain ⟨-, _, _, -, -, -, -, silent⟩ := decodes
                exact silent rfl rfl
          rw [silent, List.nil_append] at some_left
          have enough := first_message some_left
          rw [← shape, List.append_nil] at enough
          simp [ZpqStream.bufferedRx, enough]
  | plain method messages rest left filled uncompressed settled decodes shape readable =>
      have positive := List.length_pos_iff.mpr filled
      have total := congrArg List.length shape
      simp only [List.append_nil, List.length_append] at total
      refine ⟨fun other same => ?_, fun waits => by simp [uncompressed] at waits⟩
      have unread : 0 < zpq.unread.length := by omega
      have left_pos : 0 < zpq.rxMsgBytesLeft := by omega
      simp [ZpqStream.bufferedRx, unread, left_pos]
  | payload index consumed messages payload pending notFlushed left filled compressed settled
      decodes shape readable room whole =>
      have positive := List.length_pos_iff.mpr filled
      have total := congrArg List.length shape
      simp only [List.append_nil, List.length_append] at total
      refine ⟨fun other same => ?_, fun waits => by omega⟩
      have unread : 0 < zpq.unread.length := by omega
      have left_pos : 0 < zpq.rxMsgBytesLeft := by omega
      simp [ZpqStream.bufferedRx, unread, left_pos]
  | switching method messages algorithmIdx left switching known decodes shape readable =>
      have enough := first_message some_left
      have total := congrArg List.length shape
      simp only [List.append_nil, List.length_cons] at total
      refine ⟨fun other same => ?_, fun waits => by omega⟩
      have unread : 5 ≤ zpq.unread.length := by omega
      simp [ZpqStream.bufferedRx, unread]

/-- Nothing is read when there is enough in the buffer. -/
theorem fill_supplied {zpq : ZpqStream algorithms} (supplied : Supplied zpq.bufReuse)
    {notFlushed : Bool} (flag : zsBuffered zpq.bufReuse.dStream = some notFlushed)
    (incoming : List UInt8) (noblock : Bool) (chunk : Option Nat) :
    zpq.fill incoming noblock chunk = some (.ok (zpq.bufReuse, incoming)) := by
  have enough := supplied.1 notFlushed flag
  have complete := supplied.2
  simp only [ZpqStream.fill, flag, bind, Option.bind, pure, enough, Bool.not_true, Bool.false_or]
  rw [if_neg]
  rw [Bool.and_eq_true, decide_eq_true_eq]
  exact complete

/-- While something is left to return, a turn for which bytes are handed over does not fail. -/
theorem fill_hands {system : System algorithms} {rest : List UInt8}
    (sound : Sound inverse nCompressors system rest) (some_left : rest ≠ []) {turn : Turn}
    {rc : Int}
    (failed : system.zpq.fill system.incoming turn.noblock turn.chunk = some (.error rc))
    (ends : Hands turn.noblock turn.chunk → system.incoming = []) :
    ¬Hands turn.noblock turn.chunk := by
  intro hands
  have arrived := ends hands
  have stands := system.zpq.bufReuse_stands sound.stands
  rw [arrived, ← ZpqStream.bufReuse_unread] at stands
  obtain ⟨notFlushed, flag⟩ := stands.buffered
  have read := fill_supplied (supplied_of_arrived stands some_left) flag system.incoming
    turn.noblock turn.chunk
  rw [read] at failed
  cases failed

/-! ## Calls -/

variable (nCompressors) in
/-- Every acknowledgement that the turns of a call handle has arrived. -/
def CallBuffered : System algorithms → List Turn → Prop
  | _, [] => True
  | system, turn :: turns =>
      AckBuffered system turn ∧
        match system.turn nCompressors turn with
        | some (.again, next) => CallBuffered next turns
        | _ => True

variable (nCompressors) in
/-- The same for calls one after the other. -/
def CallsBuffered : System algorithms → List (List Turn) → Prop
  | _, [] => True
  | system, call :: rest =>
      CallBuffered nCompressors system call ∧
        match system.zpqRead nCompressors call with
        | some (_, next) => CallsBuffered next rest
        | none => True

instance CallBuffered.decidable : (system : System algorithms) → (turns : List Turn) →
    Decidable (CallBuffered nCompressors system turns)
  | _, [] => isTrue trivial
  | system, turn :: turns =>
      match done : system.turn nCompressors turn with
      | some (.again, next) =>
          have := CallBuffered.decidable next turns
          decidable_of_iff (AckBuffered system turn ∧ CallBuffered nCompressors next turns)
            (by simp [CallBuffered, done])
      | some (.data _, _) =>
          decidable_of_iff (AckBuffered system turn) (by simp [CallBuffered, done])
      | some (.code _, _) =>
          decidable_of_iff (AckBuffered system turn) (by simp [CallBuffered, done])
      | none => decidable_of_iff (AckBuffered system turn) (by simp [CallBuffered, done])

instance CallsBuffered.decidable : (system : System algorithms) → (calls : List (List Turn)) →
    Decidable (CallsBuffered nCompressors system calls)
  | _, [] => isTrue trivial
  | system, call :: rest =>
      match done : system.zpqRead nCompressors call with
      | some (_, next) =>
          have := CallsBuffered.decidable next rest
          decidable_of_iff
            (CallBuffered nCompressors system call ∧ CallsBuffered nCompressors next rest)
            (by simp [CallsBuffered, done])
      | none =>
          decidable_of_iff (CallBuffered nCompressors system call) (by simp [CallsBuffered, done])

/--
A call returns the next bytes of what is left, some of them when `rx_func` hands bytes over
and the call is over.
-/
theorem zpqRead_sound (turns : List Turn) {system : System algorithms} {rest : List UInt8}
    (sound : Sound inverse nCompressors system rest)
    (ack : CallBuffered nCompressors system turns) :
    ∃ turned next rest', system.zpqRead nCompressors turns = some (turned, next) ∧
      Sound inverse nCompressors next rest' ∧ rest = turned.bytes ++ rest' ∧
      turned ≠ .code zsBufferError ∧
      (turned ≠ .again → (∀ turn ∈ turns, Hands turn.noblock turn.chunk) → rest ≠ [] →
        turned.bytes ≠ []) := by
  induction turns generalizing system with
  | nil =>
      exact ⟨.again, system, rest, rfl, sound, rfl, by simp, fun unfinished => absurd rfl unfinished⟩
  | cons turn turns ih =>
      obtain ⟨first, later⟩ := ack
      obtain ⟨turned, next, rest', done, sound', comes⟩ := turn_sound sound first
      rw [done] at later
      rw [System.zpqRead, done]
      cases comes with
      | failed kind failed ends =>
          refine ⟨_, _, _, rfl, sound', rfl, ?_, fun _ hands some_left => ?_⟩
          · rintro full
            cases full
            exact kind rfl
          · exact absurd (hands turn (List.mem_cons_self ..)) (fill_hands sound some_left failed ends)
      | returned some_bytes split =>
          exact ⟨_, _, _, rfl, sound', split, by simp, fun _ _ _ => some_bytes⟩
      | continued less =>
          obtain ⟨turned, last, rest', done, sound'', split, kind, more⟩ := ih sound' later
          exact ⟨turned, last, rest', done, sound'', split, kind, fun ended hands =>
            more ended fun turn member => hands turn (List.mem_cons_of_mem _ member)⟩

/-- A call is over after finitely many turns. -/
theorem zpqRead_ends (turns : List Turn) {system : System algorithms} {rest : List UInt8}
    (sound : Sound inverse nCompressors system rest)
    (ack : CallBuffered nCompressors system turns) (enough : effort system < turns.length) :
    ∃ turned next, system.zpqRead nCompressors turns = some (turned, next) ∧ turned ≠ .again := by
  induction turns generalizing system with
  | nil => simp at enough
  | cons turn turns ih =>
      obtain ⟨first, later⟩ := ack
      obtain ⟨turned, next, rest', done, sound', comes⟩ := turn_sound sound first
      rw [done] at later
      rw [List.length_cons] at enough
      rw [System.zpqRead, done]
      cases comes with
      | failed kind read ends => exact ⟨_, _, rfl, by simp⟩
      | returned some_bytes split => exact ⟨_, _, rfl, by simp⟩
      | continued less => exact ih sound' later (by omega)

/-- Calls return the beginning of what is left, all of it when enough of them are handed bytes. -/
theorem calls_sound (calls : List (List Turn)) {system : System algorithms} {rest : List UInt8}
    (sound : Sound inverse nCompressors system rest)
    (ack : CallsBuffered nCompressors system calls) :
    ∃ results last rest', system.calls nCompressors calls = some (results, last) ∧
      Sound inverse nCompressors last rest' ∧ rest = returned results ++ rest' ∧
      (∀ turned ∈ results, turned ≠ .code zsBufferError) ∧
      ((∀ call ∈ calls, ∀ turn ∈ call, Hands turn.noblock turn.chunk) →
        (∀ turned ∈ results, turned ≠ .again) → rest.length ≤ calls.length → rest' = []) := by
  induction calls generalizing system rest with
  | nil =>
      exact ⟨[], system, rest, rfl, sound, rfl, by simp, fun _ _ none =>
        List.length_eq_zero_iff.mp (Nat.le_zero.mp none)⟩
  | cons call calls ih =>
      obtain ⟨first, later⟩ := ack
      obtain ⟨turned, next, rest', done, sound', split, kind, some_bytes⟩ :=
        zpqRead_sound call sound first
      rw [done] at later
      obtain ⟨results, last, rest'', goes, sound'', split', kinds, all⟩ := ih sound' later
      refine ⟨turned :: results, last, rest'', ?_, sound'', ?_, ?_, ?_⟩
      · rw [System.calls, done]
        simp only [goes, Option.map_some]
      · rw [split, split', returned, returned, List.flatMap_cons, List.append_assoc]
      · intro other member
        rcases List.mem_cons.mp member with rfl | member
        · exact kind
        · exact kinds other member
      · intro hands ended enough
        refine all (fun call member => hands call (List.mem_cons_of_mem _ member))
          (fun turned member => ended turned (List.mem_cons_of_mem _ member)) ?_
        have total := congrArg List.length split
        rw [List.length_append] at total
        rw [List.length_cons] at enough
        by_cases some_left : rest = []
        · rw [some_left, List.length_nil] at total
          omega
        · have returns := List.length_pos_iff.mpr
            (some_bytes (ended turned (List.mem_cons_self ..)) (hands call (List.mem_cons_self ..))
              some_left)
          omega

variable (algorithms) in
/-- The stream before its first call, with the bytes that were read before. -/
def System.start (received incoming : List UInt8) : System algorithms :=
  ⟨.create algorithms received, incoming⟩

theorem sound_start {messages : List Message} {received incoming : List UInt8}
    (readable : Readable inverse nCompressors none messages)
    (all : received ++ incoming = encodeAll messages)
    (small : received.length + maxDataTrunk ≤ bufferSize) :
    Sound inverse nCompressors (System.start algorithms received incoming)
      (deliver inverse none messages) := by
  refine ⟨?_, .inl ?_⟩
  · exact .boundary none messages [] false rfl rfl ⟨rfl, rfl, rfl, rfl, rfl⟩ all readable
  · rw [ZpqStream.size]
    change 0 + received.length + maxDataTrunk ≤ bufferSize
    omega

theorem throughout_and {first second : Method → Message → Prop} {method : Method}
    {messages : List Message} (left : Throughout first method messages)
    (right : Throughout second method messages) :
    Throughout (fun method message => first method message ∧ second method message) method
      messages := by
  induction messages generalizing method with
  | nil => trivial
  | cons message messages ih => exact ⟨⟨left.1, right.1⟩, ih left.2 right.2⟩

/--
Whatever calls are made, what they have returned is the beginning of what the messages stand
for, and none of them found the buffer full.  A further call is over after finitely many
turns, and when `rx_func` hands bytes over in calls that are as many as the bytes expected,
what was returned is all that the messages stand for.
-/
def Delivers (nCompressors : Nat) (expected : List UInt8) (start : System algorithms)
    (calls : List (List Turn)) : Prop :=
  ∃ results system, start.calls nCompressors calls = some (results, system) ∧
    returned results <+: expected ∧ (∀ turned ∈ results, turned ≠ .code zsBufferError) ∧
    (∃ bound, ∀ call : List Turn, bound ≤ call.length → CallBuffered nCompressors system call →
      ∃ turned next, system.zpqRead nCompressors call = some (turned, next) ∧ turned ≠ .again) ∧
    ∀ more, CallsBuffered nCompressors system more →
      (∀ call ∈ more, ∀ turn ∈ call, Hands turn.noblock turn.chunk) →
      ∃ results' last, system.calls nCompressors more = some (results', last) ∧
        ((∀ turned ∈ results', turned ≠ .again) → expected.length ≤ more.length →
          returned (results ++ results') = expected)

/--
In every run of calls whose acknowledgements are handled when they have arrived,
`zpq_read` returns what the messages stand for, in order and to the end.
-/
theorem zpqRead_delivers (inverse : StreamingInverse algorithms) (nCompressors : Nat)
    (messages : List Message) (formed : Throughout (WellFormed inverse nCompressors) none messages)
    (harmless : Throughout Harmless none messages) (received incoming : List UInt8)
    (all : received ++ incoming = encodeAll messages)
    (small : received.length + maxDataTrunk ≤ bufferSize) (calls : List (List Turn))
    (ack : CallsBuffered nCompressors (System.start algorithms received incoming) calls) :
    Delivers nCompressors (deliver inverse none messages)
      (System.start algorithms received incoming) calls := by
  have start : Sound inverse nCompressors (System.start algorithms received incoming)
      (deliver inverse none messages) := sound_start (throughout_and formed harmless) all small
  obtain ⟨results, system, rest, done, sound, split, kinds, -⟩ := calls_sound calls start ack
  refine ⟨results, system, done, ⟨rest, split.symm⟩, kinds,
    ⟨effort system + 1, fun call enough ack => zpqRead_ends call sound ack enough⟩,
    fun more ack hands => ?_⟩
  obtain ⟨results', last, rest', goes, -, split', -, ends⟩ := calls_sound more sound ack
  refine ⟨results', last, goes, fun ended enough => ?_⟩
  have total := congrArg List.length split
  rw [List.length_append] at total
  have nothing := ends hands ended (by omega)
  rw [split, split', nothing, List.append_nil, returned, returned, returned, List.flatMap_append]

/-- A block of one literal, the letter `A`, as LZ4 writes it. -/
def literalBlock : List UInt8 := [16, 65]

/-- What the first bytes of that block decompress to. -/
def literalOutput (_ : Nat) (compressed : List UInt8) : List UInt8 :=
  if compressed.take 2 = literalBlock then [65] else []

def literalInverse : StreamingInverse (greedy literalOutput) :=
  greedyInverse literalOutput (fun _ => rfl) (by
    intro _ first more
    rw [literalOutput]
    split
    · next block =>
        have enough : 2 ≤ first.length := by
          have length := congrArg List.length block
          simp only [List.length_take, literalBlock, List.length_cons, List.length_nil] at length
          omega
        have longer : ∀ index, literalOutput index (first ++ more) = [65] := by
          intro index
          rw [literalOutput, List.take_append_of_le_length enough, if_pos block]
        exact ⟨[], by rw [List.append_nil, longer]⟩
    · exact List.nil_prefix)

/-- An acknowledgement, a method, a compressed block and a plain message. -/
def fourMessages : List Message :=
  [.compressionAck [], .setCompressionMethod 0, .compressedData literalBlock, .plain 68 [66]]

/-- A turn that reads up to nine bytes. -/
def nineBytes : Turn := ⟨100, false, some 9, by decide⟩

def sevenCalls : List (List Turn) := List.replicate 7 (List.replicate 6 nineBytes)

theorem zpqRead_delivers_fourMessages :
    ∃ results last, (System.start (greedy literalOutput) [] (encodeAll fourMessages)).calls 1
        sevenCalls = some (results, last) ∧
      returned results = deliver literalInverse none fourMessages := by
  have formed : Throughout (WellFormed literalInverse 1) none fourMessages := by
    refine ⟨⟨by decide, trivial⟩, ⟨by decide, by decide⟩, ⟨by decide, by decide, 0, [], rfl, trivial⟩,
      ⟨by decide, by decide⟩, trivial⟩
  have harmless : Throughout Harmless none fourMessages :=
    ⟨⟨by decide, rfl⟩, ⟨by decide, trivial⟩, ⟨by decide, trivial⟩, ⟨by decide, trivial⟩, trivial⟩
  obtain ⟨results, system, none, -, -, -, more⟩ := zpqRead_delivers literalInverse 1 fourMessages
    formed harmless [] (encodeAll fourMessages) rfl (by decide) [] trivial
  cases none
  have hands : ∀ call ∈ sevenCalls, ∀ turn ∈ call, Hands turn.noblock turn.chunk := by
    intro call member turn inside
    rw [List.eq_of_mem_replicate member] at inside
    rw [List.eq_of_mem_replicate inside]
    exact ⟨rfl, by decide⟩
  have ack : CallsBuffered 1 (System.start (greedy literalOutput) [] (encodeAll fourMessages))
      sevenCalls := by
    decide +kernel
  obtain ⟨results, last, done, all⟩ := more sevenCalls ack hands
  have ended : ((System.start (greedy literalOutput) [] (encodeAll fourMessages)).calls 1
      sevenCalls).all (fun read => read.1.all (· ≠ .again)) = true := by
    decide +kernel
  rw [done, Option.all_some, List.all_eq_true] at ended
  exact ⟨results, last, done, all (fun turned member => of_decide_eq_true (ended turned member))
    (by decide)⟩

/-- An acknowledgement behind a method leaves a pointer to freed memory. -/
theorem zpqRead_delivers_wrong :
    ¬ ∀ (algorithms : Algorithms) (inverse : StreamingInverse algorithms) (nCompressors : Nat)
      (messages : List Message), Throughout (WellFormed inverse nCompressors) none messages →
      ∀ received incoming : List UInt8, received ++ incoming = encodeAll messages →
      received.length + maxDataTrunk ≤ bufferSize → ∀ calls : List (List Turn),
      Delivers nCompressors (deliver inverse none messages)
        (System.start algorithms received incoming) calls := by
  intro every
  have formed : Throughout (WellFormed literalInverse 1) none
      [.setCompressionMethod 0, .compressionAck []] := by
    refine ⟨⟨by decide, by decide⟩, ⟨by decide, trivial⟩, trivial⟩
  obtain ⟨results, system, done, -⟩ := every _ literalInverse 1 _ formed
    (encodeAll [.setCompressionMethod 0, .compressionAck []]) [] (List.append_nil _) (by decide)
    [List.replicate 4 nineBytes]
  have undefined : ((System.start (greedy literalOutput)
      (encodeAll [.setCompressionMethod 0, .compressionAck []]) []).calls 1
      [List.replicate 4 nineBytes]).isNone = true := by
    decide +kernel
  rw [done] at undefined
  cases undefined

end RedshiftOdbc.Zpq

import Mathlib.Order.RelClasses
import RedshiftOdbc.Zpq.Carrying

/-!
# What the sender passes on

Every call of `zpq_write` keeps the order of the bytes, and as long as anything but
the beginning of a header is left, a call without new bytes has less to do.
-/

namespace RedshiftOdbc.Zpq

open RedshiftOdbc.Words

variable {algorithms : TxAlgorithms} (compressor : StreamingCompressor algorithms)

/-! ## A call -/

section Fill

variable {compressor} {zpq : ZpqSender algorithms} {written consumed avail later : List UInt8}

/-- What the sender stands for does not depend on its buffers. -/
theorem Carries.congr (carries : Carries compressor zpq written consumed avail later)
    {next : ZpqSender algorithms} (cStream : next.cStream = zpq.cStream)
    (isCompressing : next.isCompressing = zpq.isCompressing)
    (txMsgBytesLeft : next.txMsgBytesLeft = zpq.txMsgBytesLeft)
    (compressAlgIdx : next.compressAlgIdx = zpq.compressAlgIdx) :
    Carries compressor next written consumed avail later := by
  have buffered : next.csBuffered = zpq.csBuffered := by
    rw [ZpqSender.csBuffered, ZpqSender.csBuffered, cStream]
  have packs_congr : ∀ pending method, Packs compressor zpq pending method →
      Packs compressor next pending method := by
    intro pending method packs
    cases method with
    | none => exact ⟨cStream ▸ packs.1, compressAlgIdx ▸ packs.2.1, packs.2.2⟩
    | some used =>
        obtain ⟨byte, idx, state, notFlushed, taken, stream, rest⟩ := packs
        exact ⟨byte, compressAlgIdx ▸ idx, state, notFlushed, taken, cStream ▸ stream, rest⟩
  cases carries with
  | plain method done before part rest plains mode quiet reads packs split same client shape left
      next header =>
      exact .plain method done before part rest plains (isCompressing ▸ mode) (buffered ▸ quiet)
        reads (packs_congr _ _ packs) split same client shape (txMsgBytesLeft ▸ left) next header
  | packed index emitted got pending rest mode reads packs same left next flushed =>
      exact .packed index emitted got pending rest (isCompressing ▸ mode) reads
        (packs_congr _ _ packs) same (txMsgBytesLeft ▸ left) next
        fun quiet => flushed (buffered ▸ quiet)

/-- More of the bytes that are to come are at hand. -/
theorem Carries.more {more : List UInt8}
    (carries : Carries compressor zpq written consumed avail (more ++ later)) :
    Carries compressor zpq written consumed (avail ++ more) later := by
  cases carries with
  | plain method done before part rest plains mode quiet reads packs split same client shape left
      next header =>
      refine .plain method done before part rest plains mode quiet reads packs split same client
        shape left (by rwa [List.append_assoc]) fun some_rest => ?_
      obtain ⟨front, last, ends, near⟩ := header some_rest
      refine ⟨front, last, ends, ?_⟩
      rw [List.length_append]
      omega
  | packed index emitted got pending rest mode reads packs same left next flushed =>
      refine .packed index emitted got pending rest mode reads packs same left
        (by rwa [List.append_assoc]) fun quiet none => flushed quiet ?_
      exact none.imp_right fun both => (List.append_eq_nil_iff.mp both).1

/-- Nothing but the beginning of a header is left in the first buffer, nothing in the compressor. -/
def Idle (zpq : ZpqSender algorithms) : Prop :=
  zpq.csBuffered = false ∧ zpq.txIn.unread.length < 5 ∧
    (zpq.txIn.unread = [] ∨ zpq.txMsgBytesLeft = 0)

/-- A buffer with few bytes starts at its beginning. -/
def Compact (zb : ZpqBuffer) : Prop := zb.unread.length ≤ 5 → zb.pos = 0

theorem reuse_unread (zb : ZpqBuffer) : zb.reuse.unread = zb.unread := by
  rw [ZpqBuffer.reuse]
  split <;> rfl

theorem reuse_compact (zb : ZpqBuffer) : Compact zb.reuse := by
  intro few
  rw [reuse_unread] at few
  rw [ZpqBuffer.reuse, if_neg (Nat.not_lt.mpr few)]

variable (compressor) in
/-- What the first loop of `zpq_write` comes to: bytes went through, fewer are left or the compressor
holds less, unless the loop had nothing to do. -/
structure Fills (zpq next : ZpqSender algorithms) (written consumed src later : List UInt8)
    (failed : Option Int) (copied : Nat) : Prop where
  within : copied ≤ src.length
  code : failed = none ∨ failed = some 0
  map : next.compressorByMsgType = zpq.compressorByMsgType
  outcome : ∃ extra went, next.txOut = zpq.txOut.sizeAdvance extra ∧
    extra.length ≤ zpq.txOut.left ∧
    went ++ (next.txIn.unread ++ src.drop copied) = zpq.txIn.unread ++ src ∧
    Carries compressor next (written ++ extra) (consumed ++ went) next.txIn.unread
      (src.drop copied ++ later)
  settled : failed = none → next.txOut.left ≤ 6 ∨ Idle next
  compact : Compact zpq.txIn → Compact next.txIn
  progress : next.txIn.unread.length + (src.length - copied) < zpq.txIn.unread.length + src.length ∨
    weight compressor next < weight compressor zpq ∨
    (weight compressor next = weight compressor zpq ∧ failed = none ∧ next.txOut = zpq.txOut ∧
      (Compact zpq.txIn → 6 < zpq.txOut.left → copied = src.length))

/-- What is handed over fits into a first buffer that has little in it. -/
theorem copies_all {zb : ZpqBuffer} {src : List UInt8} (compact : Compact zb)
    (few : zb.unread.length + min zb.left src.length < 5) : min zb.left src.length = src.length := by
  have start := compact (by omega)
  have room : zb.left = bufferSize - zb.unread.length := by
    rw [ZpqBuffer.left, ZpqBuffer.size, start, Nat.zero_add]
  rw [bufferSize] at room
  omega

section FillTurn

variable {src : List UInt8} {copied : Nat}

/-- What is handed over is at hand once it is copied. -/
theorem Carries.at_hand
    (carries : Carries compressor zpq written consumed zpq.txIn.unread (src ++ later))
    (copied : Nat) :
    Carries compressor { zpq with txIn := zpq.txIn.sizeAdvance (src.take copied) } written consumed
      (zpq.txIn.unread ++ src.take copied) (src.drop copied ++ later) := by
  rw [← List.take_append_drop copied src, List.append_assoc] at carries
  exact carries.more.congr rfl rfl rfl rfl

/-- With nothing to write the loop ends. -/
theorem fills_nothing
    (carries : Carries compressor zpq written consumed zpq.txIn.unread (src ++ later))
    (within : copied ≤ src.length) (empty : zpq.txIn.unread ++ src.take copied = [])
    (quiet : zpq.csBuffered = false)
    (whole : Compact zpq.txIn → zpq.txIn.unread.length + copied < 5 → copied = src.length) :
    Fills compressor zpq { zpq with txIn := zpq.txIn.sizeAdvance (src.take copied) } written
      consumed src later none copied := by
  have unread : (zpq.txIn.sizeAdvance (src.take copied)).unread =
      zpq.txIn.unread ++ src.take copied := rfl
  have nothing := (List.append_eq_nil_iff.mp empty).1
  refine ⟨within, .inl rfl, rfl, ⟨[], [], (sizeAdvance_nil _).symm, Nat.zero_le _, ?_, ?_⟩,
    fun _ => .inr ⟨quiet, ?_, .inl empty⟩, fun compact _ => compact ?_,
    .inr (.inr ⟨rfl, rfl, rfl, fun compact _ => whole compact ?_⟩)⟩
  · rw [List.nil_append, unread, List.append_assoc, List.take_append_drop]
  · rw [List.append_nil, List.append_nil]
    exact carries.at_hand copied
  · rw [unread, empty]
    decide
  · rw [nothing]
    decide
  · have total := congrArg List.length empty
    rw [List.length_append, List.length_take, List.length_nil] at total
    omega

/-- The bytes that went through leave the first buffer. -/
theorem fills_moves {next : ZpqSender algorithms} {taken : Nat} {extra : List UInt8}
    {failed : Option Int} (within : copied ≤ src.length)
    (moves : Moves compressor { zpq with txIn := zpq.txIn.sizeAdvance (src.take copied) } next
      written consumed (zpq.txIn.unread ++ src.take copied) (src.drop copied ++ later) extra taken)
    (code : failed = none ∨ failed = some 0)
    (settled : failed = none → Incomplete next ((zpq.txIn.unread ++ src.take copied).drop taken)) :
    Fills compressor zpq { next with txIn := (next.txIn.posAdvance taken).reuse } written consumed
      src later failed copied := by
  have left : ((next.txIn.posAdvance taken).reuse).unread =
      (zpq.txIn.unread ++ src.take copied).drop taken := by
    rw [reuse_unread, moves.txIn]
    rfl
  have low := moves.within
  rw [List.length_append, List.length_take] at low
  refine ⟨within, code, moves.map, ⟨extra, (zpq.txIn.unread ++ src.take copied).take taken,
    moves.txOut, moves.room, ?_, ?_⟩, fun none => .inr ?_, fun _ => reuse_compact _, ?_⟩
  · dsimp only
    rw [left, ← List.append_assoc, List.take_append_drop, List.append_assoc, List.take_append_drop]
  · dsimp only
    rw [left]
    exact moves.carries.congr rfl rfl rfl rfl
  · obtain ⟨unset, quiet, short⟩ := settled none
    exact ⟨quiet, by rw [left]; exact short, .inr unset⟩
  · dsimp only
    rw [left, List.length_drop, List.length_append, List.length_take]
    rcases Nat.eq_zero_or_pos taken with zero | positive
    · exact .inr (.inl (moves.lighter zero))
    · exact .inl (by omega)

/-- With the beginning of a header and no more the loop ends. -/
theorem fills_incomplete
    (carries : Carries compressor zpq written consumed zpq.txIn.unread (src ++ later))
    (within : copied ≤ src.length)
    (incomplete : Incomplete { zpq with txIn := zpq.txIn.sizeAdvance (src.take copied) }
      (zpq.txIn.unread ++ src.take copied))
    (whole : Compact zpq.txIn → zpq.txIn.unread.length + copied < 5 → copied = src.length) :
    Fills compressor zpq
      { zpq with txIn := ((zpq.txIn.sizeAdvance (src.take copied)).posAdvance 0).reuse } written
      consumed src later none copied := by
  have unread : (((zpq.txIn.sizeAdvance (src.take copied)).posAdvance 0).reuse).unread =
      zpq.txIn.unread ++ src.take copied := reuse_unread _
  obtain ⟨unset, quiet, short⟩ := incomplete
  refine ⟨within, .inl rfl, rfl, ⟨[], [], (sizeAdvance_nil _).symm, Nat.zero_le _, ?_, ?_⟩,
    fun _ => .inr ⟨quiet, ?_, .inr unset⟩, fun _ => reuse_compact _,
    .inr (.inr ⟨rfl, rfl, rfl, fun compact _ => whole compact ?_⟩)⟩
  · rw [List.nil_append, unread, List.append_assoc, List.take_append_drop]
  · rw [List.append_nil, List.append_nil, unread]
    exact (carries.at_hand copied).congr rfl rfl rfl rfl
  · rw [unread]
    exact short
  · rw [List.length_append, List.length_take] at short
    omega

/-- A turn of the loop ends it, or takes at least one byte. -/
theorem fillTurn_fills
    (carries : Carries compressor zpq written consumed zpq.txIn.unread (src ++ later))
    (mapped : Mapped zpq) (room : 6 < zpq.txOut.left) :
    ∃ ends copied next, zpq.fillTurn src = some (ends, copied, next) ∧
      ((∃ failed, ends = some failed ∧
        Fills compressor zpq next written consumed src later failed copied) ∨
      (ends = none ∧ Fills compressor zpq next written consumed src later (some 0) copied ∧
        next.txIn.unread.length + (src.length - copied) < zpq.txIn.unread.length + src.length)) := by
  have within : min zpq.txIn.left src.length ≤ src.length := Nat.min_le_right _ _
  have whole := @copies_all zpq.txIn src
  rw [ZpqSender.fillTurn]
  dsimp only
  generalize min zpq.txIn.left src.length = copied at within whole ⊢
  have unread : (zpq.txIn.sizeAdvance (src.take copied)).unread =
      zpq.txIn.unread ++ src.take copied := rfl
  have buffered : ({ zpq with txIn := zpq.txIn.sizeAdvance (src.take copied) } :
      ZpqSender algorithms).csBuffered = zpq.csBuffered := rfl
  rw [unread, buffered]
  by_cases empty : zpq.txIn.unread ++ src.take copied = [] ∧ zpq.csBuffered = false
  · exact ⟨_, _, _, if_pos empty,
      .inl ⟨none, rfl, fills_nothing carries within empty.1 empty.2 whole⟩⟩
  · have some_input : zpq.txIn.unread ++ src.take copied ≠ [] ∨ zpq.csBuffered = true := by
      rw [not_and_or, Bool.not_eq_false] at empty
      exact empty
    obtain ⟨rc, processed, next, done, outcome⟩ :=
      writeInternal_moves (carries.at_hand copied) mapped room some_input
    rw [if_neg empty, done]
    dsimp only
    rcases outcome with ⟨taken, extra, rfl, rfl, moves⟩ | ⟨rfl, incomplete, moved⟩
    · by_cases positive : 0 < (taken : Int)
      · have low := moves.within
        rw [List.length_append, List.length_take] at low
        refine ⟨_, _, _, if_pos positive, .inr ⟨rfl, ?_, ?_⟩⟩
        · exact fills_moves within moves (.inr rfl) fun none => by cases none
        · dsimp only
          rw [reuse_unread, moves.txIn]
          change ((zpq.txIn.unread ++ src.take copied).drop ((taken : Int).toNat)).length + _ < _
          rw [Int.toNat_natCast, List.length_drop, List.length_append, List.length_take]
          omega
      · have zero : taken = 0 := by omega
        subst zero
        refine ⟨_, _, _, if_neg positive, .inl ⟨some 0, rfl, ?_⟩⟩
        exact fills_moves within moves (.inr rfl) fun none => by cases none
    · refine ⟨_, _, _, if_neg (by decide), .inl ⟨none, by rw [if_pos rfl], ?_⟩⟩
      rcases moved with ⟨extra, moves⟩ | ⟨rfl, rfl⟩
      · exact fills_moves within moves (.inl rfl) fun _ => incomplete
      · exact fills_incomplete carries within incomplete whole

end FillTurn

theorem fillLoop_turn (room : 6 < zpq.txOut.left) (turns : Nat) (src : List UInt8) (srcPos : Nat) :
    zpq.fillLoop (turns + 1) src srcPos =
      match zpq.fillTurn src with
      | none => none
      | some (some returned, copyLen, next) => some (returned, srcPos + copyLen, next)
      | some (none, copyLen, next) =>
          ZpqSender.fillLoop turns next (src.drop copyLen) (srcPos + copyLen) := by
  rw [ZpqSender.fillLoop.eq_def]
  exact if_pos room

theorem fillLoop_full (full : ¬6 < zpq.txOut.left) (turns : Nat) (src : List UInt8) (srcPos : Nat) :
    zpq.fillLoop turns src srcPos = some (none, srcPos, zpq) := by
  rw [ZpqSender.fillLoop.eq_def]
  exact if_neg full

theorem fillLoop_fills {turns : Nat} {src : List UInt8} (srcPos : Nat)
    (carries : Carries compressor zpq written consumed zpq.txIn.unread (src ++ later))
    (mapped : Mapped zpq) (enough : src.length + zpq.txIn.unread.length < turns) :
    ∃ failed copied next, zpq.fillLoop turns src srcPos = some (failed, srcPos + copied, next) ∧
      Fills compressor zpq next written consumed src later failed copied := by
  induction turns generalizing zpq written consumed src srcPos with
  | zero => exact absurd enough (Nat.not_lt_zero _)
  | succ turns ih =>
      by_cases room : 6 < zpq.txOut.left
      · obtain ⟨ends, copied, next, done, outcome⟩ := fillTurn_fills carries mapped room
        rw [fillLoop_turn room, done]
        rcases outcome with ⟨failed, rfl, fills⟩ | ⟨rfl, fills, fewer⟩
        · exact ⟨failed, copied, next, rfl, fills⟩
        · obtain ⟨extra, went, txOut, room, total, carried⟩ := fills.outcome
          have still : Mapped next := by
            rw [Mapped, fills.map]
            exact mapped
          have within := fills.within
          obtain ⟨failed, copied', last, goes, rest⟩ := ih (srcPos + copied) carried still
            (by rw [List.length_drop]; omega)
          refine ⟨failed, copied + copied', last, by rw [← Nat.add_assoc]; exact goes, ?_⟩
          obtain ⟨extra', went', txOut', room', total', carried'⟩ := rest.outcome
          have within' := rest.within
          rw [List.length_drop] at within'
          refine ⟨by omega, rest.code, rest.map.trans fills.map,
            ⟨extra ++ extra', went ++ went', ?_, ?_, ?_, ?_⟩, rest.settled,
            fun compact => rest.compact (fills.compact compact), .inl ?_⟩
          · rw [txOut', txOut, ZpqBuffer.sizeAdvance, ZpqBuffer.sizeAdvance, ZpqBuffer.sizeAdvance,
              List.append_assoc]
          · rw [txOut, left_sizeAdvance] at room'
            rw [List.length_append]
            omega
          · rw [List.append_assoc, ← List.drop_drop, total', total]
          · rw [← List.append_assoc, ← List.append_assoc, ← List.drop_drop]
            exact carried'
          · have fewer' := congrArg List.length total'
            simp only [List.length_append, List.length_drop] at fewer'
            omega
      · refine ⟨none, 0, zpq, ?_, ⟨Nat.zero_le _, .inl rfl, rfl,
          ⟨[], [], ?_, Nat.zero_le _, rfl, ?_⟩, fun _ => .inl (by omega), id,
          .inr (.inr ⟨rfl, rfl, rfl, fun _ some_room => absurd some_room room⟩)⟩⟩
        · exact fillLoop_full room _ _ _
        · exact (sizeAdvance_nil _).symm
        · rw [List.append_nil, List.append_nil]
          exact carries

end Fill

/-- An empty buffer starts at its beginning. -/
def Tight (zb : ZpqBuffer) : Prop := zb.unread = [] → zb.pos = 0

theorem reuse_tight (zb : ZpqBuffer) : Tight zb.reuse := by
  rw [Tight, ZpqBuffer.reuse]
  split
  · intro none
    rename_i far
    rw [none] at far
    exact absurd far (by decide)
  · exact fun _ => rfl

section Call

variable {compressor} {zpq : ZpqSender algorithms}

theorem reuse_sends (zb : ZpqBuffer) {failed : Option Int} (all : failed = none → zb.unread = [])
    (code : ∀ rc ∈ failed, rc ≤ 0) :
    [] ++ zb.reuse.unread = zb.unread ∧ Tight zb.reuse ∧ zb.reuse.size ≤ zb.size ∧
      (failed = none → zb.reuse.unread = []) ∧ (∀ rc ∈ failed, rc ≤ 0) := by
  refine ⟨reuse_unread _, reuse_tight _, ?_, fun none => (reuse_unread _).trans (all none), code⟩
  rw [ZpqBuffer.size, ZpqBuffer.size, reuse_unread, ZpqBuffer.reuse]
  split
  · exact le_refl _
  · exact Nat.add_le_add_right (Nat.zero_le _) _

/-- The second loop of `zpq_write` sends a part of what the second buffer holds, all of it unless a
send fails. -/
theorem sendLoop_sends (sends : List Tx) (zpq : ZpqSender algorithms) :
    ∃ failed given txOut, ZpqSender.sendLoop sends zpq =
        (failed, given, { zpq with txOut := txOut }) ∧
      given ++ txOut.unread = zpq.txOut.unread ∧ Tight txOut ∧ txOut.size ≤ zpq.txOut.size ∧
      (failed = none → txOut.unread = []) ∧ (∀ rc ∈ failed, rc ≤ 0) := by
  induction sends generalizing zpq with
  | nil =>
      rw [ZpqSender.sendLoop.eq_def]
      by_cases none : zpq.txOut.unread = []
      · exact ⟨_, _, _, if_pos none, reuse_sends _ (fun _ => none) (by simp)⟩
      · exact ⟨_, _, _, if_neg none, reuse_sends _ (by simp) (by simp)⟩
  | cons send sends ih =>
      rw [ZpqSender.sendLoop.eq_def]
      by_cases none : zpq.txOut.unread = []
      · exact ⟨_, _, _, if_pos none, reuse_sends _ (fun _ => none) (by simp)⟩
      · cases send with
        | failed code => exact ⟨_, _, _, if_neg none, reuse_sends _ (by simp) (by simp)⟩
        | sent count =>
            by_cases blocked : min count zpq.txOut.unread.length = 0
            · exact ⟨_, _, _, (if_neg none).trans (if_pos blocked),
                reuse_sends _ (by simp) (by simp)⟩
            · obtain ⟨failed, given, txOut, done, total, tight, size, all, code⟩ :=
                ih { zpq with txOut := zpq.txOut.posAdvance (min count zpq.txOut.unread.length) }
              refine ⟨failed, zpq.txOut.unread.take (min count zpq.txOut.unread.length) ++ given,
                txOut, (if_neg none).trans ((if_neg blocked).trans ?_), ?_, tight, ?_, all, code⟩
              · dsimp only
                rw [done]
              · rw [List.append_assoc, total, ZpqBuffer.posAdvance, List.take_append_drop]
              · dsimp only at size
                rw [ZpqBuffer.size, ZpqBuffer.size, ZpqBuffer.posAdvance, List.length_drop] at size
                rw [ZpqBuffer.size, ZpqBuffer.size]
                dsimp only at size
                omega

variable (compressor) in
/-- The sender passes on a stream of which it was given `taken`. -/
structure Passing (zpq : ZpqSender algorithms) (taken later given : List UInt8) : Prop where
  carries : ∃ consumed, consumed ++ zpq.txIn.unread = taken ∧
    Carries compressor zpq (given ++ zpq.txOut.unread) consumed zpq.txIn.unread later
  mapped : Mapped zpq
  compact : Compact zpq.txIn
  tight : Tight zpq.txOut
  bounded : zpq.txOut.size ≤ bufferSize

/-- Sent bytes were in the second buffer before. -/
theorem Passing.sent {taken later given given' : List UInt8}
    (passing : Passing compressor zpq taken later given) {txOut : ZpqBuffer}
    (total : given' ++ txOut.unread = zpq.txOut.unread) (tight : Tight txOut)
    (bounded : txOut.size ≤ bufferSize) :
    Passing compressor { zpq with txOut := txOut } taken later (given ++ given') := by
  obtain ⟨consumed, same, carries⟩ := passing.carries
  refine ⟨⟨consumed, same, ?_⟩, passing.mapped, passing.compact, tight, bounded⟩
  dsimp only
  rw [List.append_assoc, total]
  exact carries.congr rfl rfl rfl rfl

/-- What went through the first loop of `zpq_write` was given to the sender before. -/
theorem Fills.passing {next : ZpqSender algorithms} {taken later given src consumed : List UInt8}
    {failed : Option Int} {copied : Nat} (passing : Passing compressor zpq taken (src ++ later) given)
    (same : consumed ++ zpq.txIn.unread = taken)
    (fills : Fills compressor zpq next (given ++ zpq.txOut.unread) consumed src later failed copied) :
    Passing compressor next (taken ++ src.take copied) (src.drop copied ++ later) given := by
  obtain ⟨extra, went, txOut, room, total, carries⟩ := fills.outcome
  refine ⟨⟨consumed ++ went, ?_, ?_⟩, ?_, fills.compact passing.compact, ?_, ?_⟩
  · have all : consumed ++ went ++ next.txIn.unread ++ src.drop copied =
        taken ++ src.take copied ++ src.drop copied := by
      rw [List.append_assoc, List.append_assoc, total, ← same, List.append_assoc, List.append_assoc,
        List.take_append_drop]
    exact List.append_cancel_right all
  · rw [txOut, ZpqBuffer.sizeAdvance, ← List.append_assoc]
    exact carries
  · rw [Mapped, fills.map]
    exact passing.mapped
  · intro none
    rw [txOut, ZpqBuffer.sizeAdvance, List.append_eq_nil_iff] at none
    rw [txOut]
    exact passing.tight none.1
  · have bounded := passing.bounded
    rw [ZpqBuffer.left] at room
    rw [ZpqBuffer.size] at bounded room
    rw [txOut, ZpqBuffer.size, ZpqBuffer.sizeAdvance, List.length_append]
    dsimp only
    omega

/-- A call takes some of the bytes it is handed, and its caller goes on behind them. -/
theorem zpqWrite_passes {taken later given src : List UInt8}
    (passing : Passing compressor zpq taken (src ++ later) given) (sends : List Tx) :
    ∃ written, zpq.zpqWrite src sends = some written ∧ written.accepted ≤ src.length ∧
      Passing compressor written.zpq (taken ++ src.take written.accepted)
        (src.drop written.accepted ++ later) (given ++ written.given) := by
  obtain ⟨consumed, same, carries⟩ := passing.carries
  obtain ⟨failed, copied, next, done, fills⟩ := fillLoop_fills 0 carries passing.mapped
    (Nat.lt_succ_self (src.length + zpq.txIn.unread.length))
  have filled := fills.passing passing same
  rw [Nat.zero_add] at done
  rw [ZpqSender.zpqWrite, done]
  have within := fills.within
  cases failed with
  | some rc =>
      have zero : rc = 0 := by
        rcases fills.code with none | same
        · cases none
        · exact Option.some.inj same
      subst zero
      refine ⟨_, rfl, within, ?_⟩
      rw [List.append_nil]
      exact filled
  | none =>
      obtain ⟨failed, given', txOut, sent, total, tight, size, -, code⟩ := sendLoop_sends sends next
      have passed := filled.sent total tight (size.trans filled.bounded)
      dsimp only
      rw [sent]
      cases failed with
      | some rc =>
          have accepted : (⟨rc, copied, given', { next with txOut := txOut }⟩ :
              Written algorithms).accepted = copied :=
            if_neg (Int.not_lt.mpr (code rc rfl))
          refine ⟨_, rfl, ?_⟩
          rw [accepted]
          exact ⟨within, passed⟩
      | none =>
          have accepted : (⟨(copied : Int), 0, given', { next with txOut := txOut }⟩ :
              Written algorithms).accepted = copied := by
            rw [Written.accepted]
            dsimp only
            split
            · exact Int.toNat_natCast _
            · omega
          refine ⟨_, rfl, ?_⟩
          rw [accepted]
          exact ⟨within, passed⟩

theorem Carries.decoded {written consumed avail later : List UInt8}
    (carries : Carries compressor zpq written consumed avail later) :
    decode compressor.output none written <+: consumed ∧
      (zpq.csBuffered = false → avail = [] ∨ zpq.txMsgBytesLeft = 0 →
        decode compressor.output none written = consumed) := by
  cases carries with
  | plain method done before part rest plains mode quiet reads packs split same client shape left
      next header =>
      obtain ⟨prefixed, all⟩ := decode_part compressor.output method client shape
      rw [split, same, reads]
      refine ⟨(List.prefix_append_right_inj _).mpr prefixed, fun _ ends => ?_⟩
      rw [all]
      rcases ends with none | none
      · by_cases some_rest : rest = []
        · exact .inl some_rest
        · obtain ⟨front, last, split, near⟩ := header some_rest
          rw [none, List.length_nil, Nat.zero_add] at near
          exact .inr ⟨front, last, split, near⟩
      · rw [none, List.length_eq_zero_iff] at left
        exact .inl left
  | packed index emitted got pending rest mode reads packs same left next flushed =>
      rw [reads.decoded, same]
      refine ⟨List.prefix_append _ _, fun quiet ends => ?_⟩
      rw [flushed quiet, List.append_nil]
      rcases ends with none | none
      · exact .inr none
      · rw [none, List.length_eq_zero_iff] at left
        exact .inl left

theorem bufferedTx_eq_false_iff :
    zpq.bufferedTx = false ↔ Idle zpq ∧ zpq.txOut.unread = [] := by
  rw [ZpqSender.bufferedTx, Idle, ← List.length_eq_zero_iff, ← List.length_eq_zero_iff]
  simp only [Bool.or_eq_false_iff, Bool.and_eq_false_iff, decide_eq_false_iff_not]
  constructor
  · rintro ⟨⟨⟨short, settled⟩, sent⟩, quiet⟩
    exact ⟨⟨quiet, by omega, by omega⟩, by omega⟩
  · rintro ⟨⟨quiet, short, settled⟩, sent⟩
    exact ⟨⟨⟨by omega, by omega⟩, by omega⟩, quiet⟩

theorem sendLoop_all {zpq : ZpqSender algorithms} (bounded : zpq.txOut.size ≤ bufferSize) :
    (ZpqSender.sendLoop [.sent bufferSize] zpq).1 = none := by
  rw [ZpqSender.sendLoop.eq_def]
  by_cases none : zpq.txOut.unread = []
  · exact congrArg Prod.fst (if_pos none)
  · have positive := List.length_pos_iff.mpr none
    rw [ZpqBuffer.size] at bounded
    have whole : min bufferSize zpq.txOut.unread.length = zpq.txOut.unread.length := by omega
    dsimp only
    rw [if_neg none, whole, if_neg (by omega), ZpqSender.sendLoop.eq_def]
    have sent : (zpq.txOut.posAdvance zpq.txOut.unread.length).unread = [] := by
      rw [ZpqBuffer.posAdvance, List.drop_length]
    exact congrArg Prod.fst (if_pos sent)

variable (compressor) in
/-- What a call lowers whose bytes are all sent: the bytes that are ahead of the compressor, then
those it holds, then those to be sent. -/
def leftover (zpq : ZpqSender algorithms) (ahead : ℕ) : ℕ × ℕ × ℕ :=
  (zpq.txIn.unread.length + ahead, weight compressor zpq, zpq.txOut.unread.length)

/-- A call whose bytes are all sent accepts what it is handed and leaves nothing but a header, or
there is less left behind it. -/
theorem zpqWrite_pushes {taken later given src : List UInt8}
    (passing : Passing compressor zpq taken (src ++ later) given) :
    ∃ written, zpq.zpqWrite src [.sent bufferSize] = some written ∧
      ((written.zpq.bufferedTx = false ∧ written.accepted = src.length) ∨
        Prod.Lex (· < ·) (Prod.Lex (· < ·) (· < ·))
          (leftover compressor written.zpq (src.length - written.accepted))
          (leftover compressor zpq src.length)) := by
  obtain ⟨consumed, same, carries⟩ := passing.carries
  obtain ⟨failed, copied, next, done, fills⟩ := fillLoop_fills 0 carries passing.mapped
    (Nat.lt_succ_self (src.length + zpq.txIn.unread.length))
  obtain ⟨extra, went, txOut_next, -, total, -⟩ := fills.outcome
  have fewer : next.txIn.unread.length + (src.length - copied) ≤
      zpq.txIn.unread.length + src.length := by
    have length := congrArg List.length total
    simp only [List.length_append, List.length_drop] at length
    omega
  have lower : ∀ txOut : ZpqBuffer,
      next.txIn.unread.length + (src.length - copied) < zpq.txIn.unread.length + src.length ∨
        weight compressor next < weight compressor zpq →
      Prod.Lex (· < ·) (Prod.Lex (· < ·) (· < ·))
        (leftover compressor { next with txOut := txOut } (src.length - copied))
        (leftover compressor zpq src.length) := by
    intro txOut less
    by_cases shorter : next.txIn.unread.length + (src.length - copied) <
        zpq.txIn.unread.length + src.length
    · exact .left _ _ shorter
    · have equal : zpq.txIn.unread.length + src.length =
          next.txIn.unread.length + (src.length - copied) := by omega
      rw [leftover, leftover, equal]
      exact .right _ (.left _ _ (less.resolve_left shorter))
  rw [Nat.zero_add] at done
  rw [ZpqSender.zpqWrite, done]
  cases failed with
  | some rc =>
      have refused : ¬0 < rc := by
        rcases fills.code with none | zero
        · cases none
        · cases zero
          decide
      have accepted : (⟨rc, copied, [], next⟩ : Written algorithms).accepted = copied :=
        if_neg refused
      refine ⟨_, rfl, .inr ?_⟩
      rw [accepted]
      refine lower next.txOut ?_
      rcases fills.progress with less | less | ⟨-, none, -⟩
      · exact .inl less
      · exact .inr less
      · cases none
  | none =>
      have bounded : next.txOut.size ≤ bufferSize := (fills.passing passing same).bounded
      have whole := sendLoop_all bounded
      obtain ⟨failed, given', txOut, sent, passed, -, -, all, -⟩ :=
        sendLoop_sends [.sent bufferSize] next
      rw [sent] at whole
      change failed = none at whole
      subst whole
      have emptied := all rfl
      have accepted : (⟨(copied : Int), 0, given', { next with txOut := txOut }⟩ :
          Written algorithms).accepted = copied := by
        rw [Written.accepted]
        dsimp only
        split
        · exact Int.toNat_natCast _
        · omega
      dsimp only
      rw [sent]
      refine ⟨_, rfl, ?_⟩
      rw [accepted]
      rcases fills.progress with less | less | ⟨equal, -, unchanged, copies⟩
      · exact .inr (lower txOut (.inl less))
      · exact .inr (lower txOut (.inr less))
      · by_cases room : 6 < zpq.txOut.left
        · have idle : Idle next := (fills.settled rfl).resolve_left (by rw [unchanged]; omega)
          exact .inl ⟨bufferedTx_eq_false_iff.mpr ⟨idle, emptied⟩, copies passing.compact room⟩
        · have some_out : zpq.txOut.unread ≠ [] := by
            intro none
            rw [ZpqBuffer.left, ZpqBuffer.size, passing.tight none, none] at room
            exact absurd room (by decide)
          have positive := List.length_pos_iff.mpr some_out
          refine .inr ?_
          by_cases shorter : next.txIn.unread.length + (src.length - copied) <
              zpq.txIn.unread.length + src.length
          · exact .left _ _ shorter
          · have same_length : zpq.txIn.unread.length + src.length =
                next.txIn.unread.length + (src.length - copied) := by omega
            rw [leftover, leftover, same_length, ← equal]
            refine .right _ (.right _ ?_)
            dsimp only
            rw [emptied]
            exact positive

end Call

/-! ## Runs -/

/-- A call that is handed up to so many bytes and whose bytes are all sent. -/
def push (count : Nat) : WriteCall := ⟨count, [.sent bufferSize]⟩

/--
What was given to `tx_func` stands for the bytes that were accepted, except for the beginning
of a header.
-/
def PassedOn (output : Nat → List UInt8 → List UInt8) (input given : List UInt8)
    (accepted : Nat) : Prop :=
  ∃ header, decode output none given ++ header = input.take accepted ∧ header.length < 5 ∧
    (header = [] ∨ Upcoming (header ++ input.drop accepted))

section Run

variable {compressor} {sending : Sending algorithms} {taken before : List UInt8}

theorem Passing.call
    (passing : Passing compressor sending.zpq taken sending.remaining before) (call : WriteCall) :
    ∃ written next, sending.call call = some (written, next) ∧
      written.accepted ≤ sending.remaining.length ∧
      next.remaining = sending.remaining.drop written.accepted ∧
      Passing compressor next.zpq (taken ++ sending.remaining.take written.accepted)
        next.remaining (before ++ written.given) := by
  rw [← List.take_append_drop call.count sending.remaining] at passing
  obtain ⟨written, done, within, passes⟩ := zpqWrite_passes passing call.sends
  have fits : written.accepted ≤ sending.remaining.length :=
    within.trans (List.length_take_le' _ _)
  have front : (sending.remaining.take call.count).take written.accepted =
      sending.remaining.take written.accepted := by
    rw [List.length_take] at within
    rw [List.take_take, Nat.min_eq_left (within.trans (Nat.min_le_left _ _))]
  have behind : (sending.remaining.take call.count).drop written.accepted ++
      sending.remaining.drop call.count = sending.remaining.drop written.accepted := by
    rw [← List.drop_append_of_le_length within, List.take_append_drop]
  rw [behind, front] at passes
  refine ⟨written, ⟨written.zpq, sending.remaining.drop written.accepted⟩, ?_, fits, rfl, passes⟩
  rw [Sending.call, done]
  rfl

/-- Calls accept bytes one behind the other. -/
theorem Passing.calls (calls : List WriteCall)
    (passing : Passing compressor sending.zpq taken sending.remaining before) :
    ∃ results last, sending.calls calls = some (results, last) ∧
      accepted results ≤ sending.remaining.length ∧
      last.remaining = sending.remaining.drop (accepted results) ∧
      Passing compressor last.zpq (taken ++ sending.remaining.take (accepted results))
        last.remaining (before ++ given results) := by
  induction calls generalizing sending taken before with
  | nil =>
      refine ⟨[], sending, rfl, Nat.zero_le _, rfl, ?_⟩
      rw [given, List.flatMap_nil, accepted, List.map_nil, List.sum_nil, List.take_zero,
        List.append_nil, List.append_nil]
      exact passing
  | cons call calls ih =>
      obtain ⟨written, next, done, within, remaining, passes⟩ := passing.call call
      obtain ⟨results, last, goes, within', remaining', passes'⟩ := ih passes
      have total : accepted (written :: results) = written.accepted + accepted results := by
        rw [accepted, List.map_cons, List.sum_cons, accepted]
      rw [remaining, List.length_drop] at within'
      refine ⟨written :: results, last, ?_, by omega, ?_, ?_⟩
      · rw [Sending.calls, done]
        simp only [goes, Option.map_some]
      · rw [remaining', remaining, List.drop_drop, total]
      · rw [given, List.flatMap_cons, ← List.append_assoc, total, List.take_add, ← List.append_assoc,
          ← remaining]
        exact passes'

end Run

theorem zpqBuildMsgCompressionMap_cases (nCompressors : Nat) (msgType : UInt8) :
    zpqBuildMsgCompressionMap nCompressors msgType = -1 ∨
      zpqBuildMsgCompressionMap nCompressors msgType = 0 := by
  -- Behind the first compressor no type is left without one.
  have shape : (nCompressors = 0 ∧ zpqBuildMsgCompressionMap nCompressors = fun _ => -1) ∨
      zpqBuildMsgCompressionMap nCompressors =
        fun msgType => if msgType = 100 ∨ msgType = 68 ∨ msgType = 81 then 0 else -1 := by
    induction nCompressors with
    | zero => exact .inl ⟨rfl, rfl⟩
    | succ n ih =>
        right
        rw [zpqBuildMsgCompressionMap, List.range_succ, List.foldl_append]
        rw [zpqBuildMsgCompressionMap] at ih
        rcases ih with ⟨rfl, none⟩ | first
        · rw [none]
          funext msgType
          by_cases lower : msgType = 100 <;> by_cases upper : msgType = 68 <;>
            by_cases query : msgType = 81 <;> simp [lower, upper, query]
        · rw [first]
          simp
  rcases shape with ⟨-, none⟩ | first
  · exact .inl (congrFun none msgType)
  · rw [first]
    dsimp only
    split
    · exact .inr rfl
    · exact .inl rfl

variable {compressor} in
theorem passing_start (nCompressors : Nat) {messages : List Message}
    (client : ∀ message ∈ messages, ClientMessage message) :
    Passing compressor (Sending.start algorithms nCompressors (encodeAll messages)).zpq []
      (encodeAll messages) [] := by
  refine ⟨⟨[], rfl, ?_⟩, fun msgType => zpqBuildMsgCompressionMap_cases nCompressors msgType,
    fun _ => rfl, fun _ => rfl, Nat.zero_le _⟩
  refine .plain none [] [] [] [] [] rfl rfl reads_nil ⟨rfl, rfl, rfl⟩ rfl rfl
    (fun message member => absurd member List.not_mem_nil) rfl rfl ⟨_, ⟨messages, client, rfl⟩, rfl⟩
    fun some_rest => absurd rfl some_rest

variable {compressor} in
theorem Passing.inOrder {zpq : ZpqSender algorithms} {taken later given : List UInt8}
    (passing : Passing compressor zpq taken later given) :
    ∃ held, decode compressor.output none given ++ held = taken := by
  obtain ⟨consumed, same, carries⟩ := passing.carries
  obtain ⟨pending, decoded⟩ := (decode_grows given zpq.txOut.unread).trans carries.decoded.1
  exact ⟨pending ++ zpq.txIn.unread, by rw [← List.append_assoc, decoded, same]⟩

variable {compressor} in
theorem Passing.passedOn {zpq : ZpqSender algorithms} {input given : List UInt8} {accepted : Nat}
    (passing : Passing compressor zpq (input.take accepted) (input.drop accepted) given)
    (done : zpq.bufferedTx = false) : PassedOn compressor.output input given accepted := by
  obtain ⟨consumed, same, carries⟩ := passing.carries
  obtain ⟨⟨quiet, short, settled⟩, sent⟩ := bufferedTx_eq_false_iff.mp done
  rw [sent, List.append_nil] at carries
  refine ⟨zpq.txIn.unread, ?_, short, ?_⟩
  · rw [carries.decoded.2 quiet settled, same]
  · refine settled.imp_right fun none => ?_
    obtain ⟨-, -, -, upcoming⟩ := carries.boundary none quiet
    exact upcoming

variable {compressor} in
/-- Calls without new bytes, or with all that are left, come to an end of what they have to do. -/
theorem Passing.pushes {sending : Sending algorithms} {taken before : List UInt8}
    (passing : Passing compressor sending.zpq taken sending.remaining before) {count : Nat}
    (handed : count = 0 ∨ sending.remaining.length ≤ count) :
    ∃ times results last, sending.calls (List.replicate times (push count)) = some (results, last) ∧
      last.zpq.bufferedTx = false ∧ last.remaining = sending.remaining.drop count := by
  have ordered : WellFounded (InvImage (Prod.Lex (· < ·) (Prod.Lex (· < ·) (· < ·)))
      fun sending : Sending algorithms =>
        leftover compressor sending.zpq (min count sending.remaining.length)) :=
    InvImage.wf _ (wellFounded_lt.prod_lex (wellFounded_lt.prod_lex wellFounded_lt))
  induction sending using ordered.induction generalizing taken before with
  | _ sending ih =>
      have split := passing
      rw [← List.take_append_drop count sending.remaining] at split
      obtain ⟨written, done, outcome⟩ := zpqWrite_pushes split
      obtain ⟨other, next, same, within, remaining, passes⟩ := passing.call (push count)
      have called : sending.call (push count) =
          some (written, ⟨written.zpq, sending.remaining.drop written.accepted⟩) := by
        rw [Sending.call, push]
        dsimp only
        rw [done]
        rfl
      rw [called, Option.some.injEq, Prod.mk.injEq] at same
      obtain ⟨rfl, rfl⟩ := same
      rw [List.length_take] at outcome
      rcases outcome with ⟨quiet, all⟩ | less
      · refine ⟨1, [written], ⟨written.zpq, sending.remaining.drop written.accepted⟩, ?_, quiet, ?_⟩
        · rw [List.replicate_one, Sending.calls, called]
          rfl
        · dsimp only
          rcases handed with rfl | enough
          · rw [all, Nat.zero_min]
          · rw [all, Nat.min_eq_right enough, List.drop_length, List.drop_of_length_le enough]
      · have ahead : min count (sending.remaining.drop written.accepted).length =
            min count sending.remaining.length - written.accepted := by
          rw [List.length_drop]
          omega
        have kept : (sending.remaining.drop written.accepted).drop count =
            sending.remaining.drop count := by
          rcases handed with rfl | enough
          · have none : written.accepted = 0 := by
              have low := (zpqWrite_passes split [.sent bufferSize])
              obtain ⟨same, again, few, -⟩ := low
              rw [push] at called
              rw [done, Option.some.injEq] at again
              subst again
              rw [List.take_zero, List.length_nil] at few
              omega
            rw [none, List.drop_zero]
          · rw [List.drop_of_length_le enough, List.drop_of_length_le]
            rw [List.length_drop]
            omega
        have still : count = 0 ∨ (sending.remaining.drop written.accepted).length ≤ count := by
          rw [List.length_drop]
          omega
        rw [← ahead] at less
        obtain ⟨times, results, last, goes, quiet, left⟩ := ih
          ⟨written.zpq, sending.remaining.drop written.accepted⟩ less passes still
        refine ⟨times + 1, written :: results, last, ?_, quiet, left.trans kept⟩
        rw [List.replicate_succ, Sending.calls, called]
        simp only [goes, Option.map_some]

variable {compressor} in
/-- What such calls accept is passed on with what was accepted before. -/
theorem Passing.pushed {sending : Sending algorithms} {input before : List UInt8} {already : Nat}
    (passing : Passing compressor sending.zpq (input.take already) sending.remaining before)
    (remaining : sending.remaining = input.drop already) {count : Nat}
    (handed : count = 0 ∨ sending.remaining.length ≤ count) :
    ∃ times results last, sending.calls (List.replicate times (push count)) = some (results, last) ∧
      accepted results = min count sending.remaining.length ∧
      PassedOn compressor.output input (before ++ given results) (already + accepted results) := by
  obtain ⟨times, results, last, done, quiet, left⟩ := passing.pushes handed
  obtain ⟨results', last', again, within, left', passing'⟩ :=
    passing.calls (List.replicate times (push count))
  rw [done, Option.some.injEq, Prod.mk.injEq] at again
  obtain ⟨rfl, rfl⟩ := again
  have lengths := congrArg List.length (left'.symm.trans left)
  rw [List.length_drop, List.length_drop] at lengths
  refine ⟨times, results, last, done, by omega, ?_⟩
  rw [left', remaining, List.drop_drop, ← List.take_add] at passing'
  exact passing'.passedOn quiet

/-- Nothing of whole messages stands for the beginning of a header. -/
theorem upcoming_short {header : List UInt8} (short : header.length < 5)
    (upcoming : Upcoming header) : header = [] := by
  obtain ⟨messages, -, same⟩ := upcoming
  cases messages with
  | nil => exact same
  | cons message messages =>
      rw [same, encodeAll_cons, List.length_append, encode_length] at short
      omega

theorem given_append (results more : List (Written algorithms)) :
    given (results ++ more) = given results ++ given more := List.flatMap_append

theorem accepted_append (results more : List (Written algorithms)) :
    accepted (results ++ more) = accepted results + accepted more := by
  rw [accepted, List.map_append, List.sum_append, accepted, accepted]

/--
In every run of calls, whatever pieces they are handed and however the sends go, the bytes
given to `tx_func` stand for the beginning of those that were accepted, and for all of them
except for the beginning of a header whenever `zpq_buffered_tx` is false.  Calls without new
bytes achieve that, and calls with all that is left pass on all messages, when their sends
succeed.
-/
theorem zpqWrite_passesOn (nCompressors : Nat) (messages : List Message)
    (client : ∀ message ∈ messages, ClientMessage message) (calls : List WriteCall) :
    ∃ results sending, (Sending.start algorithms nCompressors (encodeAll messages)).calls calls =
        some (results, sending) ∧
      decode compressor.output none (given results) <+:
        (encodeAll messages).take (accepted results) ∧
      (sending.zpq.bufferedTx = false →
        PassedOn compressor.output (encodeAll messages) (given results) (accepted results)) ∧
      (∃ times results' last, sending.calls (List.replicate times (push 0)) =
          some (results', last) ∧
        PassedOn compressor.output (encodeAll messages) (given (results ++ results'))
          (accepted results)) ∧
      ∃ times results' last, sending.calls
          (List.replicate times (push (encodeAll messages).length)) = some (results', last) ∧
        accepted (results ++ results') = (encodeAll messages).length ∧
        decode compressor.output none (given (results ++ results')) = encodeAll messages := by
  obtain ⟨results, sending, done, within, remaining, passing⟩ :=
    (passing_start nCompressors client : Passing compressor _ _ _ _).calls calls
  change accepted results ≤ (encodeAll messages).length at within
  change sending.remaining = (encodeAll messages).drop (accepted results) at remaining
  rw [List.nil_append, List.nil_append] at passing
  change Passing compressor sending.zpq ((encodeAll messages).take (accepted results)) _ _
    at passing
  refine ⟨results, sending, done, ?_, fun quiet => ?_, ?_, ?_⟩
  · obtain ⟨held, same⟩ := passing.inOrder
    exact ⟨held, same⟩
  · rw [remaining] at passing
    exact passing.passedOn quiet
  · obtain ⟨times, results', last, goes, none, passed⟩ := passing.pushed remaining (.inl rfl)
    rw [Nat.zero_min] at none
    refine ⟨times, results', last, goes, ?_⟩
    rwa [given_append, ← Nat.add_zero (accepted results), ← none]
  · have handed : sending.remaining.length ≤ (encodeAll messages).length := by
      rw [remaining, List.length_drop]
      exact Nat.sub_le _ _
    obtain ⟨times, results', last, goes, all, header, same, short, settled⟩ :=
      passing.pushed remaining (.inr handed)
    rw [remaining, List.length_drop] at all
    have whole : accepted results + accepted results' = (encodeAll messages).length := by omega
    rw [whole, List.take_length] at same
    rw [whole, List.drop_length, List.append_nil] at settled
    have nothing : header = [] := settled.elim id (upcoming_short short)
    rw [nothing, List.append_nil] at same
    refine ⟨times, results', last, goes, ?_, ?_⟩
    · rw [accepted_append, whole]
    · rw [given_append, same]

/-- A compressor that stores: it takes everything and hands it out as it is. -/
def storing : TxAlgorithms where
  State := List UInt8
  create := fun _ => []
  compress := fun held src dstLen =>
    { state := (held ++ src).drop dstLen
      srcProcessed := src.length
      output := (held ++ src).take dstLen
      code := if (held ++ src).length ≤ dstLen then .ok else .dataPending }

theorem storing_writes (held emitted src : List UInt8) {dstLen : Nat} (room : 0 < dstLen) :
    src.length ≤ src.length ∧ ((held ++ src).take dstLen).length ≤ dstLen ∧
      (if (held ++ src).length ≤ dstLen then CompressCode.ok else .dataPending) ≠ .compressError ∧
      emitted ++ (held ++ src).take dstLen ++ (held ++ src).drop dstLen =
        emitted ++ held ++ src.take src.length ∧
      ((if (held ++ src).length ≤ dstLen then CompressCode.ok else .dataPending) = .ok →
        src.length = src.length → emitted ++ (held ++ src).take dstLen = emitted ++ held ++ src) ∧
      (src.length = 0 → (held ++ src).take dstLen = [] → src = [] ∧
        (if (held ++ src).length ≤ dstLen then CompressCode.ok else .dataPending) = .ok) ∧
      (src.length = 0 → ((held ++ src).take dstLen).length + ((held ++ src).drop dstLen).length ≤
        held.length) := by
  refine ⟨le_refl _, List.length_take_le _ _, ?_, ?_, ?_, ?_, ?_⟩
  · split <;> decide
  · rw [List.take_length, List.append_assoc, List.take_append_drop, List.append_assoc]
  · intro code _
    have fits : (held ++ src).length ≤ dstLen := by
      by_contra more
      rw [if_neg more] at code
      cases code
    rw [List.take_of_length_le fits, List.append_assoc]
  · intro none silent
    rcases List.take_eq_nil_iff.mp silent with zero | nothing
    · omega
    · rw [nothing]
      exact ⟨List.length_eq_zero_iff.mp none, if_pos (Nat.zero_le _)⟩
  · intro none
    rw [← List.length_append, List.take_append_drop, List.length_append, none, Nat.add_zero]

def storingCompressor : StreamingCompressor storing where
  output := fun _ bytes => bytes
  Holds := fun (state : List UInt8) _ taken emitted => emitted ++ state = taken
  held := fun (state : List UInt8) => state.length
  output_nil := fun _ => rfl
  output_grows := fun _ first more => List.prefix_append first more
  holds_create := fun _ => rfl
  held_create := fun _ => rfl
  behind := fun state _ _ _ holds => ⟨state, holds⟩
  write := by
    rintro state _ taken emitted src dstLen rfl room
    exact storing_writes state emitted src room

/-- A query that is compressed and a message that is not. -/
def twoMessages : List Message := [.plain 81 (List.replicate 64 65), .plain 88 []]

theorem zpqWrite_passesOn_twoMessages :
    ∃ results sending, (Sending.start storing 1 (encodeAll twoMessages)).calls
        [⟨3, []⟩, ⟨70, [.sent 20, .failed 0]⟩] = some (results, sending) ∧
      ∃ times results' last, sending.calls
          (List.replicate times (push (encodeAll twoMessages).length)) = some (results', last) ∧
        accepted (results ++ results') = (encodeAll twoMessages).length ∧
        decode storingCompressor.output none (given (results ++ results')) =
          encodeAll twoMessages := by
  have client : ∀ message ∈ twoMessages, ClientMessage message := by
    intro message member
    rcases List.mem_cons.mp member with rfl | member
    · exact ⟨by decide, rfl, rfl⟩
    · rcases List.mem_cons.mp member with rfl | member
      · exact ⟨by decide, rfl, rfl⟩
      · cases member
  obtain ⟨results, sending, done, -, -, -, passed⟩ := zpqWrite_passesOn storingCompressor 1
    twoMessages client [⟨3, []⟩, ⟨70, [.sent 20, .failed 0]⟩]
  exact ⟨results, sending, done, passed⟩

/-! ## A full buffer -/

section Full

variable {zpq : ZpqSender algorithms} {msgType : UInt8} {body : List UInt8}

/-- The sender after so many bytes of a message that is not compressed. -/
def begun (zpq : ZpqSender algorithms) (message : List UInt8) (taken : Nat) :
    ZpqSender algorithms := { zpq with
  isCompressing := false
  txMsgBytesLeft := message.length - taken
  txOut := zpq.txOut.sizeAdvance (message.take taken) }

/-- A message that is not compressed is written as far as there is room for it. -/
theorem writeInternal_plain (client : ClientMessage (.plain msgType body))
    (none : zpq.txMsgBytesLeft = 0) (quiet : zpq.csBuffered = false)
    (unmapped : zpq.compressorByMsgType msgType = -1) (room : 6 < zpq.txOut.left) {taken : Nat}
    (counted : taken = min zpq.txOut.left (frame msgType body).length) :
    zpq.writeInternal (frame msgType body) =
      some ((taken : Int), 0, begun zpq (frame msgType body) taken) := by
  have length := frame_length msgType body
  have size : (msgLen (frame msgType body) + 1) % 2 ^ 32 = (frame msgType body).length := by
    have whole : msgLen (frame msgType body ++ []) = body.length + 4 :=
      msgLen_frame (by have fits := client.1; omega) []
    rw [List.append_nil] at whole
    rw [whole, length]
    exact Nat.mod_eq_of_lt client.1
  have head : (frame msgType body).headD 0 = msgType := rfl
  generalize frame msgType body = message at *
  have toggled : zpq.writeTurn message = some (Option.none, 0, { zpq with
      isCompressing := false
      txMsgBytesLeft := message.length }) := by
    have choice : zpq.chooseCompressor msgType (msgLen message) = -1 := by
      rw [ZpqSender.chooseCompressor, unmapped]
      split <;> rfl
    rw [ZpqSender.writeTurn, readAhead_stops (.inl none)]
    change zpq.handle message = _
    rw [ZpqSender.handle, quiet, if_neg (by simp [none]), if_neg (by omega), if_neg (by omega), head,
      ZpqSender.toggleCompression, size, choice]
    dsimp only
    rw [if_neg fun both => both.1 rfl]
    rfl
  have copied : ({ zpq with isCompressing := false, txMsgBytesLeft := message.length } :
      ZpqSender algorithms).writeTurn message =
        some (Option.none, taken, begun zpq message taken) := by
    have stays : ({ zpq with isCompressing := false, txMsgBytesLeft := message.length } :
        ZpqSender algorithms).readAhead message message.length message.length =
          some message.length := by
      rw [ZpqSender.readAhead.eq_def]
      refine if_neg ?_
      rintro ⟨-, more, -⟩
      omega
    have buffered : ({ zpq with isCompressing := false, txMsgBytesLeft := message.length } :
        ZpqSender algorithms).csBuffered = false := quiet
    have some_bytes : 0 < message.length := by omega
    rw [ZpqSender.writeTurn, stays]
    dsimp only
    rw [ZpqSender.handle, buffered, if_neg (by simp), if_pos some_bytes]
    dsimp only [ZpqSender.writeUncompressed]
    rw [Nat.min_self, List.take_length, ← counted]
    rfl
  obtain ⟨turns, fuel⟩ : ∃ turns, 4 * message.length + 4 * zpq.txOut.left + 4 = turns + 2 :=
    ⟨4 * message.length + 4 * zpq.txOut.left + 2, rfl⟩
  have full : ¬ (taken < message.length ∧ 6 < (begun zpq message taken).txOut.left) := by
    rw [begun, left_sizeAdvance, List.length_take]
    omega
  rw [ZpqSender.writeInternal, fuel, ZpqSender.writeLoop, toggled]
  dsimp only
  rw [if_pos ⟨by omega, room⟩, List.drop_zero, ZpqSender.writeLoop, copied]
  dsimp only
  rw [if_neg full, Nat.zero_add]

/-- A sender with nothing at hand takes a message that is not compressed, and keeps what it has no
room for. -/
theorem fillLoop_plain (client : ClientMessage (.plain msgType body)) (idle : zpq.txIn = .init)
    (none : zpq.txMsgBytesLeft = 0) (quiet : zpq.csBuffered = false)
    (unmapped : zpq.compressorByMsgType msgType = -1) (room : 6 < zpq.txOut.left)
    (small : (frame msgType body).length ≤ bufferSize) {taken : Nat}
    (counted : taken = min zpq.txOut.left (frame msgType body).length) (turns : Nat) :
    zpq.fillLoop (turns + 2) (frame msgType body) 0 =
      some (Option.none, (frame msgType body).length, { begun zpq (frame msgType body) taken with
        txIn := ((⟨frame msgType body, 0⟩ : ZpqBuffer).posAdvance taken).reuse }) := by
  have length := frame_length msgType body
  have quiet' : ({ zpq with txIn := ⟨frame msgType body, 0⟩ } : ZpqSender algorithms).csBuffered =
      false := quiet
  have room' : 6 < ({ zpq with txIn := ⟨frame msgType body, 0⟩ } :
      ZpqSender algorithms).txOut.left := room
  have counted' : taken = min ({ zpq with txIn := ⟨frame msgType body, 0⟩ } :
      ZpqSender algorithms).txOut.left (frame msgType body).length := counted
  have none' : ({ zpq with txIn := ⟨frame msgType body, 0⟩ } :
      ZpqSender algorithms).txMsgBytesLeft = 0 := none
  have internal := writeInternal_plain client none' quiet' unmapped room' counted'
  generalize frame msgType body = message at *
  have some_bytes : message ≠ [] := List.length_pos_iff.mp (by omega)
  have copy : min zpq.txIn.left message.length = message.length := by
    rw [idle]
    exact Nat.min_eq_right small
  have advance : zpq.txIn.sizeAdvance message = ⟨message, 0⟩ := by
    rw [idle]
    rfl
  have some_taken : 0 < (taken : Int) := by
    omega
  have first : zpq.fillTurn message = some (Option.none, message.length,
      { begun zpq message taken with
        txIn := ((⟨message, 0⟩ : ZpqBuffer).posAdvance taken).reuse }) := by
    rw [ZpqSender.fillTurn]
    dsimp only
    rw [copy, List.take_length, advance]
    dsimp only
    rw [if_neg fun both => some_bytes both.1, internal]
    dsimp only
    rw [if_pos some_taken, Int.toNat_natCast]
    rfl
  rw [fillLoop_turn room, first]
  dsimp only
  rw [List.drop_length, Nat.zero_add]
  have output : ({ begun zpq message taken with
      txIn := ((⟨message, 0⟩ : ZpqBuffer).posAdvance taken).reuse } : ZpqSender algorithms).txOut =
        zpq.txOut.sizeAdvance (message.take taken) := rfl
  have input : ({ begun zpq message taken with
      txIn := ((⟨message, 0⟩ : ZpqBuffer).posAdvance taken).reuse } :
        ZpqSender algorithms).txIn.unread = message.drop taken := reuse_unread _
  have silent : ({ begun zpq message taken with
      txIn := ((⟨message, 0⟩ : ZpqBuffer).posAdvance taken).reuse } : ZpqSender algorithms).csBuffered =
        false := quiet
  generalize ({ begun zpq message taken with
      txIn := ((⟨message, 0⟩ : ZpqBuffer).posAdvance taken).reuse } : ZpqSender algorithms) = next
    at output input silent ⊢
  by_cases more : 6 < next.txOut.left
  · have all : message.length ≤ taken := by
      rw [output, left_sizeAdvance, List.length_take] at more
      omega
    have emptied : next.txIn.unread = [] := input.trans (List.drop_of_length_le all)
    have ends : next.fillTurn [] = some (some Option.none, 0, next) := by
      rw [ZpqSender.fillTurn]
      dsimp only
      rw [List.take_nil, sizeAdvance_nil, List.length_nil, Nat.min_zero]
      exact if_pos ⟨emptied, silent⟩
    rw [fillLoop_turn more, ends]
    rfl
  · exact fillLoop_full more _ _ _

end Full

theorem sendLoop_blocked {zpq : ZpqSender algorithms} (some_bytes : zpq.txOut.unread ≠ []) :
    ZpqSender.sendLoop [] zpq = (some 0, [], { zpq with txOut := zpq.txOut.reuse }) := by
  rw [ZpqSender.sendLoop.eq_def]
  exact if_neg some_bytes

/-- A first message whose send is blocked stays in the second buffer. -/
theorem first_blocked {first : List UInt8} (client : ClientMessage (.plain 88 first))
    (near : (frame 88 first).length + 6 < bufferSize) :
    ∃ zpq : ZpqSender storing, (ZpqSender.create storing 1).zpqWrite (frame 88 first) [] =
        some ⟨0, (frame 88 first).length, [], zpq⟩ ∧ zpq.txIn = .init ∧ zpq.txMsgBytesLeft = 0 ∧
      zpq.csBuffered = false ∧ zpq.compressorByMsgType 88 = -1 ∧
      zpq.txOut = ⟨frame 88 first, 0⟩ := by
  have length := frame_length 88 first
  have create_left : (ZpqSender.create storing 1).txOut.left = bufferSize := rfl
  have all : (frame 88 first).length =
      min (ZpqSender.create storing 1).txOut.left (frame 88 first).length := by
    rw [create_left]
    omega
  have filled : (ZpqSender.create storing 1).fillLoop ((frame 88 first).length + 0 + 1)
      (frame 88 first) 0 = _ :=
    fillLoop_plain client rfl rfl rfl rfl (by decide) (by omega) all ((frame 88 first).length - 1)
  have some_first : frame 88 first ≠ [] := List.cons_ne_nil _ _
  have fuel : (frame 88 first).length + (ZpqSender.create storing 1).txIn.unread.length + 1 =
      (frame 88 first).length + 0 + 1 := rfl
  rw [ZpqSender.zpqWrite, fuel, filled]
  dsimp only
  have output : ((ZpqSender.create storing 1).txOut.sizeAdvance
      ((frame 88 first).take (frame 88 first).length)) = ⟨frame 88 first, 0⟩ := by
    rw [List.take_length]
    rfl
  rw [begun]
  dsimp only
  rw [output, sendLoop_blocked some_first]
  refine ⟨_, rfl, ?_, Nat.sub_self _, rfl, rfl, ?_⟩
  · dsimp only
    rw [ZpqBuffer.posAdvance, List.drop_length, ZpqBuffer.reuse]
    rfl
  · dsimp only
    rw [ZpqBuffer.reuse]
    split <;> rfl

/-- Behind it only the room that is left takes of the second message, and all of that is sent. -/
theorem second_cut {first second : List UInt8} {zpq : ZpqSender storing}
    (client : ClientMessage (.plain 88 second)) (near : (frame 88 first).length + 6 < bufferSize)
    (small : (frame 88 second).length ≤ bufferSize)
    (large : bufferSize ≤ (frame 88 first).length + (frame 88 second).length)
    (idle : zpq.txIn = .init) (none : zpq.txMsgBytesLeft = 0) (quiet : zpq.csBuffered = false)
    (unmapped : zpq.compressorByMsgType 88 = -1) (held : zpq.txOut = ⟨frame 88 first, 0⟩) :
    ∃ next, zpq.zpqWrite (frame 88 second) [.sent bufferSize] =
      some ⟨(frame 88 second).length, 0, frame 88 first ++
        (frame 88 second).take (bufferSize - (frame 88 first).length), next⟩ := by
  have length := frame_length 88 second
  have room : zpq.txOut.left = bufferSize - (frame 88 first).length := by
    rw [held, ZpqBuffer.left, ZpqBuffer.size, Nat.zero_add]
  have counted : bufferSize - (frame 88 first).length =
      min zpq.txOut.left (frame 88 second).length := by omega
  have filled := fillLoop_plain client idle none quiet unmapped (by omega) small counted
    ((frame 88 second).length - 1)
  have fuel : (frame 88 second).length + zpq.txIn.unread.length + 1 =
      (frame 88 second).length - 1 + 2 := by
    have empty : zpq.txIn.unread.length = 0 := by
      rw [idle]
      rfl
    omega
  have output : (begun zpq (frame 88 second) (bufferSize - (frame 88 first).length)).txOut =
      ⟨frame 88 first ++ (frame 88 second).take (bufferSize - (frame 88 first).length), 0⟩ := by
    rw [begun, ZpqBuffer.sizeAdvance]
    dsimp only
    rw [held]
  have bounded : (begun zpq (frame 88 second) (bufferSize - (frame 88 first).length)).txOut.size ≤
      bufferSize := by
    rw [output, ZpqBuffer.size, List.length_append, List.length_take]
    dsimp only
    omega
  generalize named : ({ begun zpq (frame 88 second) (bufferSize - (frame 88 first).length) with
      txIn := ((⟨frame 88 second, 0⟩ : ZpqBuffer).posAdvance
        (bufferSize - (frame 88 first).length)).reuse } : ZpqSender storing) = next at filled
  have output' : next.txOut.unread =
      frame 88 first ++ (frame 88 second).take (bufferSize - (frame 88 first).length) := by
    rw [← named]
    exact congrArg ZpqBuffer.unread output
  have bounded' : next.txOut.size ≤ bufferSize := by
    rw [← named]
    exact bounded
  have whole := sendLoop_all bounded'
  obtain ⟨failed, given, txOut, sent, total, -, -, emptied, -⟩ :=
    sendLoop_sends [.sent bufferSize] next
  rw [sent] at whole
  change failed = Option.none at whole
  subst whole
  rw [emptied rfl, List.append_nil, output'] at total
  refine ⟨{ next with txOut := txOut }, ?_⟩
  rw [ZpqSender.zpqWrite, fuel, filled]
  dsimp only
  rw [sent, total]

/-- The second message is not passed on when more than the beginning of a header is missing. -/
theorem not_passedOn_cut {first second : List UInt8} {taken : Nat}
    (client : ClientMessage (.plain 88 first)) (client' : ClientMessage (.plain 88 second))
    (cut : taken + 5 ≤ (frame 88 second).length) :
    ¬PassedOn storingCompressor.output (frame 88 first ++ frame 88 second)
      (frame 88 first ++ (frame 88 second).take taken)
      ((frame 88 first).length + (frame 88 second).length) := by
  rintro ⟨header, same, short, -⟩
  have reads : Reads storingCompressor.output (frame 88 first) none (frame 88 first) := by
    have start : Reads storingCompressor.output [] none [] := reads_nil
    exact start.plain client
  have plains : ∀ message ∈ [Message.plain 88 second], ClientMessage message :=
    fun message member => List.mem_singleton.mp member ▸ client'
  have shape : (frame 88 second).take taken ++ (frame 88 second).drop taken =
      encodeAll [Message.plain 88 second] := by
    rw [List.take_append_drop, encodeAll_cons, encodeAll, List.flatMap_nil, List.append_nil]
    rfl
  have part := (decode_part storingCompressor.output none plains shape).1.length_le
  have lengths := congrArg List.length same
  rw [reads, ← List.length_append, List.take_length, List.length_append, List.length_append,
    List.length_append] at lengths
  rw [List.length_take] at part
  omega

/-- A first message whose send is blocked leaves no room for all of the second one. -/
theorem second_held_back {first second : List UInt8} (client : ClientMessage (.plain 88 first))
    (client' : ClientMessage (.plain 88 second)) (near : (frame 88 first).length + 6 < bufferSize)
    (small : (frame 88 second).length ≤ bufferSize)
    (large : bufferSize + 5 ≤ (frame 88 first).length + (frame 88 second).length) :
    ∃ results sending written,
      (Sending.start storing 1 (encodeAll [.plain 88 first, .plain 88 second])).calls
          [⟨(frame 88 first).length, []⟩, push (frame 88 second).length] =
        some (results, sending) ∧
      results.getLast? = some written ∧ 0 < written.rc ∧
      ¬PassedOn storingCompressor.output (encodeAll [.plain 88 first, .plain 88 second])
        (given results) (accepted results) := by
  have length := frame_length 88 second
  have input : encodeAll [.plain 88 first, .plain 88 second] = frame 88 first ++ frame 88 second := by
    rw [encodeAll_cons, encodeAll_cons, encodeAll, List.flatMap_nil, List.append_nil]
    rfl
  obtain ⟨zpq, blocked, idle, none, quiet, unmapped, held⟩ := first_blocked client near
  obtain ⟨next, cut⟩ := second_cut client' near small (by omega) idle none quiet unmapped held
  have call : (Sending.start storing 1 (frame 88 first ++ frame 88 second)).call
      ⟨(frame 88 first).length, []⟩ = some (⟨0, (frame 88 first).length, [], zpq⟩,
        ⟨zpq, frame 88 second⟩) := by
    rw [Sending.call, Sending.start]
    dsimp only
    rw [List.take_left, blocked, Option.map_some]
    dsimp only [Written.accepted]
    rw [if_neg (by decide), List.drop_left]
  have call' : Sending.call ⟨zpq, frame 88 second⟩ (push (frame 88 second).length) = some
      (⟨(frame 88 second).length, 0, frame 88 first ++
        (frame 88 second).take (bufferSize - (frame 88 first).length), next⟩, ⟨next, []⟩) := by
    rw [Sending.call, push]
    dsimp only
    rw [List.take_length, cut, Option.map_some]
    dsimp only [Written.accepted]
    rw [if_pos (by omega), Int.toNat_natCast, List.drop_length]
  rw [input]
  refine ⟨[⟨0, (frame 88 first).length, [], zpq⟩, ⟨(frame 88 second).length, 0, frame 88 first ++
      (frame 88 second).take (bufferSize - (frame 88 first).length), next⟩], ⟨next, []⟩, _, ?_, rfl,
    ?_, ?_⟩
  · simp only [Sending.calls, call, call', Option.map_some]
  · change 0 < ((frame 88 second).length : Int)
    omega
  · have gave : given [(⟨0, (frame 88 first).length, [], zpq⟩ : Written storing),
        ⟨(frame 88 second).length, 0, frame 88 first ++
          (frame 88 second).take (bufferSize - (frame 88 first).length), next⟩] =
        frame 88 first ++ (frame 88 second).take (bufferSize - (frame 88 first).length) := by
      rw [given, List.flatMap_cons, List.nil_append, List.flatMap_singleton]
    have total : accepted [(⟨0, (frame 88 first).length, [], zpq⟩ : Written storing),
        ⟨(frame 88 second).length, 0, frame 88 first ++
          (frame 88 second).take (bufferSize - (frame 88 first).length), next⟩] =
        (frame 88 first).length + (frame 88 second).length := by
      simp only [accepted, List.map_cons, List.map_nil, List.sum_cons, List.sum_nil,
        Written.accepted]
      rw [if_neg (by decide), if_pos (by omega), Int.toNat_natCast, Nat.add_zero]
    rw [gave, total]
    exact not_passedOn_cut client client' (by omega)

/-- Two messages, of which only the first fits into the second buffer. -/
def bigMessages : List Message :=
  [.plain 88 (List.replicate 8191985 0), .plain 88 (List.replicate 95 0)]

/-- A full second buffer holds a message back, though the call returns that it took all of it. -/
theorem zpqWrite_passesOn_wrong :
    ¬ ∀ (algorithms : TxAlgorithms) (compressor : StreamingCompressor algorithms)
      (nCompressors : Nat) (messages : List Message),
      (∀ message ∈ messages, ClientMessage message) → ∀ calls : List WriteCall,
      ∀ results sending written, (Sending.start algorithms nCompressors (encodeAll messages)).calls
          calls = some (results, sending) →
        results.getLast? = some written → 0 < written.rc →
          PassedOn compressor.output (encodeAll messages) (given results) (accepted results) := by
  intro every
  have client : ∀ length, length + 5 < 2 ^ 32 →
      ClientMessage (.plain 88 (List.replicate length 0)) := by
    intro length fits
    exact ⟨by rwa [List.length_replicate], rfl, rfl⟩
  have size : ∀ length, (frame 88 (List.replicate length 0)).length = length + 5 := by
    intro length
    rw [frame_length, List.length_replicate]
  have first := client 8191985 (by decide)
  have second := client 95 (by decide)
  obtain ⟨results, sending, written, done, last, positive, fails⟩ := second_held_back first second
    (by rw [size]; decide) (by rw [size]; decide) (by rw [size, size]; decide)
  refine fails (every storing storingCompressor 1 bigMessages ?_ _ results sending written done
    last positive)
  intro message member
  rcases List.mem_cons.mp member with rfl | member
  · exact first
  · rcases List.mem_cons.mp member with rfl | member
    · exact second
    · cases member

end RedshiftOdbc.Zpq

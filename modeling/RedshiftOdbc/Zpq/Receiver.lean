import RedshiftOdbc.Zpq.Sender

/-!
# What the receiver makes of the bytes

The receiver takes the bytes it is sent apart into messages.  Cut anywhere, they
stand for the beginning of what all of them stand for.
-/

namespace RedshiftOdbc.Zpq

open RedshiftOdbc.Words

/-! ## The receiver -/

/-- What a compressed payload adds to the bytes decompressed before. -/
def unpack (output : Nat → List UInt8 → List UInt8) (payload : List UInt8) : Method → List UInt8
  | none => []
  | some (index, written) => (output index (written ++ payload)).drop (output index written).length

/--
What the receiver makes of the bytes it is sent: a `k` message sets the method, an
`m` message stands for its decompression once it is complete, and any other
message is passed on as its bytes come, once its header is complete.
-/
def decode (output : Nat → List UInt8 → List UInt8) (method : Method) (bytes : List UInt8) :
    List UInt8 :=
  if bytes.length < 5 then []
  else if isSetCompressionMsg (bytes.headD 0) then
    match _ : bytes.drop 5 with
    | [] => []
    | algorithmIdx :: later => decode output (method.switch algorithmIdx.toNat) later
  else if isCompressedMsg (bytes.headD 0) then
    if msgLen bytes + 1 ≤ bytes.length then
      let payload := (bytes.take (msgLen bytes + 1)).drop 5
      unpack output payload method ++
        decode output (method.after (.compressedData payload)) (bytes.drop (msgLen bytes + 1))
    else []
  else bytes.take (msgLen bytes + 1) ++ decode output method (bytes.drop (msgLen bytes + 1))
termination_by bytes.length
decreasing_by
  · have length := congrArg List.length ‹bytes.drop 5 = _›
    rw [List.length_drop, List.length_cons] at length
    omega
  · rw [List.length_drop]
    omega
  · rw [List.length_drop]
    omega

/-- A message of the client, whose length is a number of the protocol. -/
def ClientMessage : Message → Prop
  | .plain msgType body => body.length + 5 < 2 ^ 32 ∧ isSetCompressionMsg msgType = false ∧
      isCompressedMsg msgType = false
  | _ => False

section Decode

variable {output : Nat → List UInt8 → List UInt8} {method : Method}

theorem decode_short {bytes : List UInt8} (short : bytes.length < 5) :
    decode output method bytes = [] := by
  rw [decode, if_pos short]

theorem decode_nil : decode output method [] = [] := decode_short (by decide)

theorem length_frame_append (msgType : UInt8) (body more : List UInt8) :
    ¬ (frame msgType body ++ more).length < 5 := by
  rw [List.length_append, frame_length]
  omega

/-- A plain message is passed on. -/
theorem decode_plain {msgType : UInt8} {body : List UInt8}
    (client : ClientMessage (.plain msgType body)) (more : List UInt8) :
    decode output method (frame msgType body ++ more) =
      frame msgType body ++ decode output method more := by
  obtain ⟨fits, notSet, notCompressed⟩ := client
  have size : msgLen (frame msgType body ++ more) + 1 = (frame msgType body).length := by
    rw [msgLen_frame (by omega), frame_length]
  have head : (frame msgType body ++ more).headD 0 = msgType := rfl
  rw [decode, if_neg (length_frame_append _ _ _), head, notSet, notCompressed, size,
    List.take_left, List.drop_left]
  rfl

theorem decode_switch (algorithmIdx : UInt8) (more : List UInt8) :
    decode output method (frame 107 [algorithmIdx] ++ more) =
      decode output (method.switch algorithmIdx.toNat) more := by
  rw [decode, if_neg (length_frame_append _ _ _)]
  rfl

theorem decode_compressed {payload : List UInt8} (fits : payload.length + 5 < 2 ^ 32)
    (more : List UInt8) :
    decode output method (frame 109 payload ++ more) = unpack output payload method ++
      decode output (method.after (.compressedData payload)) more := by
  have size : msgLen (frame 109 payload ++ more) + 1 = (frame 109 payload).length := by
    rw [msgLen_frame (by omega), frame_length]
  have body : (frame 109 payload).drop 5 = payload := by
    have word : (big 4 (payload.length + 4)).length = 4 := big_length 4 _
    rw [frame, List.drop_succ_cons, List.drop_left' word]
  have head : (frame 109 payload ++ more).headD 0 = 109 := rfl
  rw [decode, if_neg (length_frame_append _ _ _), head, if_neg (by decide), if_pos (by decide), size,
    if_pos (by rw [List.length_append]; omega), List.take_left, List.drop_left, body]

/-- A header that is complete is not changed by more bytes. -/
theorem header_append {bytes : List UInt8} (complete : ¬ bytes.length < 5) (more : List UInt8) :
    ¬ (bytes ++ more).length < 5 ∧ (bytes ++ more).headD 0 = bytes.headD 0 ∧
      msgLen (bytes ++ more) = msgLen bytes := by
  refine ⟨by rw [List.length_append]; omega, ?_, ?_⟩
  · cases bytes with
    | nil => simp at complete
    | cons first rest => rfl
  · have front : msgLen ((bytes ++ more).take bytes.length) = msgLen (bytes ++ more) :=
      msgLen_take (by omega)
    rw [← front, List.take_left]

/-- More bytes only add to what the receiver makes of them. -/
theorem decode_grows (bytes more : List UInt8) :
    decode output method bytes <+: decode output method (bytes ++ more) := by
  fun_induction decode output method bytes with
  | case1 method bytes short => exact List.nil_prefix
  | case2 method bytes complete set rest => exact List.nil_prefix
  | case3 method bytes complete set algorithmIdx later rest ih =>
      obtain ⟨complete', head, length⟩ := header_append complete more
      have behind : (bytes ++ more).drop 5 = algorithmIdx :: (later ++ more) := by
        rw [List.drop_append_of_le_length (by omega), rest, List.cons_append]
      rw [decode.eq_def output method (bytes ++ more), if_neg complete', head, if_pos set]
      split
      · rename_i none
        rw [behind] at none
        cases none
      · rename_i idx tail some_rest
        rw [behind] at some_rest
        cases some_rest
        exact ih
  | case4 method bytes complete notSet compressed whole payload ih =>
      obtain ⟨complete', head, length⟩ := header_append complete more
      rw [decode.eq_def output method (bytes ++ more), if_neg complete', head, if_neg notSet,
        if_pos compressed, length, if_pos (by rw [List.length_append]; omega),
        List.take_append_of_le_length whole, List.drop_append_of_le_length whole]
      exact (List.prefix_append_right_inj _).mpr ih
  | case5 method bytes complete notSet compressed part => exact List.nil_prefix
  | case6 method bytes complete notSet notCompressed ih =>
      obtain ⟨complete', head, length⟩ := header_append complete more
      rw [decode.eq_def output method (bytes ++ more), if_neg complete', head, if_neg notSet,
        if_neg notCompressed, length]
      by_cases whole : msgLen bytes + 1 ≤ bytes.length
      · rw [List.take_append_of_le_length whole, List.drop_append_of_le_length whole]
        exact (List.prefix_append_right_inj _).mpr ih
      · rw [List.take_of_length_le (by omega), List.drop_of_length_le (by omega), decode_nil,
          List.append_nil, List.take_append, List.take_of_length_le (by omega), List.append_assoc]
        exact List.prefix_append _ _

/-- A part of plain messages is passed on, all of it when its last header is complete. -/
theorem decode_part (output : Nat → List UInt8 → List UInt8) (method : Method)
    {plains : List Message} (client : ∀ message ∈ plains, ClientMessage message)
    {part rest : List UInt8} (shape : part ++ rest = encodeAll plains) :
    decode output method part <+: part ∧
      ((rest = [] ∨ ∃ before last, plains = before ++ [last] ∧
        rest.length + 5 ≤ last.encode.length) → decode output method part = part) := by
  induction plains generalizing part with
  | nil =>
      obtain ⟨rfl, rfl⟩ := List.append_eq_nil_iff.mp shape
      rw [decode_nil]
      exact ⟨List.prefix_refl _, fun _ => rfl⟩
  | cons message plains ih =>
      have formed := client message (List.mem_cons_self ..)
      cases message with
      | plain msgType body =>
          rw [encodeAll_cons] at shape
          change part ++ rest = frame msgType body ++ encodeAll plains at shape
          have total := congrArg List.length shape
          rw [List.length_append, List.length_append, frame_length] at total
          by_cases whole : (frame msgType body).length ≤ part.length
          · obtain ⟨later, rfl⟩ : ∃ later, part = frame msgType body ++ later := by
              have front : frame msgType body <+: part ++ rest := shape ▸ List.prefix_append _ _
              obtain ⟨later, same⟩ :=
                List.prefix_of_prefix_length_le front (List.prefix_append _ _) whole
              exact ⟨later, same.symm⟩
            rw [List.append_assoc, List.append_cancel_left_eq] at shape
            obtain ⟨prefixed, all⟩ := ih
              (fun message member => client message (List.mem_cons_of_mem _ member)) shape
            rw [decode_plain formed]
            refine ⟨(List.prefix_append_right_inj _).mpr prefixed, fun ends => ?_⟩
            rw [all]
            rcases ends with none | ⟨before, last, split, near⟩
            · exact .inl none
            · cases before with
              | nil =>
                  rw [List.nil_append, List.cons.injEq] at split
                  rw [split.2] at shape
                  exact .inl (List.append_eq_nil_iff.mp shape).2
              | cons first before =>
                  rw [List.cons_append, List.cons.injEq] at split
                  exact .inr ⟨before, last, split.2, near⟩
          · by_cases short : part.length < 5
            · rw [decode_short short]
              refine ⟨List.nil_prefix, fun ends => ?_⟩
              rw [frame_length] at whole
              rcases ends with rfl | ⟨before, last, split, near⟩
              · rw [List.length_nil] at total
                omega
              · cases before with
                | nil =>
                    rw [List.nil_append, List.cons.injEq] at split
                    rw [← split.1, encode_length] at near
                    change rest.length + 5 ≤ body.length + 5 at near
                    omega
                | cons first before =>
                    rw [List.cons_append, List.cons.injEq] at split
                    rw [split.2, encodeAll, List.flatMap_append, List.flatMap_singleton,
                      List.length_append] at total
                    omega
            · obtain ⟨-, head, length⟩ := header_append short rest
              have all : decode output method part = part := by
                have type : part.headD 0 = msgType := by
                  rw [← head, shape]
                  rfl
                have size : msgLen part + 1 = (frame msgType body).length := by
                  rw [← length, shape, msgLen_frame (by have fits := formed.1; omega), frame_length]
                rw [decode.eq_def, if_neg short, type, formed.2.1, formed.2.2, size,
                  if_neg Bool.false_ne_true, if_neg Bool.false_ne_true,
                  List.take_of_length_le (Nat.le_of_not_le whole),
                  List.drop_of_length_le (Nat.le_of_not_le whole), decode_nil, List.append_nil]
              rw [all]
              exact ⟨List.prefix_refl _, fun _ => rfl⟩
      | _ => exact formed.elim

/--
The receiver that got these bytes stands between two messages; it has this method
and has passed on what it made of them.
-/
def Reads (output : Nat → List UInt8 → List UInt8) (bytes : List UInt8) (method : Method)
    (got : List UInt8) : Prop :=
  ∀ more, decode output none (bytes ++ more) = got ++ decode output method more

theorem reads_nil : Reads output [] none [] := fun _ => rfl

namespace Reads

variable {bytes got : List UInt8}

theorem decoded (reads : Reads output bytes method got) : decode output none bytes = got := by
  have all := reads []
  rwa [List.append_nil, decode_nil, List.append_nil] at all

theorem plain (reads : Reads output bytes method got) {msgType : UInt8} {body : List UInt8}
    (client : ClientMessage (.plain msgType body)) :
    Reads output (bytes ++ frame msgType body) method (got ++ frame msgType body) := by
  intro more
  rw [List.append_assoc, reads, decode_plain client, List.append_assoc]

theorem plains (reads : Reads output bytes method got) {messages : List Message}
    (client : ∀ message ∈ messages, ClientMessage message) :
    Reads output (bytes ++ encodeAll messages) method (got ++ encodeAll messages) := by
  induction messages generalizing bytes got with
  | nil => simpa [encodeAll] using reads
  | cons message messages ih =>
      have formed := client message (List.mem_cons_self ..)
      cases message with
      | plain msgType body =>
          have later := ih (reads.plain formed)
            fun message member => client message (List.mem_cons_of_mem _ member)
          rw [List.append_assoc, List.append_assoc] at later
          exact later
      | _ => exact formed.elim

theorem switch (reads : Reads output bytes method got) (algorithmIdx : UInt8) :
    Reads output (bytes ++ frame 107 [algorithmIdx]) (method.switch algorithmIdx.toNat) got := by
  intro more
  rw [List.append_assoc, reads, decode_switch]

theorem compressed (reads : Reads output bytes method got) {payload : List UInt8}
    (fits : payload.length + 5 < 2 ^ 32) :
    Reads output (bytes ++ frame 109 payload) (method.after (.compressedData payload))
      (got ++ unpack output payload method) := by
  intro more
  rw [List.append_assoc, reads, decode_compressed fits, List.append_assoc]

end Reads

end Decode

end RedshiftOdbc.Zpq

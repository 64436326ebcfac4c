import RedshiftOdbc.Convert.Copy

/-!
# Hexadecimal text, write by write

`copyBinaryToHexDataBigLen` and `copyWBinaryToHexDataBigLen` with every element
they store, where the index is the one the code uses.  The narrow function rounds
the length of the buffer down to an even one first and then puts the terminator
at the end of what it was left with.
-/

namespace RedshiftOdbc.Convert

open RedshiftOdbc.Words

/-- What a function stored, in its order, and its return code. -/
structure Rendered where
  writes : List (Int × Nat)
  rc : SqlReturn
  deriving DecidableEq, Repr

/-- The element of a buffer that was stored last at an index. -/
def stored (writes : List (Int × Nat)) (index : Int) : Option Nat :=
  (writes.reverse.find? fun write => write.1 = index).map Prod.snd

/-- The loop over the source, two digits at a time, while the index is below a bound. -/
def storeDigits : List Nat → Int → Int → List (Int × Nat)
  | [], _, _ => []
  | byte :: pSrc, outputIndex, bound =>
      if outputIndex < bound then
        (outputIndex, hexDigit (byte / 16 % 16)) :: (outputIndex + 1, hexDigit (byte % 16)) ::
          storeDigits pSrc (outputIndex + 2) bound
      else []

/-- `copyBinaryToHexDataBigLen` with a buffer; `pcbLen` says whether there is a place for the length. -/
def binaryToHex (pSrc : List Nat) (cbLen : Int) (pcbLen : Bool) : Rendered :=
  let cbLen := if cbLen % 2 = 1 then cbLen - 1 else cbLen
  let (writes, rc) :=
    if 0 < pSrc.length then
      let len := wrap 4 (2 * pSrc.length)
      let (output_len, rc) :=
        if len < cbLen then (len, SqlReturn.success) else (wrap 4 cbLen, .successWithInfo)
      (storeDigits pSrc 0 output_len ++ [(output_len, 0)], rc)
    else (if 0 < cbLen then [(0, 0)] else [], .success)
  ⟨writes, if pcbLen then rc else .success⟩

/-- `copyWBinaryToHexDataBigLen` with a buffer of `cbLen` bytes, its elements counted in characters. -/
def wBinaryToHex (charSize : Nat) (pSrc : List Nat) (cbLen : Int) : Rendered :=
  let requiredChars := 2 * pSrc.length
  if cbLen ≤ 0 then ⟨[], .success⟩
  else
    let capChars := cbLen.toNat / charSize
    if capChars = 0 then ⟨[], .success⟩
    else
      let usable := min (capChars - 1) requiredChars
      let usable := usable - usable % 2
      ⟨storeDigits pSrc 0 usable ++ [((usable : Int), 0)],
        if usable < requiredChars then .successWithInfo else .success⟩

/-! ## Elements behind each other -/

/-- Elements stored from an index on. -/
def placed : Int → List Nat → List (Int × Nat)
  | _, [] => []
  | index, element :: rest => (index, element) :: placed (index + 1) rest

theorem placed_append (index : Int) (first second : List Nat) :
    placed index (first ++ second) = placed index first ++ placed (index + first.length) second := by
  induction first generalizing index with
  | nil => simp [placed]
  | cons element rest ih =>
      have shift : index + 1 + (rest.length : Int) = index + (rest.length + 1 : Nat) := by
        push_cast
        ring
      rw [List.cons_append, placed, ih, placed, List.cons_append, List.length_cons, shift]

theorem mem_placed {index : Int} {elements : List Nat} {write : Int × Nat} :
    write ∈ placed index elements → index ≤ write.1 ∧ write.1 < index + elements.length := by
  induction elements generalizing index with
  | nil => intro member; cases member
  | cons element rest ih =>
      intro member
      rw [List.length_cons]
      rcases List.mem_cons.mp member with rfl | later
      · simp only
        omega
      · have bounds := ih later
        omega

theorem stored_append_singleton (writes : List (Int × Nat)) (write : Int × Nat) (index : Int) :
    stored (writes ++ [write]) index =
      if write.1 = index then some write.2 else stored writes index := by
  rw [stored, List.reverse_append, List.reverse_singleton, List.singleton_append,
    List.find?_cons]
  split_ifs with here <;> simp [here, stored]

/-- Elements that were stored are found where they were stored. -/
theorem stored_placed (elements : List Nat) (index : Nat) :
    stored (placed 0 elements) index = elements[index]? := by
  induction elements using List.reverseRecOn with
  | nil => rfl
  | append_singleton elements last ih =>
      rw [placed_append, placed, placed, stored_append_singleton, ih]
      simp only [Int.zero_add, Nat.cast_inj]
      split_ifs with here
      · simp [← here]
      · rcases Nat.lt_or_ge index elements.length with inside | behind
        · rw [List.getElem?_append_left inside]
        · rw [List.getElem?_eq_none behind, List.getElem?_eq_none]
          simp
          omega

/-- The loop stores the digits of as many bytes as the bound has room for. -/
theorem storeDigits_eq (pSrc : List Nat) (outputIndex : Int) {pairs : Nat}
    (le : pairs ≤ pSrc.length) : storeDigits pSrc outputIndex (outputIndex + 2 * pairs) =
      placed outputIndex (hexEncode (pSrc.take pairs)) := by
  induction pSrc generalizing outputIndex pairs with
  | nil =>
      obtain rfl : pairs = 0 := Nat.le_zero.mp le
      rfl
  | cons byte pSrc ih =>
      cases pairs with
      | zero => simp [storeDigits, hexEncode, placed]
      | succ pairs =>
          rw [List.length_cons] at le
          have next := ih (outputIndex + 2) (Nat.le_of_succ_le_succ le)
          have bound : outputIndex + 2 * ((pairs + 1 : Nat) : Int) = outputIndex + 2 + 2 * pairs := by
            push_cast
            ring
          rw [storeDigits, if_pos (by push_cast; omega), bound, next, List.take_succ_cons]
          have shift : outputIndex + 1 + 1 = outputIndex + 2 := by ring
          simp [hexEncode, placed, shift]

theorem hexEncode_length (bytes : List Nat) : (hexEncode bytes).length = 2 * bytes.length := by
  induction bytes with
  | nil => rfl
  | cons byte bytes ih =>
      rw [hexEncode, List.flatMap_cons, List.length_append, ← hexEncode, ih, List.length_cons]
      simp
      omega

/-- The digits of the first bytes are the first digits. -/
theorem hexEncode_take (bytes : List Nat) (pairs : Nat) :
    hexEncode (bytes.take pairs) = (hexEncode bytes).take (2 * pairs) := by
  induction bytes generalizing pairs with
  | nil => simp [hexEncode]
  | cons byte bytes ih =>
      cases pairs with
      | zero => simp [hexEncode]
      | succ pairs =>
          have next := ih pairs
          simp only [hexEncode, List.take_succ_cons, List.flatMap_cons] at next ⊢
          rw [next, Nat.mul_succ]
          simp

theorem hexDigit_ne_zero (value : Nat) : hexDigit value ≠ 0 := by
  rw [hexDigit]
  split_ifs <;> omega

/-! ## A text with its end -/

/-- The digits of some bytes and a terminator. -/
def textWrites (bytes : List Nat) (pairs : Nat) : List (Int × Nat) :=
  placed 0 ((hexEncode bytes).take (2 * pairs) ++ [0])

theorem storeDigits_text (bytes : List Nat) {pairs : Nat} (le : pairs ≤ bytes.length) :
    storeDigits bytes 0 (2 * pairs : Nat) ++ [(((2 * pairs : Nat) : Int), 0)] =
      textWrites bytes pairs := by
  have digits := storeDigits_eq bytes 0 le
  have length : ((hexEncode bytes).take (2 * pairs)).length = 2 * pairs := by
    rw [List.length_take, hexEncode_length]
    omega
  rw [Int.zero_add, hexEncode_take] at digits
  rw [textWrites, placed_append, length, Int.zero_add]
  push_cast
  rw [digits]
  rfl

/-- What is stored below the terminator, and the terminator. -/
theorem stored_textWrites (bytes : List Nat) {pairs : Nat} (le : pairs ≤ bytes.length) :
    (∀ index : Nat, index < 2 * pairs →
      stored (textWrites bytes pairs) index = (hexEncode bytes)[index]?) ∧
    stored (textWrites bytes pairs) (2 * pairs : Nat) = some 0 := by
  have length : ((hexEncode bytes).take (2 * pairs)).length = 2 * pairs := by
    rw [List.length_take, hexEncode_length]
    omega
  constructor
  · intro index inside
    rw [textWrites, stored_placed, List.getElem?_append_left (by omega),
      List.getElem?_take_of_lt inside]
  · rw [textWrites, stored_placed, List.getElem?_append_right (by omega), length, Nat.sub_self]
    rfl

theorem textWrites_bounded (bytes : List Nat) {pairs : Nat} (le : pairs ≤ bytes.length)
    (cbLen : Int) : (∀ write ∈ textWrites bytes pairs, 0 ≤ write.1 ∧ write.1 < cbLen) ↔
      2 * (pairs : Int) < cbLen := by
  rw [← storeDigits_text bytes le]
  constructor
  · intro bounded
    have last := bounded (((2 * pairs : Nat) : Int), 0) (by simp)
    simp only at last
    omega
  · intro inside write member
    rw [storeDigits_text bytes le] at member
    have bounds := mem_placed member
    rw [List.length_append, List.length_take, hexEncode_length, List.length_singleton] at bounds
    omega

/-- A digit is not a terminator: texts of different length differ. -/
theorem textWrites_ne (bytes : List Nat) {first second : Nat} (less : first < second)
    (le : second ≤ bytes.length) :
    stored (textWrites bytes first) (2 * first : Nat) ≠
      stored (textWrites bytes second) (2 * first : Nat) := by
  rw [(stored_textWrites bytes (by omega)).2, (stored_textWrites bytes le).1 _ (by omega)]
  intro same
  have member := List.mem_of_getElem? same.symm
  rw [hexEncode, List.mem_flatMap] at member
  obtain ⟨byte, -, digit⟩ := member
  rw [List.mem_pair] at digit
  rcases digit with high | low
  · exact hexDigit_ne_zero _ high.symm
  · exact hexDigit_ne_zero _ low.symm

/-- What is promised of a rendering: where it stores, what it leaves, and its code. -/
structure Rendered.Exact (rendered : Rendered) (bytes : List Nat) (cbLen : Int) : Prop where
  bounded : ∀ write ∈ rendered.writes, 0 ≤ write.1 ∧ write.1 < cbLen
  text : ∃ pairs ≤ bytes.length,
    (∀ index : Nat, index < 2 * pairs →
      stored rendered.writes index = (hexEncode bytes)[index]?) ∧
    stored rendered.writes (2 * pairs : Nat) = some 0
  code : rendered.rc = .success ↔ 2 * (bytes.length : Int) + 1 ≤ cbLen

/-- Two renderings leave the same characters and return the same code. -/
def Rendered.Agrees (first second : Rendered) : Prop :=
  (∀ index : Int, stored first.writes index = stored second.writes index) ∧ first.rc = second.rc

theorem textWrites_agrees {bytes : List Nat} {first second : Nat} {rc rc' : SqlReturn}
    (leFirst : first ≤ bytes.length) (leSecond : second ≤ bytes.length) :
    Rendered.Agrees ⟨textWrites bytes first, rc⟩ ⟨textWrites bytes second, rc'⟩ ↔
      first = second ∧ rc = rc' := by
  constructor
  · rintro ⟨same, code⟩
    refine ⟨?_, code⟩
    rcases Nat.lt_trichotomy first second with less | equal | more
    · exact absurd (same _) (textWrites_ne bytes less leSecond)
    · exact equal
    · exact absurd (same _).symm (textWrites_ne bytes more leFirst)
  · rintro ⟨rfl, rfl⟩
    exact ⟨fun _ => rfl, rfl⟩

theorem textWrites_exact {bytes : List Nat} {pairs : Nat} {rc : SqlReturn} {cbLen : Int}
    (le : pairs ≤ bytes.length) : Rendered.Exact ⟨textWrites bytes pairs, rc⟩ bytes cbLen ↔
      2 * (pairs : Int) < cbLen ∧ (rc = .success ↔ 2 * (bytes.length : Int) + 1 ≤ cbLen) := by
  constructor
  · rintro ⟨bounded, -, code⟩
    exact ⟨(textWrites_bounded bytes le cbLen).mp bounded, code⟩
  · rintro ⟨inside, code⟩
    exact ⟨(textWrites_bounded bytes le cbLen).mpr inside,
      ⟨pairs, le, stored_textWrites bytes le⟩, code⟩

/-! ## The two functions -/

/-- The wide function for a buffer with room for some characters. -/
theorem wBinaryToHex_eq (bytes : List Nat) {charSize : Nat} (wide : charSize = 2 ∨ charSize = 4)
    {cbLen : Int} {capacity : Nat} (room : 0 < capacity)
    (isCapacity : cbLen / charSize = capacity) :
    wBinaryToHex charSize bytes cbLen =
      ⟨textWrites bytes (min ((capacity - 1) / 2) bytes.length),
        if capacity < 2 * bytes.length + 1 then .successWithInfo else .success⟩ := by
  have positive : ¬ cbLen ≤ 0 := by
    rcases wide with rfl | rfl <;> omega
  have chars : cbLen.toNat / charSize = capacity := by
    rcases wide with rfl | rfl <;> omega
  have usable : min (capacity - 1) (2 * bytes.length) - min (capacity - 1) (2 * bytes.length) % 2 =
      2 * min ((capacity - 1) / 2) bytes.length := by omega
  simp only [wBinaryToHex, if_neg positive, chars, if_neg room.ne', usable]
  rw [storeDigits_text bytes (Nat.min_le_right _ _)]
  have cut : 2 * min ((capacity - 1) / 2) bytes.length < 2 * bytes.length ↔
      capacity < 2 * bytes.length + 1 := by omega
  simp only [cut]

/-- The narrow function for bytes whose digits an `int` can count. -/
theorem binaryToHex_eq {bytes : List Nat} (some_byte : 0 < bytes.length)
    (small : bytes.length < 1073741824) {cbLen : Int} (nonneg : 0 ≤ cbLen) (pcbLen : Bool) :
    binaryToHex bytes cbLen pcbLen =
      ⟨textWrites bytes (min (cbLen / 2).toNat bytes.length),
        if pcbLen ∧ cbLen < 2 * bytes.length + 2 then .successWithInfo else .success⟩ := by
  have len : wrap 4 (2 * (bytes.length : Int)) = 2 * bytes.length :=
    wrap_of_range (by norm_num; omega) (by norm_num; omega)
  obtain ⟨even, isEven⟩ : ∃ even, even = if cbLen % 2 = 1 then cbLen - 1 else cbLen := ⟨_, rfl⟩
  have half : even = 2 * (cbLen / 2) := by
    rw [isEven]
    split_ifs <;> omega
  have fits : 2 * (bytes.length : Int) < even ↔ ¬ cbLen < 2 * bytes.length + 2 := by omega
  simp only [binaryToHex, ← isEven, if_pos some_byte, len]
  by_cases whole : 2 * (bytes.length : Int) < even
  · have room := fits.mp whole
    have pairs : min (cbLen / 2).toNat bytes.length = bytes.length := by omega
    have text := storeDigits_text bytes (Nat.le_refl bytes.length)
    push_cast at text
    simp only [if_pos whole, pairs, room, and_false, if_false, text, ite_self]
  · have short := not_not.mp (mt fits.mpr whole)
    have pairs : min (cbLen / 2).toNat bytes.length = (cbLen / 2).toNat := by omega
    have output : wrap 4 even = ((2 * (cbLen / 2).toNat : Nat) : Int) := by
      rw [half, wrap_of_range (by norm_num; omega) (by norm_num; omega)]
      omega
    simp only [if_neg whole, pairs, short, and_true, output]
    rw [storeDigits_text bytes (by omega)]

/-- Beyond that the terminator is stored in front of the buffer. -/
theorem binaryToHex_large {bytes : List Nat} (large : 1073741824 ≤ bytes.length)
    (int : bytes.length ≤ 2147483647) {cbLen : Int} (nonneg : 0 ≤ cbLen) (pcbLen : Bool) :
    ∃ write ∈ (binaryToHex bytes cbLen pcbLen).writes, write.1 < 0 := by
  have len : wrap 4 (2 * (bytes.length : Int)) = 2 * bytes.length - 4294967296 := by
    have same : wrap 4 (2 * (bytes.length : Int)) = wrap 4 (2 * bytes.length - 4294967296) :=
      wrap_congr (by norm_num)
    rw [same]
    exact wrap_of_range (by norm_num; omega) (by norm_num; omega)
  have less : 2 * (bytes.length : Int) - 4294967296 <
      if cbLen % 2 = 1 then cbLen - 1 else cbLen := by
    split_ifs <;> omega
  refine ⟨(2 * (bytes.length : Int) - 4294967296, 0), ?_, by simp only; omega⟩
  simp only [binaryToHex, len, if_pos less, if_pos (show 0 < bytes.length by omega)]
  simp

/-- Nothing but a terminator, for which an even length must be left. -/
theorem binaryToHex_nil {cbLen : Int} (nonneg : 0 ≤ cbLen) (pcbLen : Bool) :
    binaryToHex [] cbLen pcbLen = ⟨if 2 ≤ cbLen then textWrites [] 0 else [], .success⟩ := by
  have even : (0 < if cbLen % 2 = 1 then cbLen - 1 else cbLen) ↔ 2 ≤ cbLen := by
    split_ifs <;> omega
  simp only [binaryToHex, List.length_nil, Nat.lt_irrefl, if_false, even, ite_self]
  rfl

/-! ## Exactly when -/

theorem hexToBinary_hexDigit {value : Nat} (small : value < 16) :
    hexToBinary (hexDigit value) = value := by
  revert value
  decide

/-- The bytes of a whole hexadecimal text. -/
theorem hexDecode_hexEncode {bytes : List Nat} (small : ∀ byte ∈ bytes, byte < 256) :
    hexDecode (hexEncode bytes) = bytes := by
  induction bytes with
  | nil => rfl
  | cons byte bytes ih =>
      have inside := small byte List.mem_cons_self
      have rest := ih fun later member => small later (List.mem_cons_of_mem _ member)
      have high := hexToBinary_hexDigit (Nat.mod_lt (byte / 16) (by decide : 0 < 16))
      have low := hexToBinary_hexDigit (Nat.mod_lt byte (by decide : 0 < 16))
      have text : hexEncode (byte :: bytes) =
          hexDigit (byte / 16 % 16) :: hexDigit (byte % 16) :: hexEncode bytes := rfl
      rw [text, hexDecode, rest, high, low]
      congr 1
      omega

theorem copyHexToBinary_hexEncode {bytes : List Nat} (small : ∀ byte ∈ bytes, byte < 256)
    {cbLen : Int} (room : bytes.length ≤ cbLen) :
    copyHexToBinaryDataBigLen (hexEncode bytes) cbLen 0 =
      ⟨.success, bytes, some bytes.length, 0⟩ := by
  have even : 2 * (bytes.length : Int) % 2 ≠ 1 := by omega
  have half : 2 * (bytes.length : Int) / 2 = bytes.length := by omega
  simp only [copyHexToBinaryDataBigLen, hexEncode_length, Nat.cast_mul, Nat.cast_ofNat,
    Int.mul_zero, Int.sub_zero, Int.toNat_zero, List.drop_zero, hexDecode_hexEncode small, half,
    if_neg even, if_pos room]
  split_ifs with some_byte
  · rfl
  · have none : bytes.length = 0 := by omega
    rw [List.length_eq_zero_iff.mp none]
    rfl

/-- With no byte to print. -/
theorem binaryToHex_nil_iff {charSize : Nat} (wide : charSize = 2 ∨ charSize = 4)
    {cbLen cbBytes : Int} (nonneg : 0 ≤ cbLen) (capacity : cbBytes / charSize = cbLen)
    (pcbLen : Bool) :
    ((binaryToHex [] cbLen pcbLen).Exact [] cbLen ∧
        (binaryToHex [] cbLen pcbLen).Agrees (wBinaryToHex charSize [] cbBytes)) ↔ 2 ≤ cbLen := by
  rw [binaryToHex_nil nonneg]
  by_cases room : 2 ≤ cbLen
  · have some_room : 0 < cbLen.toNat := by omega
    have wideText := wBinaryToHex_eq [] wide some_room (by rw [capacity]; omega)
    have pairs : min ((cbLen.toNat - 1) / 2) ([] : List Nat).length = 0 := Nat.min_zero _
    have long : ¬ cbLen.toNat < 2 * ([] : List Nat).length + 1 := by
      rw [List.length_nil]
      omega
    rw [pairs, if_neg long] at wideText
    rw [if_pos room, wideText, textWrites_exact (Nat.le_refl 0),
      textWrites_agrees (Nat.le_refl 0) (Nat.le_refl 0), List.length_nil]
    refine iff_of_true ⟨⟨by omega, ?_⟩, rfl, rfl⟩ room
    exact iff_of_true rfl (by omega)
  · rw [if_neg room]
    refine iff_of_false ?_ room
    rintro ⟨⟨-, ⟨pairs, -, -, last⟩, -⟩, -⟩
    cases last

/--
The narrow function keeps its promises, and agrees with the wide one, exactly when
the buffer is longer than the text, its end and one more, or shorter than both and
of odd length; without a place for the length only a buffer with room for the text
and its end will do.  A whole text is read back in any case.
-/
theorem binaryToHex_exact_iff {bytes : List Nat} (isByte : ∀ byte ∈ bytes, byte < 256)
    (int : bytes.length ≤ 2147483647) {charSize : Nat} (wide : charSize = 2 ∨ charSize = 4)
    {cbLen cbBytes : Int} (nonneg : 0 ≤ cbLen) (capacity : cbBytes / charSize = cbLen)
    (pcbLen : Bool) :
    (((binaryToHex bytes cbLen pcbLen).Exact bytes cbLen ∧
        (binaryToHex bytes cbLen pcbLen).Agrees (wBinaryToHex charSize bytes cbBytes)) ↔
      bytes.length < 1073741824 ∧
        (2 * (bytes.length : Int) + 2 ≤ cbLen ∨
          if pcbLen then cbLen % 2 = 1 ∧ cbLen < 2 * bytes.length + 1
          else 0 < bytes.length ∧ cbLen = 2 * bytes.length + 1)) ∧
    (∀ room : Int, bytes.length ≤ room → copyHexToBinaryDataBigLen (hexEncode bytes) room 0 =
      ⟨.success, bytes, some bytes.length, 0⟩) := by
  refine ⟨?_, fun room fits => copyHexToBinary_hexEncode isByte fits⟩
  rcases Nat.eq_zero_or_pos bytes.length with none | some_byte
  · obtain rfl := List.length_eq_zero_iff.mp none
    rw [binaryToHex_nil_iff wide nonneg capacity]
    cases pcbLen with
    | true =>
        simp only [if_true, List.length_nil]
        omega
    | false =>
        simp only [Bool.false_eq_true, if_false, List.length_nil]
        omega
  rcases Nat.lt_or_ge bytes.length 1073741824 with small | large
  · rw [binaryToHex_eq some_byte small nonneg, textWrites_exact (Nat.min_le_right _ _)]
    rcases Int.lt_or_eq_of_le nonneg with positive | zero
    · have wideText := wBinaryToHex_eq bytes wide (show 0 < cbLen.toNat by omega)
        (by rw [capacity]; omega)
      rw [wideText, textWrites_agrees (Nat.min_le_right _ _) (Nat.min_le_right _ _)]
      -- what is left is about the two lengths
      cases pcbLen with
      | true =>
          simp only [true_and, if_true]
          by_cases long : cbLen < 2 * (bytes.length : Int) + 2
          · rw [if_pos long]
            simp only [reduceCtorEq, false_iff]
            split_ifs <;> simp only [and_true, and_false, false_iff] <;> omega
          · rw [if_neg long, if_neg (by omega)]
            simp only [true_iff, and_true]
            omega
      | false =>
          simp only [Bool.false_eq_true, false_and, if_false, true_iff]
          split_ifs <;> simp only [and_true, and_false, false_iff] <;> omega
    · subst zero
      refine iff_of_false ?_ ?_
      · rintro ⟨⟨inside, -⟩, -⟩
        omega
      · split_ifs <;> omega
  · obtain ⟨write, member, negative⟩ := binaryToHex_large large int nonneg pcbLen
    refine iff_of_false ?_ (by omega)
    rintro ⟨⟨bounded, -⟩, -⟩
    have inside := (bounded write member).1
    omega

/--
A byte in a buffer of four: exact, the same as in a wide buffer of four, and read back.
Of four bytes a buffer of five holds the first two.
-/
theorem binaryToHex_exact_four :
    (((binaryToHex [171] 4 true).Exact [171] 4 ∧
        (binaryToHex [171] 4 true).Agrees (wBinaryToHex 2 [171] 8)) ∧
      copyHexToBinaryDataBigLen (hexEncode [171]) 1 0 = ⟨.success, [171], some 1, 0⟩) ∧
    (binaryToHex [171, 0, 205, 239] 5 true).Exact [171, 0, 205, 239] 5 ∧
      (binaryToHex [171, 0, 205, 239] 5 true).Agrees
        (wBinaryToHex 4 [171, 0, 205, 239] 20) :=
  have whole := binaryToHex_exact_iff (show ∀ byte ∈ [171], byte < 256 by decide) (by decide)
    (Or.inl rfl) (show (0 : Int) ≤ 4 by decide) (show (8 : Int) / (2 : Nat) = 4 by decide) true
  have cut := binaryToHex_exact_iff (show ∀ byte ∈ [171, 0, 205, 239], byte < 256 by decide)
    (by decide) (Or.inr rfl) (show (0 : Int) ≤ 5 by decide)
    (show (20 : Int) / (4 : Nat) = 5 by decide) true
  ⟨⟨whole.1.mpr (by decide), whole.2 1 (by decide)⟩, cut.1.mpr (by decide)⟩

/-- In a buffer of two the end of the text is stored behind it, and three report a truncation. -/
theorem binaryToHex_exact_wrong : ¬ ∀ (bytes : List Nat) (cbLen : Int) (pcbLen : Bool),
    (∀ byte ∈ bytes, byte < 256) → 0 ≤ cbLen → (binaryToHex bytes cbLen pcbLen).Exact bytes cbLen := by
  intro always
  have two := (always [171] 2 true (by decide) (by decide)).bounded (2, 0) (by decide)
  exact absurd two.2 (by decide)

end RedshiftOdbc.Convert

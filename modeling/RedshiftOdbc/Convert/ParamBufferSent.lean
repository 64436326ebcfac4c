import RedshiftOdbc.Convert.ParamBuffer

/-!
# Text parameters that are sent whole

Where the lengths fit, no clause is taken off in the memory of the application, wide
characters are valid and what has a length is no binary data and without zeros, the
text of the selected bytes is sent whole and every execution sends the same.
-/

namespace RedshiftOdbc.ParamBuffer

open RedshiftOdbc.Codes RedshiftOdbc.Convert RedshiftOdbc.Words

/-! ## Zeros -/

theorem zero_mem_encode {α : Type} [OfNat α 0] {code : Char → List α}
    (here : ∀ character, 0 ∈ code character ↔ character = '\x00') (characters : List Char) :
    0 ∈ encode code characters ↔ '\x00' ∈ characters := by
  simp [encode, List.mem_flatMap, here]

theorem toNat_eq_zero (character : Char) : character.toNat = 0 ↔ character = '\x00' := by
  constructor
  · intro zero
    rw [← Char.ofNat_toNat character, zero]
  · rintro rfl
    rfl

theorem zero_mem_utf8 (characters : List Char) :
    0 ∈ encode String.utf8EncodeChar characters ↔ '\x00' ∈ characters := by
  refine zero_mem_encode (fun character => ?_) characters
  rw [← toNat_eq_zero]
  fun_cases String.utf8EncodeChar character with
  | case1 v small =>
      have whole : v = character.toNat := rfl
      simp [← UInt8.toNat_inj]
      omega
  | case2 v large =>
      have whole : v = character.toNat := rfl
      simp [← UInt8.toNat_inj]
      omega
  | case3 v _ large =>
      have whole : v = character.toNat := rfl
      simp [← UInt8.toNat_inj]
      omega
  | case4 v _ _ large =>
      have whole : v = character.toNat := rfl
      simp [← UInt8.toNat_inj]
      omega

theorem zero_mem_units (unicodeType : UnicodeType) (characters : List Char) :
    0 ∈ unicodeType.units characters ↔ '\x00' ∈ characters := by
  cases unicodeType with
  | utf16 =>
      have code : ∀ character, 0 ∈ utf16EncodeChar character ↔ character = '\x00' := by
        intro character
        have range := char_range character
        rw [← toNat_eq_zero, utf16EncodeChar]
        split_ifs <;> simp [← UInt16.toNat_inj] <;> omega
      rw [UnicodeType.units, ← zero_mem_encode code, ← UInt16.toNat_zero,
        List.mem_map_of_injective fun _ _ => UInt16.toNat_inj.mp]
  | utf32 =>
      have code : ∀ character, 0 ∈ utf32EncodeChar character ↔ character = '\x00' := by
        intro character
        rw [← toNat_eq_zero, utf32EncodeChar, List.mem_singleton, ← UInt32.toNat_inj, eq_comm]
        exact Iff.rfl
      rw [UnicodeType.units, ← zero_mem_encode code, ← UInt32.toNat_zero,
        List.mem_map_of_injective fun _ _ => UInt32.toNat_inj.mp]

/-! ## Texts that are read whole -/

theorem sqlwcharToUtf8Str_encodes {unicodeType : UnicodeType} {units : List Nat} {cchLen : Int}
    {characters : List Char} (natural : 0 ≤ cchLen)
    (source : units.take cchLen.toNat = unicodeType.units characters) :
    sqlwcharToUtf8Str unicodeType units cchLen = encode String.utf8EncodeChar characters := by
  have length : cchLen ≠ sqlNts := by
    rw [sqlNts]
    omega
  have read : sourceUnits units cchLen = unicodeType.units characters := by
    rw [sourceUnits, if_neg length, source]
  have known : ¬(cchLen < 0 ∧ cchLen ≠ sqlNts) := by omega
  cases unicodeType with
  | utf16 =>
      have whole : ((encode utf16EncodeChar characters).map UInt16.toNat).map UInt16.ofNat =
          encode utf16EncodeChar characters := by
        rw [List.map_map]
        exact List.map_id'' (fun _ => UInt16.ofNat_toNat) _
      simp only [sqlwcharToUtf8Str, if_neg known, read, UnicodeType.units, whole, utf16ToUtf8Throw,
        utf16Decode_encode, Option.map_some, Option.getD_some]
  | utf32 =>
      have whole : ((encode utf32EncodeChar characters).map UInt32.toNat).map UInt32.ofNat =
          encode utf32EncodeChar characters := by
        rw [List.map_map]
        exact List.map_id'' (fun _ => UInt32.ofNat_toNat) _
      simp only [sqlwcharToUtf8Str, if_neg known, read, UnicodeType.units, whole, utf32ToUtf8Throw,
        utf32Decode_encode, Option.map_some, Option.getD_some]

namespace Binding

section
variable {binding : Binding} {indicator : Indicator} {memory : List UInt8} {bytes : Nat}
  {characters : List Char}

theorem convertAndAllocate_encodes {count : Nat} (short : count < 2 ^ 31)
    (source : (unitsOf binding.unicodeType.sizeofSQLWCHAR memory).take count =
      binding.unicodeType.units characters) :
    binding.convertAndAllocate memory count =
      .own (encode String.utf8EncodeChar characters ++ [0]) := by
  have whole : wrap 4 (count : Int) = count := wrap_of_range (by omega) (by omega)
  rw [convertAndAllocate, whole,
    sqlwcharToUtf8Str_encodes (Int.natCast_nonneg count) (by rwa [Int.toNat_natCast])]

theorem wcharVal_nts (stated : binding.plParamDataStrLenInd = some Indicator.nts.toInt)
    (fits : binding.Fits .wchar .nts memory)
    (source : binding.unicodeType.units characters =
      unitsOf binding.unicodeType.sizeofSQLWCHAR (binding.selected .wchar .nts memory)) :
    binding.wcharVal memory = .own (encode String.utf8EncodeChar characters ++ [0]) := by
  obtain ⟨short, room⟩ := fits.2 rfl rfl
  have ended : binding.iIndicator = sqlNts := iIndicator_eq stated fits.1
  have distinct : sqlNts ≠ sqlNullData := by decide
  have front := List.takeWhile_prefix (fun unit => decide (unit ≠ 0))
    (l := unitsOf binding.unicodeType.sizeofSQLWCHAR memory)
  rw [selected, unitSize, if_pos rfl,
    unitsOf_upToTerminator (sizeofSQLWCHAR_pos binding.unicodeType)] at source
  simp only [wcharVal, ended, distinct, if_true, if_false, sqlwcsnlenCap_eq,
    Nat.min_eq_right room]
  refine convertAndAllocate_encodes short ?_
  rw [source]
  exact (List.prefix_iff_eq_take.mp front).symm

theorem wcharVal_length
    (stated : binding.plParamDataStrLenInd = some (Indicator.length bytes).toInt)
    (fits : bytes < 2 ^ 31) (holds : binding.Holds .wchar (.length bytes) memory)
    (natural : 0 ≤ binding.iParamDataLen)
    (source : binding.unicodeType.units characters =
      unitsOf binding.unicodeType.sizeofSQLWCHAR (binding.selected .wchar (.length bytes) memory)) :
    binding.wcharVal memory = .own (encode String.utf8EncodeChar characters ++ [0]) := by
  have indicated : binding.iIndicator = bytes := iIndicator_eq stated fits
  have given : binding.plParamDataStrLenInd ≠ none := by simp [stated]
  have known : (bytes : Int) ≠ sqlNullData ∧ (bytes : Int) ≠ sqlNts := by
    rw [sqlNullData, sqlNts]
    omega
  have taken {count : Nat} (same : count = selectedCount binding.iParamDataLen bytes) :
      binding.convertAndAllocate memory (count / binding.unicodeType.sizeofSQLWCHAR) =
        .own (encode String.utf8EncodeChar characters ++ [0]) := by
    have fewer := Nat.div_le_self count binding.unicodeType.sizeofSQLWCHAR
    have short := selectedCount_le binding.iParamDataLen bytes
    refine convertAndAllocate_encodes (by omega) ?_
    rw [source, selected, same, unitsOf_take (sizeofSQLWCHAR_pos binding.unicodeType) holds]
  simp only [wcharVal, indicated, known.1, known.2, if_false, given, ne_eq, not_false_eq_true,
    true_and, and_true]
  split_ifs with positive inside stands zero
  · exact taken (by rw [selectedCount, if_neg (by omega)])
  · omega
  · exact taken (by rw [selectedCount, if_pos stands.1, Int.toNat_natCast])
  · have none : bytes = 0 := by omega
    have empty : characters = [] := by
      rw [selected, none, selectedCount, if_pos zero, List.take_zero] at source
      have length := congrArg List.length source
      cases characters with
      | nil => rfl
      | cons character more =>
          cases same : binding.unicodeType with
          | utf16 =>
              rcases utf16EncodeChar_shape character with ⟨u, shape, _⟩ | ⟨u, v, shape, _⟩ <;>
                simp [same, UnicodeType.units, unitsOf, shape] at length
          | utf32 => simp [same, UnicodeType.units, unitsOf, utf32EncodeChar] at length
    rw [empty]
    rfl
  · omega

variable (memory) in
theorem charVal_length (stated : binding.plParamDataStrLenInd = some (Indicator.length bytes).toInt)
    (fits : bytes < 2 ^ 31) (natural : 0 ≤ binding.iParamDataLen) :
    binding.charVal memory =
      some (.own (binding.selected .char (.length bytes) memory ++ [0])) := by
  have indicated : binding.iIndicator = bytes := iIndicator_eq stated fits
  have known : (bytes : Int) ≠ sqlNullData ∧ (bytes : Int) ≠ sqlNts := by
    rw [sqlNullData, sqlNts]
    omega
  have short := Nat.lt_of_le_of_lt (selectedCount_le binding.iParamDataLen bytes) fits
  have counted : binding.charLen = selectedCount binding.iParamDataLen bytes := by
    have given : binding.plParamDataStrLenInd ≠ none := by simp [stated]
    simp only [charLen, selectedCount, given, ne_eq, not_false_eq_true, and_true, indicated]
    split_ifs <;> omega
  rw [charVal, indicated, if_neg known.2, if_neg known.1, counted, selected]
  split_ifs with zero positive
  · rw [Int.natCast_eq_zero.mp zero]
    rfl
  · rw [rs_strdup_length short]
    rfl
  · omega

variable (memory) in
/-- Whatever the lengths say, characters with a length are copied or NULL. -/
theorem charVal_some (stated : binding.plParamDataStrLenInd = some indicator.toInt)
    (fits : indicator.Fits) (copied : indicator ≠ .nts) :
    ∃ pBuf, binding.charVal memory = some pBuf ∧ pBuf ≠ .application ∧
      (indicator = .null → pBuf = .null) ∧
      (indicator ≠ .null → binding.iParamDataLen < 0 → pBuf = .null) := by
  have own := charVal_own stated fits copied memory
  have indicated := iIndicator_eq stated fits
  cases indicator with
  | nts => exact absurd rfl copied
  | null =>
      refine ⟨.null, ?_, by simp, fun _ => rfl, fun _ _ => rfl⟩
      rw [charVal, indicated]
      rfl
  | length bytes =>
      rcases Int.lt_or_le binding.iParamDataLen 0 with negative | natural
      · refine ⟨.null, ?_, by simp, fun _ => rfl, fun _ _ => rfl⟩
        have indicated : binding.iIndicator = bytes := indicated
        have known : (bytes : Int) ≠ sqlNullData ∧ (bytes : Int) ≠ sqlNts := by
          rw [sqlNullData, sqlNts]
          omega
        have given : binding.plParamDataStrLenInd ≠ none := by simp [stated]
        have counted : binding.charLen < 0 := by
          rw [charLen, if_neg (by omega)]
          exact negative
        rw [charVal, indicated, if_neg known.2, if_neg known.1, if_neg (by omega),
          if_neg (by omega)]
      · exact ⟨_, charVal_length memory stated fits natural, by simp, by simp, by omega⟩

end

end Binding

/-! ## Buffers that stay as they are -/

namespace Binding

section
variable {reparse : Nat → List UInt8 → Option (List UInt8)} {binding : Binding} {hType : CType}
  {indicator : Indicator} {memory : List UInt8}

theorem memoryAfter_eq
    (unchanged : ∀ converted ∈ binding.convertCParamDataToSQLData reparse memory,
      converted.memory = memory) (count : Nat) :
    binding.memoryAfter reparse memory count = memory := by
  induction count with
  | zero => rfl
  | succ count ih =>
      rw [memoryAfter, ih]
      cases executed : binding.convertCParamDataToSQLData reparse memory with
      | none => rfl
      | some converted => exact unchanged converted executed

/-- A pair that is not taken is an error. -/
theorem convert_refused {pBuf : Pointer}
    (read : readType binding.hCType binding.hSQLType = some hType)
    (value : binding.getParamVal memory hType
      (boundSqlType binding.hSQLType binding.hPrepSQLType) = some pBuf)
    (other : ¬binding.Taken hType) :
    binding.convertCParamDataToSQLData reparse memory = some ⟨⟨none, true⟩, memory⟩ := by
  simp only [convertCParamDataToSQLData, read, value, Option.bind_some]
  exact if_neg other

/-- What is sent of a pair that is taken. -/
theorem convert_taken {pBuf : Pointer}
    (read : readType binding.hCType binding.hSQLType = some hType)
    (value : binding.getParamVal memory hType
      (boundSqlType binding.hSQLType binding.hPrepSQLType) = some pBuf)
    (taken : binding.Taken hType) :
    binding.convertCParamDataToSQLData reparse memory =
      binding.sendFrom reparse (boundSqlType binding.hSQLType binding.hPrepSQLType) memory
        pBuf := by
  simp only [convertCParamDataToSQLData, read, value, Option.bind_some]
  exact if_pos taken

/-- A copy is all that a clause is taken off from. -/
theorem leftAlone_of_own {pBuf : Pointer}
    (read : readType binding.hCType binding.hSQLType = some hType)
    (value : binding.getParamVal memory hType
      (boundSqlType binding.hSQLType binding.hPrepSQLType) = some pBuf)
    (own : pBuf ≠ .application) (null : indicator = .null → pBuf = .null)
    (whole : binding.Taken hType → indicator ≠ .null → ∃ text,
      binding.Encodes hType (binding.selected hType indicator memory) text ∧
        pBuf = .own (text ++ [0]) ∧
        binding.given reparse (DataAtExec.cString text) = binding.given reparse text)
    (same : ∀ other, binding.Holds hType indicator other →
      binding.selected hType indicator other = binding.selected hType indicator memory →
      binding.getParamVal other hType (boundSqlType binding.hSQLType binding.hPrepSQLType) =
        some pBuf) :
    binding.LeftAlone reparse hType indicator memory := by
  have unchanged : ∀ converted ∈ binding.convertCParamDataToSQLData reparse memory,
      converted.memory = memory := by
    intro converted executed
    by_cases taken : binding.Taken hType
    · rw [convert_taken read value taken] at executed
      cases pBuf with
      | null => rw [← Option.some.inj executed]
      | own bytes =>
          obtain ⟨_, _, rfl⟩ := Option.map_eq_some_iff.mp executed
          rfl
      | application => exact absurd rfl own
    · rw [convert_refused read value taken] at executed
      rw [← Option.some.inj executed]
  refine ⟨fun other => ?_, fun taken none => ?_, fun taken known => ?_,
    fun other holds agrees => ?_, unchanged, fun count => by rw [memoryAfter_eq unchanged count]⟩
  · rw [convert_refused read value other, Option.map_some]
  · rw [convert_taken read value taken, null none]
    rfl
  · obtain ⟨text, encodes, copy, free⟩ := whole taken known
    have handed := finish_given reparse binding (show 0 ∈ text ++ [0] by simp)
    rw [DataAtExec.cString_append_zero, free] at handed
    refine ⟨text, encodes, ?_⟩
    rw [convert_taken read value taken, copy, sendFrom, ← handed, Option.map_map, Option.map_map]
    rfl
  · have there := same other holds agrees
    by_cases taken : binding.Taken hType
    · rw [convert_taken read value taken, convert_taken read there taken]
      cases pBuf with
      | null => rfl
      | own bytes =>
          rw [sendFrom, sendFrom, Option.map_map, Option.map_map]
          rfl
      | application => exact absurd rfl own
    · rw [convert_refused read value taken, convert_refused read there taken]
      rfl

/-- A text in the memory of the application that keeps its clause. -/
theorem leftAlone_of_plain (read : readType binding.hCType binding.hSQLType = some hType)
    (points : ∀ other, binding.getParamVal other hType
      (boundSqlType binding.hSQLType binding.hPrepSQLType) = some .application)
    (known : indicator ≠ .null)
    (plain : binding.Taken hType →
      Plain (boundSqlType binding.hSQLType binding.hPrepSQLType) memory)
    (ended : binding.Taken hType → ∀ other, binding.Holds hType indicator other →
      0 ∈ other ∧ binding.selected hType indicator other = DataAtExec.cString other)
    (narrow : hType ≠ .wchar) (holds : binding.Holds hType indicator memory) :
    binding.LeftAlone reparse hType indicator memory := by
  have handed (taken : binding.Taken hType) {other : List UInt8} (zero : 0 ∈ other) :
      (binding.convertCParamDataToSQLData reparse other).map Converted.outcome =
        (binding.given reparse (DataAtExec.cString other)).map
          fun pcVal => ⟨some pcVal, false⟩ := by
    rw [convert_taken read (points other) taken, sendFrom, ← finish_given reparse binding zero,
      Option.map_map, Option.map_map]
    rfl
  have unchanged : ∀ converted ∈ binding.convertCParamDataToSQLData reparse memory,
      converted.memory = memory := by
    intro converted executed
    by_cases taken : binding.Taken hType
    · rw [convert_taken read (points memory) taken] at executed
      obtain ⟨text, sent, rfl⟩ := Option.map_eq_some_iff.mp executed
      exact finish_memory (plain taken) text sent
    · rw [convert_refused read (points memory) taken] at executed
      rw [← Option.some.inj executed]
  refine ⟨fun other => ?_, fun _ null => absurd null known, fun taken _ => ?_,
    fun other given agrees => ?_, unchanged, fun count => by rw [memoryAfter_eq unchanged count]⟩
  · rw [convert_refused read (points memory) other, Option.map_some]
  · obtain ⟨zero, selects⟩ := ended taken memory holds
    refine ⟨_, ?_, handed taken zero⟩
    rw [Encodes, if_neg narrow, selects]
  · by_cases taken : binding.Taken hType
    · obtain ⟨here, selects⟩ := ended taken memory holds
      obtain ⟨there, selected⟩ := ended taken other given
      rw [handed taken here, handed taken there, ← selects, ← selected, agrees]
    · rw [convert_refused read (points other) taken, convert_refused read (points memory) taken]
      rfl

/-! ## Where the condition holds -/

theorem zero_mem_unitsOf_one (memory : List UInt8) : 0 ∈ unitsOf 1 memory ↔ 0 ∈ memory := by
  rw [unitsOf_one]
  constructor
  · intro inside
    obtain ⟨byte, among, zero⟩ := List.mem_map.mp inside
    rwa [← UInt8.toNat_inj.mp (zero.trans UInt8.toNat_zero.symm)]
  · intro inside
    exact List.mem_map.mpr ⟨0, inside, UInt8.toNat_zero⟩

theorem leftAlone_char (read : readType binding.hCType binding.hSQLType = some .char)
    (stated : binding.plParamDataStrLenInd = some indicator.toInt) (fits : indicator.Fits)
    (holds : binding.Holds .char indicator memory)
    (keeps : ¬binding.Strips .char indicator memory)
    (sendable : binding.Taken .char → binding.Sendable .char indicator memory) :
    binding.LeftAlone reparse .char indicator memory := by
  by_cases ended : indicator = .nts
  · subst ended
    refine leftAlone_of_plain read (fun other => ?_) (by simp) (fun _ clause inside => ?_)
      (fun _ other given => ?_) (by simp) holds
    · exact if_pos (iIndicator_eq stated fits)
    · exact keeps ⟨rfl, rfl, clause, inside⟩
    · exact ⟨(zero_mem_unitsOf_one other).mp given, upToTerminator_one other⟩
  · obtain ⟨pBuf, value, own, null, negative⟩ := charVal_some memory stated fits ended
    refine leftAlone_of_own read value own null (fun taken known => ?_) fun other _ agrees => ?_
    · obtain ⟨_, natural, free⟩ := (sendable taken known).2 ended
      cases indicator with
      | nts => exact absurd rfl ended
      | null => exact absurd rfl known
      | length bytes =>
          have copied := charVal_length memory stated fits natural
          refine ⟨_, rfl, Option.some.inj (value.symm.trans copied), given_cString fun none => ?_⟩
          exact (zero_mem_unitsOf_one _).not.mp (free none)
    · rw [getParamVal, ← charVal_selected stated fits ended other, agrees,
        charVal_selected stated fits ended memory]
      exact value

theorem leftAlone_wchar (read : readType binding.hCType binding.hSQLType = some .wchar)
    (stated : binding.plParamDataStrLenInd = some indicator.toInt)
    (fits : binding.Fits .wchar indicator memory) (holds : binding.Holds .wchar indicator memory)
    (sendable : binding.Taken .wchar → binding.Sendable .wchar indicator memory) :
    binding.LeftAlone reparse .wchar indicator memory := by
  refine leftAlone_of_own read rfl (wcharVal_own memory) (fun null => ?_) (fun taken known => ?_)
    fun other given agrees => ?_
  · subst null
    have indicated : binding.iIndicator = sqlNullData := iIndicator_eq stated fits.1
    rw [wcharVal, if_pos indicated]
  · obtain ⟨valid, sized⟩ := sendable taken known
    obtain ⟨characters, source⟩ := valid rfl
    refine ⟨encode String.utf8EncodeChar characters, ?_, ?_, given_cString fun none => ?_⟩
    · rw [Encodes, if_pos rfl]
      exact ⟨characters, source, rfl⟩
    · cases indicator with
      | nts => exact wcharVal_nts stated fits source
      | length bytes => exact wcharVal_length stated fits.1 holds (sized (by simp)).2.1 source
      | null => exact absurd rfl known
    · rw [zero_mem_utf8, ← zero_mem_units binding.unicodeType, source]
      by_cases ended : indicator = .nts
      · subst ended
        rw [selected, unitSize, if_pos rfl,
          unitsOf_upToTerminator (sizeofSQLWCHAR_pos binding.unicodeType)]
        intro member
        simpa using List.mem_takeWhile_imp member
      · have free := (sized ended).2.2 none
        rwa [unitSize, if_pos rfl] at free
  · rw [getParamVal, ← wcharVal_selected stated fits.1 given, agrees,
      wcharVal_selected stated fits.1 holds]

/-- The types of bytes that are taken have no clauses. -/
theorem plain_of_takes_binary {hSQLType : ParamSqlType} {hCType : CType}
    (taken : takes hSQLType .binary hCType = true) (bytes : List UInt8) :
    Plain hSQLType bytes := by
  intro clause
  have bare := (types_of_clause clause hCType hSQLType).2.1
  rw [taken] at bare
  cases bare

theorem longvarbinary_of_takes {hSQLType : ParamSqlType}
    (taken : takes hSQLType .binary .binary = true) : hSQLType = .known .longvarbinary := by
  cases hSQLType with
  | known type => cases type <;> first | rfl | cases taken
  | unset => cases taken
  | varbinary => cases taken
  | other => cases taken

/-- Bytes that are taken are sent from the memory of the application. -/
theorem types_of_binary (read : readType binding.hCType binding.hSQLType = some .binary)
    (taken : takes (boundSqlType binding.hSQLType binding.hPrepSQLType) .binary binding.hCType =
      true) (stated : binding.iIndicator ≠ sqlNullData) :
    binding.binaryVal (boundSqlType binding.hSQLType binding.hPrepSQLType) = .application ∧
      reparseWidth (boundSqlType binding.hSQLType binding.hPrepSQLType) binding.hPrepSQLType =
        none := by
  have bytes : boundSqlType binding.hSQLType binding.hPrepSQLType ∈
      [.known .longvarbinary, .known .binary, ParamSqlType.varbinary] := by
    rw [readType] at read
    split_ifs at read with standard
    · rw [boundSqlType]
      unfold getDefaultCTypeFromSQLType at read
      split at read <;> simp_all
    · rw [Option.some.inj read] at taken
      rw [longvarbinary_of_takes taken]
      exact List.mem_cons_self
  simp only [List.mem_cons, List.not_mem_nil, or_false] at bytes
  refine ⟨?_, ?_⟩
  · rw [binaryVal, if_pos bytes, if_pos stated]
  · rcases bytes with type | type | type <;> rw [type] <;> rfl


theorem leftAlone_binary (read : readType binding.hCType binding.hSQLType = some .binary)
    (stated : binding.plParamDataStrLenInd = some indicator.toInt) (fits : indicator.Fits)
    (holds : binding.Holds .binary indicator memory)
    (sendable : binding.Taken .binary → binding.Sendable .binary indicator memory) :
    binding.LeftAlone reparse .binary indicator memory := by
  have indicated := iIndicator_eq stated fits
  cases application : binding.binaryVal (boundSqlType binding.hSQLType binding.hPrepSQLType) with
  | application =>
      have known : indicator ≠ .null := by
        rintro rfl
        rw [binaryVal, indicated] at application
        split_ifs at application
        exact absurd rfl ‹_›
      refine leftAlone_of_plain read (fun other => congrArg some application) known
        (fun taken => plain_of_takes_binary taken memory) (fun taken other given => ?_) (by simp)
        holds
      have ended : indicator = .nts := by
        by_contra length
        exact ((sendable taken known).2 length).1 rfl
      subst ended
      exact ⟨(zero_mem_unitsOf_one other).mp given, upToTerminator_one other⟩
  | null =>
      refine leftAlone_of_own read (congrArg some application) (by simp) (fun _ => rfl)
        (fun taken known => ?_) fun _ _ _ => congrArg some application
      have value := (types_of_binary read taken ?_).1
      · rw [application] at value
        cases value
      · rw [indicated]
        cases indicator with
        | nts => decide
        | length bytes => rw [Indicator.toInt, sqlNullData]; omega
        | null => exact absurd rfl known
  | own bytes =>
      rw [binaryVal] at application
      split_ifs at application

/-! ## Where it does not hold -/

/-- The end of a clause that is taken off is lost in the buffer. -/
theorem not_leftAlone_of_strips (read : readType binding.hCType binding.hSQLType = some hType)
    (stated : binding.plParamDataStrLenInd = some indicator.toInt)
    (holds : binding.Holds hType indicator memory)
    (strips : binding.Strips hType indicator memory) :
    ¬binding.LeftAlone reparse hType indicator memory := by
  obtain ⟨rfl, rfl, clause, inside⟩ := strips
  obtain ⟨taken, -, kept⟩ := types_of_clause clause binding.hCType binding.hPrepSQLType
  obtain ⟨skip, skips⟩ := Option.isSome_iff_exists.mp clause
  have among : closingBrace ∈ memory := (List.takeWhile_prefix _).mem inside
  have rest := zero_mem_drop_set ((zero_mem_unitsOf_one memory).mp holds)
    (escapeLength_name skips).1 (by decide : closingBrace ≠ 0) among
  have points : binding.charVal memory = some .application :=
    if_pos (iIndicator_eq stated trivial)
  intro leftAlone
  have sent := leftAlone.unchanged
  simp only [convertCParamDataToSQLData, read, getParamVal, points, Option.bind_some, taken,
    if_true, sendFrom, finish, stripEscape, skips, if_pos inside, if_pos rest, kept,
    Option.map_some, Option.mem_def, Option.some.injEq, forall_eq'] at sent
  have place := List.idxOf_lt_length_of_mem among
  have written := congrArg (·[memory.idxOf closingBrace]?) sent
  simp only [List.getElem?_set_self place, List.getElem?_eq_getElem place,
    List.getElem_idxOf place] at written
  exact absurd written (by decide)

/-- Without a conversion to an integer only the front of a zero is sent. -/
theorem convert_free (kept : reparseWidth (boundSqlType binding.hSQLType binding.hPrepSQLType)
      binding.hPrepSQLType = none) {pcVal : List UInt8} {iConversionError : Bool}
    (sent : (binding.convertCParamDataToSQLData reparse memory).map Converted.outcome =
      some ⟨some pcVal, iConversionError⟩) : 0 ∉ pcVal := by
  have finished {bytes : List UInt8} {text : List UInt8 × List UInt8}
      (done : binding.finish reparse (boundSqlType binding.hSQLType binding.hPrepSQLType) bytes =
        some text) : 0 ∉ text.1 := by
    simp only [finish, kept] at done
    split_ifs at done
    rw [← Option.some.inj done]
    exact DataAtExec.not_mem_cString _
  obtain ⟨converted, executed, outcome⟩ := Option.map_eq_some_iff.mp sent
  rw [convertCParamDataToSQLData] at executed
  split at executed
  · rw [← Option.some.inj executed] at outcome
    cases outcome
  · obtain ⟨pBuf, _, done⟩ := Option.bind_eq_some_iff.mp executed
    split_ifs at done
    · cases pBuf with
      | null =>
          rw [← Option.some.inj done] at outcome
          cases outcome
      | own bytes =>
          obtain ⟨text, finish, rfl⟩ := Option.map_eq_some_iff.mp done
          cases outcome
          exact finished finish
      | application =>
          obtain ⟨text, finish, rfl⟩ := Option.map_eq_some_iff.mp done
          cases outcome
          exact finished finish
    · rw [← Option.some.inj done] at outcome
      cases outcome

/-- Bytes with a length are not what the text at the pointer is. -/
theorem not_leftAlone_of_binary {bytes : Nat}
    (read : readType binding.hCType binding.hSQLType = some .binary)
    (stated : binding.plParamDataStrLenInd = some (Indicator.length bytes).toInt)
    (fits : bytes < 2 ^ 31) (holds : binding.Holds .binary (.length bytes) memory)
    (taken : binding.Taken .binary) :
    ¬binding.LeftAlone reparse .binary (.length bytes) memory := by
  have known : binding.iIndicator ≠ sqlNullData := by
    have indicated : binding.iIndicator = bytes := iIndicator_eq stated fits
    rw [indicated, sqlNullData]
    omega
  obtain ⟨points, kept⟩ := types_of_binary read taken known
  have value {other : List UInt8} : binding.getParamVal other .binary
      (boundSqlType binding.hSQLType binding.hPrepSQLType) = some .application :=
    congrArg some points
  have clauseless (text : List UInt8) :
      escapeLength (boundSqlType binding.hSQLType binding.hPrepSQLType) text = none := by
    by_contra clause
    have bare := (types_of_clause (Option.isSome_iff_ne_none.mpr clause) binding.hCType
      binding.hPrepSQLType).2.1
    rw [Taken, bare] at taken
    cases taken
  have whole (text : List UInt8) : binding.given reparse text = some text := by
    simp only [given, kept, literal, clauseless]
  have sends {other : List UInt8} (ended : 0 ∈ other) :
      (binding.convertCParamDataToSQLData reparse other).map Converted.outcome =
        some ⟨some (DataAtExec.cString other), false⟩ := by
    have handed := finish_given reparse binding ended
    rw [whole] at handed
    obtain ⟨text, finished, same⟩ := Option.map_eq_some_iff.mp handed
    rw [convert_taken read value taken, sendFrom, finished, Option.map_some, Option.map_some, same]
  intro leftAlone
  obtain ⟨text, encodes, sent⟩ := leftAlone.whole taken (by simp)
  rw [whole, Option.map_some] at sent
  have free := convert_free kept sent
  rw [Encodes, if_neg (by decide)] at encodes
  subst encodes
  generalize same : binding.selected .binary (.length bytes) memory = selected at free
  have room : selected.length = selectedCount binding.iParamDataLen bytes := by
    rw [← same]
    exact List.length_take_of_le holds
  have agrees (rest : List UInt8) : (binding.convertCParamDataToSQLData reparse
      (selected ++ rest)).map Converted.outcome =
        (binding.convertCParamDataToSQLData reparse memory).map Converted.outcome := by
    refine leftAlone.selected _ ?_ ((List.take_left' room).trans same.symm)
    rw [Holds, List.length_append, ← room]
    exact Nat.le_add_right _ _
  have short := agrees [0]
  have long := agrees [1, 0]
  rw [sends (by simp), DataAtExec.cString_append_zero, DataAtExec.cString_of_free free] at short
  rw [List.append_cons, sends (by simp), DataAtExec.cString_append_zero,
    DataAtExec.cString_of_free (by simp [free]), ← short] at long
  simp at long

theorem wcharVal_negative {bytes : Nat}
    (stated : binding.plParamDataStrLenInd = some (Indicator.length bytes).toInt)
    (fits : bytes < 2 ^ 31) (negative : binding.iParamDataLen < 0) :
    binding.wcharVal memory = .null := by
  have indicated : binding.iIndicator = bytes := iIndicator_eq stated fits
  have known : (bytes : Int) ≠ sqlNullData ∧ (bytes : Int) ≠ sqlNts := by
    rw [sqlNullData, sqlNts]
    omega
  simp only [wcharVal, indicated, known.1, known.2, if_false]
  rw [if_neg (by omega), if_neg (by omega), if_neg (by omega)]

/-- What is sent whole can be sent. -/
theorem sendable_of_leftAlone (text : hType = .char ∨ hType = .wchar ∨ hType = .binary)
    (read : readType binding.hCType binding.hSQLType = some hType)
    (stated : binding.plParamDataStrLenInd = some indicator.toInt) (fits : indicator.Fits)
    (holds : binding.Holds hType indicator memory) (taken : binding.Taken hType)
    (leftAlone : binding.LeftAlone reparse hType indicator memory) :
    binding.Sendable hType indicator memory := by
  intro known
  obtain ⟨sentText, encodes, sent⟩ := leftAlone.whole taken known
  refine ⟨?_, fun ended => ?_⟩
  · rintro rfl
    rw [Encodes, if_pos rfl] at encodes
    obtain ⟨characters, source, _⟩ := encodes
    exact ⟨characters, source⟩
  · obtain ⟨bytes, rfl⟩ : ∃ bytes, indicator = .length bytes := by
      cases indicator with
      | nts => exact absurd rfl ended
      | length bytes => exact ⟨bytes, rfl⟩
      | null => exact absurd rfl known
    have wide : hType ≠ .binary := by
      rintro rfl
      exact not_leftAlone_of_binary read stated fits holds taken leftAlone
    refine ⟨wide, ?_, fun kept => ?_⟩
    · by_contra short
      have negative : binding.iParamDataLen < 0 := by omega
      have null : binding.getParamVal memory hType
          (boundSqlType binding.hSQLType binding.hPrepSQLType) = some .null := by
        rcases text with rfl | rfl | rfl
        · obtain ⟨pBuf, value, _, _, none⟩ := charVal_some memory stated fits ended
          rw [none known negative] at value
          exact value
        · exact congrArg some (wcharVal_negative stated fits negative)
        · exact absurd rfl wide
      rw [convert_taken read null taken] at sent
      cases given : binding.given reparse sentText <;> rw [given] at sent <;> cases sent
    · have handed : binding.given reparse sentText =
          some (literal (boundSqlType binding.hSQLType binding.hPrepSQLType) sentText) := by
        simp only [given, kept]
      rw [handed, Option.map_some] at sent
      have free := not_mem_of_literal (convert_free kept sent)
      rcases text with rfl | rfl | rfl
      · rw [Encodes, if_neg (by decide)] at encodes
        subst encodes
        exact (zero_mem_unitsOf_one _).not.mpr free
      · rw [Encodes, if_pos rfl] at encodes
        obtain ⟨characters, source, rfl⟩ := encodes
        rw [unitSize, if_pos rfl, ← source, zero_mem_units, ← zero_mem_utf8]
        exact free
      · exact absurd rfl wide

end

/-! ## When the buffer is left alone -/

/--
For every text and every bytes with the terminator or the length their indicator promises:
where the lengths fit, no clause is taken off in the memory of the application and what is
taken can be sent, the selected text is sent whole, the buffer stays as it is and every
execution sends the same; and where a clause is taken off or what is taken cannot be sent, not.
-/
theorem leftAlone_when (reparse : Nat → List UInt8 → Option (List UInt8)) (binding : Binding)
    (hType : CType) (indicator : Indicator) (memory : List UInt8)
    (text : hType = .char ∨ hType = .wchar ∨ hType = .binary)
    (read : readType binding.hCType binding.hSQLType = some hType)
    (stated : binding.plParamDataStrLenInd = some indicator.toInt)
    (holds : binding.Holds hType indicator memory) :
    (binding.Fits hType indicator memory ∧ ¬binding.Strips hType indicator memory ∧
        (binding.Taken hType → binding.Sendable hType indicator memory) →
      binding.LeftAlone reparse hType indicator memory) ∧
    (binding.Fits hType indicator memory → binding.LeftAlone reparse hType indicator memory →
      ¬binding.Strips hType indicator memory ∧
        (binding.Taken hType → binding.Sendable hType indicator memory)) := by
  constructor
  · rintro ⟨fits, keeps, sendable⟩
    rcases text with rfl | rfl | rfl
    · exact leftAlone_char read stated fits.1 holds keeps sendable
    · exact leftAlone_wchar read stated fits holds sendable
    · exact leftAlone_binary read stated fits.1 holds sendable
  · intro fits leftAlone
    exact ⟨fun strips => not_leftAlone_of_strips read stated holds strips leftAlone,
      fun taken => sendable_of_leftAlone text read stated fits.1 holds taken leftAlone⟩

/-- A date whose buffer has no length of its own. -/
def ofDate (indicator : Indicator) : Binding where
  hCType := .char
  hSQLType := .known .typeDate
  hPrepSQLType := .known .typeDate
  unicodeType := .utf16
  iParamDataLen := 0
  plParamDataStrLenInd := some indicator.toInt

def dateClause : List UInt8 := "\x7bd '2020-01-02'\x7d".toUTF8.toList ++ [0]

/-- A clause with a length is copied. -/
theorem leftAlone_length :
    (ofDate (.length 16)).LeftAlone (fun _ text => some text) .char (.length 16) dateClause := by
  have inside : 16 ≤ dateClause.length := by decide +kernel
  refine (leftAlone_when _ (ofDate (.length 16)) .char (.length 16) dateClause (.inl rfl) rfl rfl
    inside).1 ⟨⟨show 16 < 2 ^ 31 by decide, fun wide => by cases wide⟩, ?_, ?_⟩
  · rintro ⟨-, ended, -⟩
    cases ended
  · intro _ _
    refine ⟨fun wide => ?_, fun _ => ⟨by decide, le_refl 0, fun _ => by decide +kernel⟩⟩
    cases wide

/-- A clause with a terminator loses its brace, and the second execution sends the rest of it;
of a wide text with half a character nothing is sent. -/
theorem leftAlone_wrong :
    ((ofDate .nts).convertCParamDataToSQLData (fun _ text => some text) dateClause).map
        Converted.outcome = some ⟨some " '2020-01-02' ".toUTF8.toList, false⟩ ∧
      ((ofDate .nts).convertCParamDataToSQLData (fun _ text => some text)
          ((ofDate .nts).memoryAfter (fun _ text => some text) dateClause 1)).map
        Converted.outcome = some ⟨some "\x7bd '2020-01-02' ".toUTF8.toList, false⟩ ∧
      ¬(ofDate .nts).LeftAlone (fun _ text => some text) .char .nts dateClause ∧
    (Binding.convertCParamDataToSQLData (fun _ text => some text)
        { ofDate (.length 4) with hCType := .wchar } [0x31, 0, 0, 0xD8]).map Converted.outcome =
      some ⟨some [], false⟩ := by
  refine ⟨by decide +kernel, by decide +kernel, fun leftAlone => ?_, by decide +kernel⟩
  exact absurd (leftAlone.repeats 1) (by decide +kernel)

end Binding

end RedshiftOdbc.ParamBuffer

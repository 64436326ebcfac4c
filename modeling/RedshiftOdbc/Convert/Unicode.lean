import RedshiftOdbc.Library.Codes
import Mathlib.Data.List.TakeWhile

/-!
# Unicode texts in buffers

Texts go between UTF-8, UTF-16 and UTF-32 into buffers that may be too short.  A
text that does not fit is cut in front of a character: in UTF-8 the cut goes back
over continuation bytes to a lead byte, in UTF-16 over a high surrogate.
-/

namespace RedshiftOdbc.Convert

open RedshiftOdbc.Codes

/-! ## The codes -/

def isHighSurrogate (u : UInt16) : Bool := 0xD800 ≤ u && u ≤ 0xDBFF

def isLowSurrogate (u : UInt16) : Bool := 0xDC00 ≤ u && u ≤ 0xDFFF

/-- The units of a character in UTF-16. -/
def utf16EncodeChar (character : Char) : List UInt16 :=
  if character.toNat < 0x10000 then [UInt16.ofNat character.toNat]
  else [UInt16.ofNat (0xD800 + (character.toNat - 0x10000) / 0x400),
    UInt16.ofNat (0xDC00 + (character.toNat - 0x10000) % 0x400)]

def utf16Decode : List UInt16 → Option (List Char)
  | [] => some []
  | [u] => if isHighSurrogate u || isLowSurrogate u then none else some [Char.ofNat u.toNat]
  | u :: v :: rest =>
      if isHighSurrogate u then
        if isLowSurrogate v then
          (utf16Decode rest).map
            (Char.ofNat (0x10000 + (u.toNat - 0xD800) * 0x400 + (v.toNat - 0xDC00)) :: ·)
        else none
      else if isLowSurrogate u then none
      else (utf16Decode (v :: rest)).map (Char.ofNat u.toNat :: ·)

def utf32EncodeChar (character : Char) : List UInt32 := [character.val]

def utf32Decode : List UInt32 → Option (List Char)
  | [] => some []
  | u :: rest => if u.isValidChar then (utf32Decode rest).map (Char.ofNat u.toNat :: ·) else none

/-! ## Conversion

The conversions of the C++ library; none where they throw. -/

def utf16ToUtf8Throw (units : List UInt16) : Option (List UInt8) :=
  (utf16Decode units).map (encode String.utf8EncodeChar)

def utf8ToUtf16Throw (bytes : List UInt8) : Option (List UInt16) :=
  bytes.toByteArray.utf8Decode?.map fun text => encode utf16EncodeChar text.toList

def utf32ToUtf8Throw (units : List UInt32) : Option (List UInt8) :=
  (utf32Decode units).map (encode String.utf8EncodeChar)

/-! ## Cutting -/

def isCont (b : UInt8) : Bool := b &&& 0xC0 == 0x80

def walkBack (s : List UInt8) : Nat → Nat
  | 0 => 0
  | i + 1 => if isCont (s.getD i 0) then walkBack s i else i + 1

def need (lead : UInt8) : Nat :=
  if lead < 0x80 then 1
  else if lead &&& 0xE0 == 0xC0 then 2
  else if lead &&& 0xF0 == 0xE0 then 3
  else 4

def trimUtf8BoundaryBackward (s : List UInt8) (toCopy : Nat) : Nat :=
  if toCopy = 0 ∨ s.length ≤ toCopy then toCopy
  else
    let i := walkBack s toCopy
    if i = 0 then 0
    else if toCopy < i - 1 + need (s.getD (i - 1) 0) then i - 1
    else toCopy

/-- No high surrogate is left at the end. -/
def dropHighSurrogate (u16 : List UInt16) (toCopyUnits : Nat) : Nat :=
  if 0 < toCopyUnits ∧ isHighSurrogate (u16.getD (toCopyUnits - 1) 0) then toCopyUnits - 1
  else toCopyUnits

/-! ## The functions -/

def sqlNts : Int := -3

/-- What a call leaves in the buffer and in the counter of its caller, and what it returns. -/
structure Output (α : Type) where
  buffer : Option (List α)
  totalCharsNeeded : Option Nat
  returned : Nat
  deriving DecidableEq, Repr

section

variable {α β : Type} [OfNat β 0] [DecidableEq β] [OfNat α 0]

/-- The units of a text with a length, or up to its terminator. -/
def sourceUnits (memory : List β) (cchLen : Int) : List β :=
  if cchLen = sqlNts then memory.takeWhile fun unit => unit ≠ 0
  else memory.take cchLen.toNat

/-- A conversion into a buffer, cut by its own rule; a conversion that throws is empty. -/
def convertInto (convert : List β → Option (List α)) (cut : List α → Nat → Nat)
    (source : Option (List β)) (cchLen : Int) (buffer : Option (List α)) (bufferSize : Int)
    (totalCharsNeeded : Option Nat) : Output α :=
  match source, buffer with
  | some memory, some target =>
      if (cchLen < 0 ∧ cchLen ≠ sqlNts) ∨ bufferSize < 0 then ⟨buffer, totalCharsNeeded, 0⟩
      else
        let converted := (convert (sourceUnits memory cchLen)).getD []
        let totalCharsNeeded := totalCharsNeeded.map fun _ => converted.length
        if bufferSize ≤ 0 then ⟨buffer, totalCharsNeeded, 0⟩
        else
          let capacityNoNul := (bufferSize - 1).toNat
          let toCopy := min capacityNoNul converted.length
          let toCopy := if toCopy < converted.length then cut converted toCopy else toCopy
          ⟨some (converted.take toCopy ++ 0 :: target.drop (toCopy + 1)), totalCharsNeeded, toCopy⟩
  | _, _ => ⟨buffer, totalCharsNeeded, 0⟩

end

def wchar16ToUtf8Char (wszStr : Option (List UInt16)) (cchLen : Int) (szStr : Option (List UInt8))
    (bufferSize : Int) (totalCharsNeeded : Option Nat) : Output UInt8 :=
  convertInto utf16ToUtf8Throw trimUtf8BoundaryBackward wszStr cchLen szStr bufferSize
    totalCharsNeeded

def charUtf8ToUtf16Wchar (szStr : Option (List UInt8)) (cchLen : Int)
    (wszStr : Option (List UInt16)) (bufferSize : Int) (totalCharsNeeded : Option Nat) :
    Output UInt16 :=
  convertInto utf8ToUtf16Throw dropHighSurrogate szStr cchLen wszStr bufferSize totalCharsNeeded

def wchar32ToUtf8Char (wszStr : Option (List UInt32)) (cchLen : Int) (szStr : Option (List UInt8))
    (bufferSize : Int) (totalCharsNeeded : Option Nat) : Output UInt8 :=
  convertInto utf32ToUtf8Throw trimUtf8BoundaryBackward wszStr cchLen szStr bufferSize
    totalCharsNeeded

/-! ## Cutting in front of a character -/

/-- A rule that cuts a text in front of the character that does not fit. -/
def CutsWhole {α : Type} (code : Char → List α) (cut : List α → Nat → Nat) : Prop :=
  ∀ before character after room, (encode code before).length ≤ room →
    room < (encode code before).length + (code character).length →
    cut (encode code (before ++ character :: after)) room = (encode code before).length

theorem isCont_tail (value : Nat) : isCont (UInt8.ofNat (value % 64 + 0x80)) = true := by
  have all : ∀ value : Fin 64, isCont (UInt8.ofNat (value + 0x80)) = true := by decide
  exact all ⟨value % 64, Nat.mod_lt _ (by decide)⟩

theorem isCont_tails (values : List Nat) :
    ∀ b ∈ values.map fun value => UInt8.ofNat (value % 64 + 0x80), isCont b = true := by
  intro b member
  obtain ⟨value, _, rfl⟩ := List.mem_map.mp member
  exact isCont_tail value

/-- Each character is one lead byte, which says how many continuation bytes follow. -/
theorem utf8EncodeChar_shape (character : Char) :
    ∃ lead conts, String.utf8EncodeChar character = lead :: conts ∧ isCont lead = false ∧
      (∀ b ∈ conts, isCont b = true) ∧ need lead = conts.length + 1 := by
  fun_cases String.utf8EncodeChar character with
  | case1 v small =>
      have all : ∀ value : Fin 128,
          isCont (UInt8.ofNat value) = false ∧ need (UInt8.ofNat value) = 1 := by
        decide
      obtain ⟨lead, needs⟩ := all ⟨v, by omega⟩
      exact ⟨_, [], rfl, lead, isCont_tails [], needs⟩
  | case2 v =>
      have all : ∀ value : Fin 32, isCont (UInt8.ofNat (value + 0xc0)) = false ∧
          need (UInt8.ofNat (value + 0xc0)) = 2 := by
        decide
      obtain ⟨lead, needs⟩ := all ⟨v / 64 % 32, by omega⟩
      exact ⟨_, _, rfl, lead, isCont_tails [v], needs⟩
  | case3 v =>
      have all : ∀ value : Fin 16, isCont (UInt8.ofNat (value + 0xe0)) = false ∧
          need (UInt8.ofNat (value + 0xe0)) = 3 := by
        decide
      obtain ⟨lead, needs⟩ := all ⟨v / 4096 % 16, by omega⟩
      exact ⟨_, _, rfl, lead, isCont_tails [v / 64, v], needs⟩
  | case4 v =>
      have all : ∀ value : Fin 8, isCont (UInt8.ofNat (value + 0xf0)) = false ∧
          need (UInt8.ofNat (value + 0xf0)) = 4 := by
        decide
      obtain ⟨lead, needs⟩ := all ⟨v / 262144 % 8, by omega⟩
      exact ⟨_, _, rfl, lead, isCont_tails [v / 4096, v / 64, v], needs⟩

theorem walkBack_shape {before conts rest : List UInt8} {lead : UInt8} (leads : isCont lead = false)
    (all : ∀ b ∈ conts, isCont b = true) {count : Nat} (within : count ≤ conts.length) :
    walkBack (before ++ lead :: (conts ++ rest)) (before.length + 1 + count) = before.length + 1 := by
  induction count with
  | zero => simp [walkBack, leads]
  | succ count ih =>
      have inside : count < conts.length := within
      have here : (before ++ lead :: (conts ++ rest)).getD (before.length + 1 + count) 0 =
          conts[count] := by
        rw [List.getD_eq_getElem?_getD, List.getElem?_append_right (by omega)]
        rw [Nat.add_assoc, Nat.add_sub_cancel_left, Nat.add_comm 1 count, List.getElem?_cons_succ,
          List.getElem?_append_left inside, List.getElem?_eq_getElem inside, Option.getD_some]
      rw [← Nat.add_assoc, walkBack, here, if_pos (all _ (List.getElem_mem _))]
      exact ih (by omega)

/-- Behind a lead byte and some of its continuation bytes the cut goes back in front of the
lead byte, unless it has them all. -/
theorem trimUtf8BoundaryBackward_shape (before rest : List UInt8) {conts : List UInt8} {lead : UInt8}
    (leads : isCont lead = false) (all : ∀ b ∈ conts, isCont b = true)
    (needs : need lead = conts.length + 1) (count : Nat) (within : count ≤ conts.length)
    (short : count < conts.length + rest.length) :
    trimUtf8BoundaryBackward (before ++ lead :: (conts ++ rest)) (before.length + 1 + count) =
      if count = conts.length then before.length + 1 + count else before.length := by
  have head : (before ++ lead :: (conts ++ rest)).getD before.length 0 = lead := by
    simp [List.getD_eq_getElem?_getD]
  have long : ¬(before.length + 1 + count = 0 ∨
      (before ++ lead :: (conts ++ rest)).length ≤ before.length + 1 + count) := by
    simp only [List.length_append, List.length_cons]
    omega
  rw [trimUtf8BoundaryBackward, if_neg long]
  simp only [walkBack_shape leads all within, Nat.add_sub_cancel, head, needs, Nat.succ_ne_zero,
    if_false]
  split
  · rw [if_neg (by omega)]
  · rw [if_pos (by omega)]

theorem trimUtf8BoundaryBackward_cutsWhole :
    CutsWhole String.utf8EncodeChar trimUtf8BoundaryBackward := by
  intro before character after room low high
  obtain ⟨lead, conts, shape, leads, all, needs⟩ := utf8EncodeChar_shape character
  rw [shape, List.length_cons] at high
  rcases Nat.eq_or_lt_of_le low with exact | inside
  · -- The cut falls behind the last character of `before`.
    rcases List.eq_nil_or_concat' before with rfl | ⟨earlier, last, rfl⟩
    · simp [trimUtf8BoundaryBackward, ← exact]
    · obtain ⟨lastLead, lastConts, lastShape, lastLeads, lastAll, lastNeeds⟩ :=
        utf8EncodeChar_shape last
      have cut := trimUtf8BoundaryBackward_shape (encode String.utf8EncodeChar earlier)
        (encode String.utf8EncodeChar (character :: after)) lastLeads lastAll lastNeeds
        lastConts.length le_rfl (by simp [shape])
      rw [if_pos rfl] at cut
      have length : (encode String.utf8EncodeChar (earlier ++ [last])).length =
          (encode String.utf8EncodeChar earlier).length + 1 + lastConts.length := by
        simp [lastShape]
        omega
      rw [← exact, length]
      simpa [lastShape] using cut
  · -- The cut falls behind the lead byte of the character.
    have cut := trimUtf8BoundaryBackward_shape (encode String.utf8EncodeChar before)
      (encode String.utf8EncodeChar after) leads all needs
      (room - (encode String.utf8EncodeChar before).length - 1) (by omega) (by omega)
    rw [if_neg (by omega)] at cut
    rw [← cut]
    congr 1
    · simp [shape]
    · omega

/-! ## The UTF-16 code -/

theorem isHighSurrogate_iff (u : UInt16) :
    isHighSurrogate u = true ↔ 0xD800 ≤ u.toNat ∧ u.toNat ≤ 0xDBFF := by
  simp [isHighSurrogate, UInt16.le_iff_toNat_le]

theorem isLowSurrogate_iff (u : UInt16) :
    isLowSurrogate u = true ↔ 0xDC00 ≤ u.toNat ∧ u.toNat ≤ 0xDFFF := by
  simp [isLowSurrogate, UInt16.le_iff_toNat_le]

theorem char_range (character : Char) : character.toNat < 0xD800 ∨
    (0xDFFF < character.toNat ∧ character.toNat < 0x110000) := character.valid

/-- A character has one unit that is no surrogate, or a high and a low surrogate. -/
theorem utf16EncodeChar_shape (character : Char) :
    (∃ u, utf16EncodeChar character = [u] ∧ isHighSurrogate u = false ∧
      isLowSurrogate u = false ∧ Char.ofNat u.toNat = character) ∨
    ∃ u v, utf16EncodeChar character = [u, v] ∧ isHighSurrogate u = true ∧
      isHighSurrogate v = false ∧ isLowSurrogate v = true ∧
      Char.ofNat (0x10000 + (u.toNat - 0xD800) * 0x400 + (v.toNat - 0xDC00)) = character := by
  have range := char_range character
  rw [utf16EncodeChar]
  split
  · rename_i small
    have value : (UInt16.ofNat character.toNat).toNat = character.toNat :=
      UInt16.toNat_ofNat_of_lt small
    refine .inl ⟨_, rfl, ?_, ?_, ?_⟩
    · rw [Bool.eq_false_iff, Ne, isHighSurrogate_iff, value]
      omega
    · rw [Bool.eq_false_iff, Ne, isLowSurrogate_iff, value]
      omega
    · rw [value, Char.ofNat_toNat]
  · rename_i large
    have size : UInt16.size = 0x10000 := rfl
    have high : (UInt16.ofNat (0xD800 + (character.toNat - 0x10000) / 0x400)).toNat =
        0xD800 + (character.toNat - 0x10000) / 0x400 := UInt16.toNat_ofNat_of_lt (by omega)
    have low : (UInt16.ofNat (0xDC00 + (character.toNat - 0x10000) % 0x400)).toNat =
        0xDC00 + (character.toNat - 0x10000) % 0x400 := UInt16.toNat_ofNat_of_lt (by omega)
    refine .inr ⟨_, _, rfl, ?_, ?_, ?_, ?_⟩
    · rw [isHighSurrogate_iff, high]
      omega
    · rw [Bool.eq_false_iff, Ne, isHighSurrogate_iff, low]
      omega
    · rw [isLowSurrogate_iff, low]
      omega
    · have whole : 0x10000 + (0xD800 + (character.toNat - 0x10000) / 0x400 - 0xD800) * 0x400 +
          (0xDC00 + (character.toNat - 0x10000) % 0x400 - 0xDC00) = character.toNat := by omega
      rw [high, low, whole, Char.ofNat_toNat]

theorem utf16Decode_encode (text : List Char) :
    utf16Decode (encode utf16EncodeChar text) = some text := by
  induction text with
  | nil => rfl
  | cons character text ih =>
      rw [encode_cons]
      rcases utf16EncodeChar_shape character with
        ⟨u, shape, high, low, same⟩ | ⟨u, v, shape, high, _, low, same⟩
      · cases units : encode utf16EncodeChar text with
        | nil =>
            rw [units] at ih
            simp_all [utf16Decode]
        | cons next more =>
            rw [units] at ih
            simp [shape, utf16Decode, high, low, same, ih]
      · simp [shape, utf16Decode, high, low, same, ih]

theorem utf32Decode_encode (text : List Char) :
    utf32Decode (encode utf32EncodeChar text) = some text := by
  induction text with
  | nil => rfl
  | cons character text ih =>
      simp [utf32EncodeChar, utf32Decode, ih, character.valid]

theorem dropHighSurrogate_append (before rest : List UInt16) (last : UInt16) :
    dropHighSurrogate (before ++ last :: rest) (before.length + 1) =
      if isHighSurrogate last then before.length else before.length + 1 := by
  simp [dropHighSurrogate, List.getD_eq_getElem?_getD]

theorem dropHighSurrogate_cutsWhole : CutsWhole utf16EncodeChar dropHighSurrogate := by
  intro before character after room low high
  rcases Nat.eq_or_lt_of_le low with exact | inside
  · rcases List.eq_nil_or_concat' before with rfl | ⟨earlier, last, rfl⟩
    · simp [dropHighSurrogate, ← exact]
    · rcases utf16EncodeChar_shape last with ⟨u, shape, other, _⟩ | ⟨u, v, shape, _, other, _⟩
      · have cut := dropHighSurrogate_append (encode utf16EncodeChar earlier)
          (encode utf16EncodeChar (character :: after)) u
        rw [← exact]
        simpa [shape, other] using cut
      · have cut := dropHighSurrogate_append (encode utf16EncodeChar earlier ++ [u])
          (encode utf16EncodeChar (character :: after)) v
        rw [← exact]
        simpa [shape, other] using cut
  · rcases utf16EncodeChar_shape character with ⟨u, shape, _⟩ | ⟨u, v, shape, surrogate, _⟩
    · rw [shape, List.length_singleton] at high
      omega
    · have one : room = (encode utf16EncodeChar before).length + 1 := by
        rw [shape] at high
        simp only [List.length_cons, List.length_nil] at high
        omega
      have cut := dropHighSurrogate_append (encode utf16EncodeChar before)
        (v :: encode utf16EncodeChar after) u
      rw [one]
      simpa [shape, surrogate] using cut

/-! ## The longest whole text -/

section

variable {α β : Type} [OfNat β 0] [DecidableEq β] [OfNat α 0]

/-- A call writes the longest run of whole characters that leaves room for the terminator,
the terminator behind it and nothing else, returns its units and reports those of the whole
text. -/
def WritesLongest (code : Char → List α) (text : List Char) (buffer : List α) (bufferSize : Int)
    (totalCharsNeeded : Option Nat) (output : Output α) : Prop :=
  ∃ kept, IsLongest code (bufferSize - 1).toNat text kept ∧
    output = ⟨some (encode code kept ++ 0 :: buffer.drop ((encode code kept).length + 1)),
      totalCharsNeeded.map fun _ => (encode code text).length, (encode code kept).length⟩

theorem convertInto_writesLongest {convert : List β → Option (List α)}
    {cut : List α → Nat → Nat} {code : Char → List α} {text : List Char} {memory : List β}
    {cchLen : Int} (cuts : CutsWhole code cut) (given : 0 ≤ cchLen ∨ cchLen = sqlNts)
    (converted : convert (sourceUnits memory cchLen) = some (encode code text)) (buffer : List α)
    {bufferSize : Int} (room : 1 ≤ bufferSize) (totalCharsNeeded : Option Nat) :
    WritesLongest code text buffer bufferSize totalCharsNeeded
      (convertInto convert cut (some memory) cchLen (some buffer) bufferSize totalCharsNeeded) := by
  have checked : ¬((cchLen < 0 ∧ cchLen ≠ sqlNts) ∨ bufferSize < 0) := by omega
  have some : ¬bufferSize ≤ 0 := by omega
  simp only [convertInto, if_neg checked, if_neg some, converted, Option.getD_some]
  by_cases long : (bufferSize - 1).toNat < (encode code text).length
  · obtain ⟨before, character, after, rfl, low, high⟩ := exists_cut long
    refine ⟨before, isLongest_cut low high, ?_⟩
    simp only [Nat.min_eq_left long.le, if_pos long, cuts before character after _ low high]
    simp
  · have whole : (encode code text).length ≤ (bufferSize - 1).toNat := Nat.not_lt.mp long
    refine ⟨text, isLongest_whole whole, ?_⟩
    simp only [Nat.min_eq_right whole, Nat.lt_irrefl, if_false, List.take_length]

end

/-- The three conversions write the longest whole text. -/
theorem unicode_writesLongest (text : List Char) {cchLen : Int}
    (given : 0 ≤ cchLen ∨ cchLen = sqlNts) {bufferSize : Int} (room : 1 ≤ bufferSize)
    (totalCharsNeeded : Option Nat) :
    (∀ wszStr szStr, sourceUnits wszStr cchLen = encode utf16EncodeChar text →
      WritesLongest String.utf8EncodeChar text szStr bufferSize totalCharsNeeded
        (wchar16ToUtf8Char (some wszStr) cchLen (some szStr) bufferSize totalCharsNeeded)) ∧
    (∀ wszStr szStr, sourceUnits wszStr cchLen = encode utf32EncodeChar text →
      WritesLongest String.utf8EncodeChar text szStr bufferSize totalCharsNeeded
        (wchar32ToUtf8Char (some wszStr) cchLen (some szStr) bufferSize totalCharsNeeded)) ∧
    ∀ szStr wszStr, sourceUnits szStr cchLen = encode String.utf8EncodeChar text →
      WritesLongest utf16EncodeChar text wszStr bufferSize totalCharsNeeded
        (charUtf8ToUtf16Wchar (some szStr) cchLen (some wszStr) bufferSize totalCharsNeeded) := by
  refine ⟨?_, ?_, ?_⟩
  · intro wszStr szStr source
    refine convertInto_writesLongest trimUtf8BoundaryBackward_cutsWhole given ?_ szStr room _
    rw [source, utf16ToUtf8Throw, utf16Decode_encode, Option.map_some]
  · intro wszStr szStr source
    refine convertInto_writesLongest trimUtf8BoundaryBackward_cutsWhole given ?_ szStr room _
    rw [source, utf32ToUtf8Throw, utf32Decode_encode, Option.map_some]
  · intro szStr wszStr source
    refine convertInto_writesLongest dropHighSurrogate_cutsWhole given ?_ wszStr room _
    have decoded : (encode String.utf8EncodeChar text).toByteArray.utf8Decode? = some text.toArray :=
      List.utf8Decode?_utf8Encode
    rw [source, utf8ToUtf16Throw, decoded, Option.map_some]

/-- Three letters of two, three and seven units, with room for four. -/
theorem unicode_writesLongest_letters :
    WritesLongest String.utf8EncodeChar ['a', 'é', '𝄞'] [9, 9, 9, 9, 9] 5 (some 0)
        (wchar16ToUtf8Char (some [0x61, 0xE9, 0xD834, 0xDD1E, 0]) sqlNts
          (some [9, 9, 9, 9, 9]) 5 (some 0)) ∧
      WritesLongest String.utf8EncodeChar ['a', 'é', '𝄞'] [9, 9, 9, 9, 9] 5 (some 0)
        (wchar32ToUtf8Char (some [0x61, 0xE9, 0x1D11E, 0]) sqlNts (some [9, 9, 9, 9, 9]) 5 (some 0)) ∧
      WritesLongest utf16EncodeChar ['a', 'é', '𝄞'] [9, 9, 9, 9, 9] 5 (some 0)
        (charUtf8ToUtf16Wchar (some [0x61, 0xC3, 0xA9, 0xF0, 0x9D, 0x84, 0x9E, 0]) sqlNts
          (some [9, 9, 9, 9, 9]) 5 (some 0)) := by
  obtain ⟨wide, full, narrow⟩ :=
    unicode_writesLongest ['a', 'é', '𝄞'] (.inr rfl) (by decide : (1 : Int) ≤ 5) (some 0)
  exact ⟨wide _ _ (by decide), full _ _ (by decide), narrow _ _ (by decide)⟩

end RedshiftOdbc.Convert

import RedshiftOdbc.Convert.Copy
import RedshiftOdbc.Library.Pieces

/-!
# Fetching a value piece by piece

Repeated calls of a copy function share an offset.  A value is fetched whole when
the pieces are the value, every call but the last reports a truncation and what
was still there, and the last one reports success and leaves the offset at zero.
-/

namespace RedshiftOdbc.Convert

open RedshiftOdbc.Pieces RedshiftOdbc.Words

/-! ## A sequence of calls -/

section Calls

variable (copy : Int → Int → Copied) (sizes : Nat → Int)

def offsetAt : Nat → Int
  | 0 => 0
  | index + 1 => (copy (sizes index) (offsetAt index)).offset

def callAt (index : Nat) : Copied := copy (sizes index) (offsetAt copy sizes index)

def writtenBefore (index : Nat) : List Nat :=
  (List.range index).flatMap fun earlier => (callAt copy sizes earlier).written

/-- The calls up to `count` fetch the value; an indicator counts `unit` for each item. -/
structure Delivered (value : List Nat) (unit : Nat) (indicated : Bool) (count : Nat) : Prop where
  pieces : writtenBefore copy sizes (count + 1) = value
  partly : ∀ index < count, (callAt copy sizes index).rc = .successWithInfo
  indicator : indicated = true → ∀ index < count, (callAt copy sizes index).indicator =
    some (unit * ((value.length : Int) - (writtenBefore copy sizes index).length))
  finished : (callAt copy sizes count).rc = .success
  reset : offsetAt copy sizes (count + 1) = 0

/-- What one call does at an offset inside the value, in a buffer with some room. -/
structure Steps (value : List Nat) (unit : Nat) (indicated : Bool) (room : Int → Int)
    (enough : Int → Prop) : Prop where
  last : ∀ cbLen (offset : Nat), enough cbLen → offset < value.length ∨ offset = 0 →
    (value.length : Int) ≤ offset + room cbLen →
      (copy cbLen offset).rc = .success ∧ (copy cbLen offset).written = value.drop offset ∧
        (copy cbLen offset).offset = 0
  more : ∀ cbLen (offset : Nat), enough cbLen → offset < value.length ∨ offset = 0 →
    offset + room cbLen < (value.length : Int) →
      (copy cbLen offset).rc = .successWithInfo ∧
        (copy cbLen offset).written = (value.drop offset).take (room cbLen).toNat ∧
        (copy cbLen offset).offset = offset + (room cbLen).toNat ∧
        (indicated = true →
          (copy cbLen offset).indicator = some (unit * ((value.length : Int) - offset)))

variable {copy sizes} {value : List Nat} {unit : Nat} {indicated : Bool} {room : Int → Int}
  {enough : Int → Prop}

/-- As long as no piece reaches the end, the offset is where the next piece starts. -/
theorem Steps.offsetAt_eq (steps : Steps copy value unit indicated room enough)
    (large : ∀ index, enough (sizes index)) {index : Nat}
    (before : ∀ earlier < index, start (fun index => room (sizes index)) earlier +
      room (sizes earlier) < (value.length : Int)) :
    offsetAt copy sizes index = start (fun index => room (sizes index)) index ∧
      (start (fun index => room (sizes index)) index < value.length ∨
        start (fun index => room (sizes index)) index = 0) := by
  induction index with
  | zero => exact ⟨rfl, Or.inr rfl⟩
  | succ index ih =>
      obtain ⟨here, inside⟩ := ih fun earlier less => before earlier (by omega)
      have less := before index (by omega)
      obtain ⟨-, -, next, -⟩ := steps.more (sizes index) _ (large index) inside less
      rw [offsetAt, here, next, start]
      refine ⟨by push_cast; rfl, ?_⟩
      omega

/-- A call before the end is reached. -/
theorem Steps.callAt_more (steps : Steps copy value unit indicated room enough)
    (large : ∀ index, enough (sizes index)) {index : Nat}
    (before : ∀ earlier < index, start (fun index => room (sizes index)) earlier +
      room (sizes earlier) < (value.length : Int))
    (less : start (fun index => room (sizes index)) index + room (sizes index) <
      (value.length : Int)) :
    (callAt copy sizes index).rc = .successWithInfo ∧
      (callAt copy sizes index).written =
        piece (fun index => room (sizes index)) value index ∧
      (indicated = true → (callAt copy sizes index).indicator =
        some (unit * ((value.length : Int) -
          start (fun index => room (sizes index)) index))) := by
  obtain ⟨here, inside⟩ := steps.offsetAt_eq large before
  obtain ⟨rc, written, -, indicator⟩ := steps.more (sizes index) _ (large index) inside less
  rw [callAt, here]
  exact ⟨rc, written, indicator⟩

/-- The pieces before the end is reached. -/
theorem Steps.writtenBefore_eq (steps : Steps copy value unit indicated room enough)
    (large : ∀ index, enough (sizes index)) {index : Nat}
    (before : ∀ earlier < index, start (fun index => room (sizes index)) earlier +
      room (sizes earlier) < (value.length : Int)) :
    writtenBefore copy sizes index =
      value.take (start (fun index => room (sizes index)) index) := by
  rw [writtenBefore, ← pieces_eq_take]
  refine List.flatMap_congr ?_
  intro earlier member
  have less := List.mem_range.mp member
  exact (steps.callAt_more large (fun other lower => before other (by omega))
    (before earlier less)).2.1

/-- The calls fetch the value exactly when some piece reaches its end. -/
theorem Steps.delivered_iff (steps : Steps copy value unit indicated room enough)
    (large : ∀ index, enough (sizes index)) :
    (∃ count, Delivered copy sizes value unit indicated count) ↔
      Reaches (fun index => room (sizes index)) value.length := by
  constructor
  · rintro ⟨count, delivered⟩
    by_contra never
    have before : ∀ index, start (fun index => room (sizes index)) index + room (sizes index) <
        (value.length : Int) := fun index => Int.not_le.mp fun reached => never ⟨index, reached⟩
    have info := (steps.callAt_more large (fun earlier _ => before earlier) (before count)).1
    rw [delivered.finished] at info
    cases info
  · intro reaches
    obtain ⟨count, reached, before⟩ := reaches.first
    obtain ⟨here, inside⟩ := steps.offsetAt_eq large before
    obtain ⟨rc, written, offset⟩ := steps.last (sizes count) _ (large count) inside reached
    have earlier := steps.writtenBefore_eq large before
    have last : (callAt copy sizes count).written =
        value.drop (start (fun index => room (sizes index)) count) := by
      rw [callAt, here]
      exact written
    refine ⟨count, ⟨?_, ?_, ?_, ?_, ?_⟩⟩
    · rw [writtenBefore] at earlier
      rw [writtenBefore, List.range_succ, List.flatMap_append, List.flatMap_singleton, earlier,
        last, List.take_append_drop]
    · intro index less
      exact (steps.callAt_more large (fun other lower => before other (by omega))
        (before index less)).1
    · intro present index less
      have lower : ∀ other < index, start (fun index => room (sizes index)) other +
          room (sizes other) < (value.length : Int) := fun other lower => before other (by omega)
      obtain ⟨_, inside⟩ := steps.offsetAt_eq large lower
      rw [(steps.callAt_more large lower (before index less)).2.2 present,
        steps.writtenBefore_eq large lower, List.length_take, Nat.min_eq_left (by omega)]
    · rw [callAt, here]
      exact rc
    · rw [offsetAt, here]
      exact offset

end Calls

/-! ## The three functions -/

/-- A text of some bytes and the wide characters it converts to; none is a failed conversion. -/
structure WideText where
  charSize : Nat
  bytesLen : Nat
  units : List Nat
  sized : 0 < charSize
  empty : bytesLen = 0 → units = []

/-- What is fetched, with the function that fetches it. -/
inductive Source where
  | str (text : List Nat)
  | wide (text : WideText)
  | hex (text : List Nat)

namespace Source

/-- The value; a text that does not convert and an odd number of digits have none. -/
def value : Source → Option (List Nat)
  | str text => some text
  | wide text => if text.bytesLen ≠ 0 ∧ text.units = [] then none else some text.units
  | hex text => if text.length % 2 = 0 then some (hexDecode text) else none

/-- What the indicator counts for each item of the value. -/
def unit : Source → Nat
  | str _ => 1
  | wide text => text.charSize
  | hex _ => 1

/-- Room for one item and, where there is one, its terminator. -/
def Enough (cbLen : Int) : Source → Prop
  | str _ => 2 ≤ cbLen
  | wide text => 2 * (text.charSize : Int) ≤ cbLen
  | hex _ => 1 ≤ cbLen

/--
The items a buffer holds besides a terminator.  The lengths of buffers for texts
are cut down to an `int`, but for that of an empty text.  The terminator that goes in
front of a buffer of `2 ^ 31 + 1` bytes or more is not modelled.
-/
def room (cbLen : Int) : Source → Int
  | str text => if text = [] then cbLen - 1 else wrap 4 (cbLen - 1)
  | wide text => wrap 4 (cbLen / text.charSize) - 1
  | hex _ => cbLen

/--
The copy functions with an indicator or without one.  Without one,
`copyHexToBinaryDataBigLen` reports success and starts over.
-/
def copy (indicated : Bool) (cbLen offset : Int) : Source → Copied
  | str text =>
      let copied := copyStrDataBigLen text cbLen offset
      { copied with indicator := if indicated then copied.indicator else none }
  | wide text =>
      let copied := copyWStrDataBigLen text.charSize text.bytesLen text.units cbLen offset
      { copied with indicator := if indicated then copied.indicator else none }
  | hex text =>
      let copied := copyHexToBinaryDataBigLen text cbLen offset
      if indicated then copied
      else { copied with rc := .success, indicator := none, offset := 0 }

/-- The value is fetched whole by calls with these buffers. -/
def FetchedWhole (source : Source) (indicated : Bool) (sizes : Nat → Int) : Prop :=
  ∃ value, source.value = some value ∧ ∃ count,
    Delivered (fun cbLen offset => source.copy indicated cbLen offset) sizes value source.unit
      indicated count

/--
There is a value, some buffer takes what is left of it, and it is the first one
when hexadecimal digits are fetched without an indicator.
-/
def Fetchable (source : Source) (indicated : Bool) (sizes : Nat → Int) : Prop :=
  ∃ value, source.value = some value ∧
    match source, indicated with
    | hex _, false => (value.length : Int) ≤ sizes 0
    | _, _ => Reaches (fun index => source.room (sizes index)) value.length

end Source

theorem steps_str (text : List Nat) (indicated : Bool) :
    Steps (fun cbLen offset => (Source.str text).copy indicated cbLen offset) text 1 indicated
      (fun cbLen => (Source.str text).room cbLen) (fun cbLen => (Source.str text).Enough cbLen) := by
  by_cases none : text = []
  · subst none
    constructor
    · intro cbLen offset enough inside reached
      rw [Source.Enough] at enough
      obtain rfl : offset = 0 := by simpa using inside
      simp only [Source.copy, copyStrDataBigLen, if_neg (show ¬ cbLen < 0 by omega), if_true,
        if_pos (show 0 < cbLen by omega), List.drop_nil, and_self]
    · intro cbLen offset enough inside less
      rw [Source.Enough] at enough
      simp only [Source.room, if_true, List.length_nil] at less
      omega
  · have length : 0 < text.length := List.length_pos_iff.mpr none
    constructor
    · intro cbLen offset enough inside reached
      rw [Source.Enough] at enough
      simp only [Source.room, if_neg none] at reached
      simp only [Source.copy, copyStrDataBigLen, if_neg (show ¬ cbLen < 0 by omega), if_neg none,
        if_neg (show ¬ (text.length : Int) ≤ offset by omega), if_pos (show 0 < cbLen by omega)]
      rw [min_eq_left (by omega), max_eq_right (by omega), if_neg (by omega)]
      refine ⟨rfl, ?_, rfl⟩
      rw [Int.toNat_natCast]
      exact List.take_of_length_le (by rw [List.length_drop]; omega)
    · intro cbLen offset enough inside less
      rw [Source.Enough] at enough
      simp only [Source.room, if_neg none] at less ⊢
      simp only [Source.copy, copyStrDataBigLen, if_neg (show ¬ cbLen < 0 by omega), if_neg none,
        if_neg (show ¬ (text.length : Int) ≤ offset by omega), if_pos (show 0 < cbLen by omega)]
      have room : max 0 (min ((text.length : Int) - offset) (wrap 4 (cbLen - 1))) =
          (wrap 4 (cbLen - 1)).toNat := by omega
      rw [room, if_pos (by omega), Int.toNat_natCast, Int.toNat_natCast]
      refine ⟨rfl, rfl, rfl, ?_⟩
      rintro rfl
      rw [if_pos rfl, Nat.cast_one, one_mul]

theorem steps_wide (text : WideText) (converts : text.bytesLen ≠ 0 → text.units ≠ [])
    (indicated : Bool) :
    Steps (fun cbLen offset => (Source.wide text).copy indicated cbLen offset) text.units
      text.charSize indicated (fun cbLen => (Source.wide text).room cbLen)
      (fun cbLen => (Source.wide text).Enough cbLen) := by
  have positive : ∀ cbLen : Int, 2 * (text.charSize : Int) ≤ cbLen → 0 ≤ cbLen := by
    intro cbLen enough
    have sized := text.sized
    omega
  by_cases none : text.bytesLen = 0
  · have empty := text.empty none
    constructor
    · intro cbLen offset enough inside reached
      have nonneg := positive cbLen enough
      simp only [Source.room, empty, List.length_nil] at reached
      obtain rfl : offset = 0 := by simpa [empty] using inside
      simp only [Source.copy, copyWStrDataBigLen, if_neg (show ¬ cbLen < 0 by omega), if_pos none,
        if_pos (show 0 < wrap 4 (cbLen / text.charSize) by omega), empty, List.drop_nil,
        and_self]
    · intro cbLen offset enough inside less
      have nonneg := positive cbLen enough
      obtain rfl : offset = 0 := by simpa [empty] using inside
      simp only [Source.room, empty, List.length_nil] at less ⊢
      simp only [Source.copy, copyWStrDataBigLen, if_neg (show ¬ cbLen < 0 by omega), if_pos none,
        if_neg (show ¬ 0 < wrap 4 (cbLen / text.charSize) by omega), List.drop_nil, List.take_nil,
        true_and]
      refine ⟨by omega, ?_⟩
      rintro rfl
      simp
  · have some := converts none
    have length : 0 < text.units.length := List.length_pos_iff.mpr some
    constructor
    · intro cbLen offset enough inside reached
      have nonneg := positive cbLen enough
      simp only [Source.room] at reached
      simp only [Source.copy, copyWStrDataBigLen, if_neg (show ¬ cbLen < 0 by omega), if_neg none,
        if_neg some,
        if_neg (show ¬ ((offset : Int) < 0 ∨ (text.units.length : Int) ≤ offset) by omega),
        if_pos (show 0 < wrap 4 (cbLen / text.charSize) by omega)]
      rw [min_eq_left (by omega), max_eq_right (by omega), if_neg (by omega)]
      refine ⟨rfl, ?_, rfl⟩
      rw [Int.toNat_natCast]
      exact List.take_of_length_le (by rw [List.length_drop]; omega)
    · intro cbLen offset enough inside less
      have nonneg := positive cbLen enough
      simp only [Source.room] at less ⊢
      simp only [Source.copy, copyWStrDataBigLen, if_neg (show ¬ cbLen < 0 by omega), if_neg none,
        if_neg some,
        if_neg (show ¬ ((offset : Int) < 0 ∨ (text.units.length : Int) ≤ offset) by omega)]
      have room : max 0 (min ((text.units.length : Int) - offset)
          (if 0 < wrap 4 (cbLen / text.charSize) then wrap 4 (cbLen / text.charSize) - 1 else 0)) =
          (wrap 4 (cbLen / text.charSize) - 1).toNat := by
        split <;> omega
      rw [room, if_pos (by omega), Int.toNat_natCast, Int.toNat_natCast]
      refine ⟨rfl, rfl, rfl, ?_⟩
      rintro rfl
      rw [if_pos rfl, mul_comm]

/-- Pairs of digits are passed over as the bytes they stand for. -/
theorem hexDecode_drop (text : List Nat) (count : Nat) :
    hexDecode (text.drop (2 * count)) = (hexDecode text).drop count := by
  induction count generalizing text with
  | zero => rfl
  | succ count ih =>
      match text with
      | [] => simp [hexDecode]
      | [_] =>
          rw [List.drop_eq_nil_of_le (by simp; omega)]
          simp [hexDecode]
      | higher :: lower :: rest =>
          rw [Nat.mul_succ, hexDecode, List.drop_succ_cons, List.drop_succ_cons, List.drop_succ_cons,
            ← ih]

theorem hexDecode_length (text : List Nat) : (hexDecode text).length = text.length / 2 := by
  match text with
  | [] => rfl
  | [_] => simp [hexDecode]
  | higher :: lower :: rest =>
      rw [hexDecode, List.length_cons, hexDecode_length rest, List.length_cons, List.length_cons]
      omega

theorem steps_hex (text : List Nat) (even : text.length % 2 = 0) :
    Steps (fun cbLen offset => (Source.hex text).copy true cbLen offset) (hexDecode text) 1 true
      (fun cbLen => (Source.hex text).room cbLen) (fun cbLen => (Source.hex text).Enough cbLen) := by
  have length := hexDecode_length text
  constructor
  · intro cbLen offset enough inside reached
    rw [Source.Enough] at enough
    simp only [Source.room] at reached
    have position : (2 * (offset : Int)).toNat = 2 * offset := by omega
    simp only [Source.copy, copyHexToBinaryDataBigLen, if_true, position, hexDecode_drop,
      if_neg (show ¬ ((text.length : Int) - 2 * offset) % 2 = 1 by omega)]
    split
    · rw [if_pos (by omega)]
      exact ⟨rfl, rfl, rfl⟩
    · refine ⟨rfl, ?_, rfl⟩
      exact (List.drop_eq_nil_of_le (by omega)).symm
  · intro cbLen offset enough inside less
    rw [Source.Enough] at enough
    simp only [Source.room] at less ⊢
    have position : (2 * (offset : Int)).toNat = 2 * offset := by omega
    simp only [Source.copy, copyHexToBinaryDataBigLen, if_true, position, hexDecode_drop,
      if_neg (show ¬ ((text.length : Int) - 2 * offset) % 2 = 1 by omega),
      if_pos (show 0 < (text.length : Int) - 2 * offset by omega),
      if_neg (show ¬ ((text.length : Int) - 2 * offset) / 2 ≤ cbLen by omega), true_and]
    refine ⟨by omega, fun _ => ?_⟩
    rw [length, Nat.cast_one, one_mul]
    congr 1
    omega

/-- Without an indicator hexadecimal digits come whole only from the first call. -/
theorem hex_unindicated (text : List Nat) (even : text.length % 2 = 0) (sizes : Nat → Int)
    (enough : ∀ index, (Source.hex text).Enough (sizes index)) :
    (∃ count, Delivered (fun cbLen offset => (Source.hex text).copy false cbLen offset) sizes
        (hexDecode text) 1 false count) ↔
      ((hexDecode text).length : Int) ≤ sizes 0 := by
  have length := hexDecode_length text
  have large := enough 0
  rw [Source.Enough] at large
  have written : writtenBefore (fun cbLen offset => (Source.hex text).copy false cbLen offset)
      sizes 1 = (hexDecode text).take (sizes 0).toNat := by
    simp only [writtenBefore, List.range_one, List.flatMap_singleton, callAt, offsetAt, Source.copy,
      copyHexToBinaryDataBigLen, Bool.false_eq_true, if_false, mul_zero, Int.sub_zero,
      Int.toNat_zero, List.drop_zero, if_neg (show ¬ (text.length : Int) % 2 = 1 by omega)]
    split
    · split
      · next fits =>
          dsimp only
          exact (List.take_of_length_le (by omega)).symm
      · rfl
    · have none : hexDecode text = [] := List.eq_nil_of_length_eq_zero (by omega)
      rw [none, List.take_nil]
  constructor
  · rintro ⟨count, delivered⟩
    obtain rfl : count = 0 := by
      by_contra later
      have first := delivered.partly 0 (by omega)
      simp only [callAt, Source.copy, Bool.false_eq_true, if_false] at first
      cases first
    have whole := congrArg List.length (written.symm.trans delivered.pieces)
    rw [List.length_take] at whole
    omega
  · intro fits
    refine ⟨0, ⟨?_, fun _ none => absurd none (by omega), fun no => absurd no (by decide), ?_, ?_⟩⟩
    · rw [written]
      exact List.take_of_length_le (by omega)
    · simp only [callAt, Source.copy, Bool.false_eq_true, if_false]
    · simp only [offsetAt, Source.copy, Bool.false_eq_true, if_false]

/--
A value is fetched whole exactly when it has wide characters or bytes to be
fetched, the buffers take it, and hexadecimal digits without an indicator fit the
first one.
-/
theorem fetchedWhole_iff (source : Source) (indicated : Bool) (sizes : Nat → Int)
    (enough : ∀ index, source.Enough (sizes index)) :
    source.FetchedWhole indicated sizes ↔ source.Fetchable indicated sizes := by
  unfold Source.FetchedWhole Source.Fetchable
  refine exists_congr fun value => and_congr_right fun same => ?_
  cases source with
  | str text =>
      obtain rfl := Option.some.inj same
      exact (steps_str text indicated).delivered_iff enough
  | wide text =>
      rw [Source.value] at same
      split at same
      · cases same
      · next converts =>
          obtain rfl := Option.some.inj same
          exact (steps_wide text (fun some none => converts ⟨some, none⟩) indicated).delivered_iff
            enough
  | hex text =>
      rw [Source.value] at same
      split at same
      · next even =>
          obtain rfl := Option.some.inj same
          cases indicated with
          | true => exact (steps_hex text even).delivered_iff enough
          | false => exact hex_unindicated text even sizes enough
      · cases same

/-- Five bytes with one place for the terminator, two and one at a time. -/
theorem fetchedWhole_text : (Source.str [104, 101, 108, 108, 111]).FetchedWhole true
    (fun index => if index = 0 then 3 else 2) :=
  (fetchedWhole_iff _ true _ (by
    intro index
    rw [Source.Enough]
    split <;> decide)).mpr
    ⟨_, rfl, reaches_of_pos _ (by
      intro index
      dsimp only
      split <;> decide) _⟩

/-- Two bytes of hexadecimal digits, one at a time and without an indicator. -/
theorem fetchedWhole_wrong : ¬ ∀ (source : Source) (indicated : Bool) (sizes : Nat → Int),
    (∀ index, source.Enough (sizes index)) → source.value.isSome →
      source.FetchedWhole indicated sizes := by
  intro every
  obtain ⟨value, same, count, delivered⟩ := every (.hex [52, 49, 52, 50]) false (fun _ => 1)
    (fun _ => le_refl _) rfl
  obtain rfl := Option.some.inj same
  have fits := (hex_unindicated [52, 49, 52, 50] rfl (fun _ => 1) fun _ => le_refl _).mp
    ⟨count, delivered⟩
  revert fits
  decide

end RedshiftOdbc.Convert

import RedshiftOdbc.Library.Printf
import Mathlib.Data.List.Nodup
import Mathlib.Data.Nat.Bitwise
import Mathlib.Data.Nat.Log

/-!
# Lists of compressors

The algorithms of the compressed transport with their levels, as a text:
`zpq_serialize_compressors` computes the size of the text before it writes it, and
`zpq_deserialize_compressors` cuts a text at its commas and colons.
-/

namespace RedshiftOdbc.Zpq

open RedshiftOdbc.Words RedshiftOdbc.Scanf RedshiftOdbc.Printf

/-! ## The algorithms -/

/-- The names of `zs_algorithms`; the last of them is a null pointer. -/
def zsAlgorithms : List (Option (List Char)) := [some ['z', 's', 't', 'd'], some ['l', 'z', '4'], none]

/-- `zs_get_supported_algorithms`, read up to the null pointer. -/
def zsGetSupportedAlgorithms : List (List Char) := (zsAlgorithms.takeWhile Option.isSome).reduceOption

structure ZpqCompressor where
  impl : Nat
  level : Int
  deriving DecidableEq, Repr

def zpqDefaultCompressionLevel : Int := 1

/-! ## Reading -/

/-- `pg_strcasecmp` finds no difference. -/
def pgStrcaseEq (s t : List Char) : Bool := s.map Char.toLower = t.map Char.toLower

def findAlgorithm (name : List Char) : Option Nat :=
  zsGetSupportedAlgorithms.findIdx? fun algorithm => pgStrcaseEq name algorithm

/-- `sscanf` with `%d`: a number out of range is cut down through a `long`. -/
def scanLevel (text : List Char) : Option Int :=
  (scanInt text.length text).map fun read => wrap 4 (max (-(2 ^ 63)) (min (2 ^ 63 - 1) read.1))

/-- The name of an item, and the text of its level when it has one. -/
def itemName (item : List Char) : List Char := item.takeWhile (· ≠ ':')

def itemLevel (item : List Char) : Option (List Char) :=
  match item.dropWhile (· ≠ ':') with
  | [] => none
  | _ :: level => some level

/-- The compressors found so far, with the mask of their algorithms. -/
structure Selection where
  selectedAlgMask : Nat
  compressors : List ZpqCompressor
  deriving DecidableEq, Repr

/-- One turn of the loop; none when it fails. -/
def selectItem (selection : Selection) (item : List Char) : Option Selection :=
  match (itemLevel item).elim (some zpqDefaultCompressionLevel) scanLevel with
  | none => none
  | some compressionLevel =>
      match findAlgorithm (itemName item) with
      | none => some selection
      | some i =>
          if selection.selectedAlgMask &&& (1 <<< i) ≠ 0 then none
          else some ⟨selection.selectedAlgMask ||| (1 <<< i),
            selection.compressors ++ [⟨i, compressionLevel⟩]⟩

def deserializeLoop (p : List Char) (selection : Selection) : Option Selection :=
  match p with
  | [] => some selection
  | first :: more =>
      match selectItem selection ((first :: more).takeWhile (· ≠ ',')) with
      | none => none
      | some selection =>
          match _found : (first :: more).dropWhile (· ≠ ',') with
          | [] => some selection
          | _ :: rest => deserializeLoop rest selection
termination_by p.length
decreasing_by
  have shorter := (List.dropWhile_sublist (· ≠ ',') (l := first :: more)).length_le
  rw [_found, List.length_cons] at shorter
  omega

/-- The result and the compressors, which are a null pointer when there are none. -/
def zpqDeserializeCompressors (cString : List Char) : Bool × List ZpqCompressor :=
  match deserializeLoop cString ⟨0, []⟩ with
  | none => (false, [])
  | some selection => (true, selection.compressors)

/-! ## Writing -/

/-- `abs`, which leaves the least `int` as it is. -/
def absInt (value : Int) : Int := wrap 4 |value|

/-- `(int) floor(log10(value))`; what the conversion makes of no number depends on the
processor. -/
def floorLog10 (ofNaN value : Int) : Int := if 0 < value then Nat.log 10 value.toNat else ofNaN

def levelLen (ofNaN level : Int) : Nat :=
  let len := unsigned 8 (if level = 0 then 1 else floorLog10 ofNaN (absInt level) + 1)
  if level < 0 then (len + 1) % 2 ^ 64 else len

inductive Measured where
  | invalid
  | crash
  | len (totalLen : Nat)
  deriving DecidableEq, Repr

def measure (ofNaN : Int) : List ZpqCompressor → Nat → Measured
  | [], totalLen => .len totalLen
  | compressor :: rest, totalLen =>
      match zsAlgorithms[compressor.impl]? with
      | none => .invalid
      | some none => .crash
      | some (some name) =>
          measure ofNaN rest
            ((totalLen + (name.length + levelLen ofNaN compressor.level + 2)) % 2 ^ 64)

/-- `sprintf` of one entry. -/
def entryText (compressor : ZpqCompressor) : List Char :=
  (zsAlgorithms[compressor.impl]?.join.getD []) ++ ':' :: printInt false 0 compressor.level

/-- What serialization comes to: a null pointer, a crash at a name that is one, or a text with
the bytes allocated for it. -/
inductive Serialized where
  | null
  | crash
  | text (written : List Char) (allocated : Nat)
  deriving DecidableEq, Repr

/-- `malloc` refuses more than half of the addresses. -/
def mallocMax : Nat := 2 ^ 63 - 1

def zpqSerializeCompressors (ofNaN : Int) (compressors : List ZpqCompressor) : Serialized :=
  if compressors = [] then .null
  else
    match measure ofNaN compressors 0 with
    | .invalid => .null
    | .crash => .crash
    | .len totalLen =>
        if mallocMax < (totalLen + 1) % 2 ^ 64 then .null
        else .text ([','].intercalate (compressors.map entryText)) ((totalLen + 1) % 2 ^ 64)

/-! ## What a list of compressors says -/

def items (cString : List Char) : List (List Char) := cString.splitOn ','

/-- A text that is a number and nothing else, blanks apart. -/
def number (text : List Char) : Option Int :=
  match scanInt text.length text with
  | some (value, rest) => if rest.all isSpace then some value else none
  | none => none

/-- The algorithms that a text names, in its order. -/
def algorithms (texts : List (List Char)) : List Nat :=
  texts.filterMap fun item => findAlgorithm (itemName item)

/-- The supported algorithms with the levels that some reading gives the items. -/
def named (level : List Char → Int) (texts : List (List Char)) : List ZpqCompressor :=
  texts.filterMap fun item => (findAlgorithm (itemName item)).map fun impl => ⟨impl, level item⟩

/-- The level of an item by a reading of texts. -/
def levelOf (read : List Char → Option Int) (item : List Char) : Int :=
  ((itemLevel item).elim (some zpqDefaultCompressionLevel) read).getD zpqDefaultCompressionLevel

/-- Some level cannot be read, or an algorithm occurs twice. -/
def Refuses (read : List Char → Option Int) (texts : List (List Char)) : Prop :=
  (∃ item ∈ texts, (itemLevel item).elim (some zpqDefaultCompressionLevel) read = none) ∨
    ¬(algorithms texts).Nodup

instance (read : List Char → Option Int) (texts : List (List Char)) :
    Decidable (Refuses read texts) :=
  inferInstanceAs (Decidable (_ ∨ _))

def expected (cString : List Char) : Bool × List ZpqCompressor :=
  if Refuses number (items cString) then (false, [])
  else (true, named (levelOf number) (items cString))

/-! ## Reading item by item -/

def selectAll (selection : Selection) : List (List Char) → Option Selection
  | [] => some selection
  | item :: rest => (selectItem selection item).bind fun next => selectAll next rest

/-- The items of a text are the first one and those behind its comma. -/
theorem items_eq (cString : List Char) :
    items cString = cString.takeWhile (· ≠ ',') ::
      match cString.dropWhile (· ≠ ',') with
      | [] => []
      | _ :: rest => items rest := by
  have whole := List.takeWhile_append_dropWhile (p := (· ≠ ',')) (l := cString)
  have plain : ∀ character ∈ cString.takeWhile (· ≠ ','), (character == ',') = false := by
    intro character member
    have other := List.mem_takeWhile_imp member
    simpa using other
  have one := List.splitOnP_eq_singleton plain
  cases found : cString.dropWhile (· ≠ ',') with
  | nil =>
      rw [found, List.append_nil] at whole
      rw [whole] at one
      rw [whole, items, List.splitOn_eq_splitOnP]
      exact one
  | cons comma rest =>
      have isComma : comma = ',' := by
        have stops := List.head?_dropWhile_not (· ≠ ',') cString
        rw [found] at stops
        simpa using stops
      rw [found, isComma] at whole
      have split := List.splitOnP_append_cons (p := (· == ',')) (cString.takeWhile (· ≠ ',')) rest
        (beq_self_eq_true ',')
      rw [whole, one] at split
      simpa [items, List.splitOn_eq_splitOnP] using split

theorem selectItem_nil (selection : Selection) : selectItem selection [] = some selection := by
  have absent : findAlgorithm (itemName []) = none := by decide
  have level : itemLevel [] = none := rfl
  rw [selectItem, absent, level]
  rfl

theorem deserializeLoop_eq (p : List Char) (selection : Selection) :
    deserializeLoop p selection = selectAll selection (items p) := by
  fun_induction deserializeLoop p selection with
  | case1 selection => simp [items, selectAll, selectItem_nil]
  | case2 selection first more failed =>
      rw [items_eq, selectAll, failed]
      rfl
  | case3 selection first more next selected found =>
      rw [items_eq, selectAll, selected, found]
      rfl
  | case4 selection first more next selected comma rest found ih =>
      rw [items_eq, selectAll, selected, found, ih]
      rfl

/-- The mask has the bits of the compressors. -/
def Tracks (selection : Selection) : Prop :=
  ∀ i, selection.selectedAlgMask.testBit i = true ↔ i ∈ selection.compressors.map ZpqCompressor.impl

theorem mask_iff (mask i : Nat) : mask &&& (1 <<< i) ≠ 0 ↔ mask.testBit i = true := by
  rw [Nat.one_shiftLeft, Nat.and_two_pow]
  cases mask.testBit i <;> simp

theorem Tracks.add {selection : Selection} (tracks : Tracks selection) (i : Nat) (level : Int) :
    Tracks ⟨selection.selectedAlgMask ||| (1 <<< i), selection.compressors ++ [⟨i, level⟩]⟩ := by
  intro other
  rw [Nat.testBit_or, Bool.or_eq_true, tracks other, Nat.one_shiftLeft, Nat.testBit_two_pow]
  simp [eq_comm]

theorem selectAll_eq {selection : Selection} (tracks : Tracks selection)
    (nodup : (selection.compressors.map ZpqCompressor.impl).Nodup) (texts : List (List Char)) :
    (selectAll selection texts).map Selection.compressors =
      if (∃ item ∈ texts, (itemLevel item).elim (some zpqDefaultCompressionLevel) scanLevel = none) ∨
          ¬(selection.compressors.map ZpqCompressor.impl ++ algorithms texts).Nodup then none
      else some (selection.compressors ++ named (levelOf scanLevel) texts) := by
  induction texts generalizing selection with
  | nil => simp [selectAll, algorithms, named, nodup]
  | cons item rest ih =>
      rw [selectAll, selectItem]
      cases read : (itemLevel item).elim (some zpqDefaultCompressionLevel) scanLevel with
      | none => simp [read]
      | some level =>
          have given : levelOf scanLevel item = level := by rw [levelOf, read]; rfl
          cases found : findAlgorithm (itemName item) with
          | none =>
              have same : algorithms (item :: rest) = algorithms rest := by simp [algorithms, found]
              have tail : named (levelOf scanLevel) (item :: rest) = named (levelOf scanLevel) rest := by
                simp [named, found]
              rw [same, tail]
              simpa [read] using ih tracks nodup
          | some i =>
              have same : algorithms (item :: rest) = i :: algorithms rest := by
                simp [algorithms, found]
              have tail : named (levelOf scanLevel) (item :: rest) =
                  ⟨i, level⟩ :: named (levelOf scanLevel) rest := by
                simp [named, found, given]
              rw [same, tail]
              by_cases twice : selection.selectedAlgMask.testBit i = true
              · have member := (tracks i).mp twice
                have repeated : ¬(selection.compressors.map ZpqCompressor.impl ++
                    i :: algorithms rest).Nodup := by
                  intro all
                  exact List.disjoint_of_nodup_append all member List.mem_cons_self
                simp only [mask_iff, twice, if_true, Option.bind_none, Option.map_none]
                rw [if_pos (.inr repeated)]
              · have fresh : i ∉ selection.compressors.map ZpqCompressor.impl :=
                  fun member => twice ((tracks i).mpr member)
                have more : ((selection.compressors ++ [ZpqCompressor.mk i level]).map
                    ZpqCompressor.impl).Nodup := by
                  rw [List.map_append]
                  exact nodup.append (List.nodup_singleton i) (by simpa using fresh)
                have next := ih (tracks.add i level) more
                have clear : selection.selectedAlgMask.testBit i = false := by simpa using twice
                simp only [mask_iff, clear, Bool.false_eq_true, if_false, Option.bind_some]
                rw [next]
                simp [read]

theorem zpqDeserializeCompressors_eq (cString : List Char) :
    zpqDeserializeCompressors cString =
      if Refuses scanLevel (items cString) then (false, [])
      else (true, named (levelOf scanLevel) (items cString)) := by
  have tracks : Tracks ⟨0, []⟩ := by simp [Tracks]
  have scanned := selectAll_eq tracks List.nodup_nil (items cString)
  rw [zpqDeserializeCompressors, deserializeLoop_eq]
  simp only [List.map_nil, List.nil_append] at scanned
  by_cases refuses : Refuses scanLevel (items cString)
  · rw [if_pos refuses]
    rw [Refuses] at refuses
    rw [if_pos refuses] at scanned
    rw [Option.map_eq_none_iff.mp scanned]
  · rw [if_neg refuses]
    rw [Refuses] at refuses
    rw [if_neg refuses] at scanned
    obtain ⟨selection, selected, same⟩ := Option.map_eq_some_iff.mp scanned
    rw [selected, ← same]

/-! ## Levels that are numbers -/

def IsInt (value : Int) : Prop := -2 ^ 31 ≤ value ∧ value < 2 ^ 31

instance (value : Int) : Decidable (IsInt value) := inferInstanceAs (Decidable (_ ∧ _))

/-- Every level is a number and nothing else, and one that an `int` holds where the algorithm
is supported. -/
def Plain (texts : List (List Char)) : Prop :=
  ∀ item ∈ texts, ∀ text ∈ itemLevel item, ∃ value ∈ number text,
    (findAlgorithm (itemName item)).isSome → IsInt value

instance (texts : List (List Char)) : Decidable (Plain texts) :=
  inferInstanceAs (Decidable (∀ item ∈ texts, _))

theorem scanLevel_number {text : List Char} {value : Int} (given : number text = some value) :
    scanLevel text = some (wrap 4 (max (-(2 ^ 63)) (min (2 ^ 63 - 1) value))) := by
  rw [number] at given
  split at given
  · rename_i scanned found
    split at given
    · cases given
      rw [scanLevel, found, Option.map_some]
    · cases given
  · cases given

/-- The number is kept exactly when an `int` holds it. -/
theorem wrap_clamp_iff (value : Int) :
    wrap 4 (max (-(2 ^ 63)) (min (2 ^ 63 - 1) value)) = value ↔ IsInt value := by
  rw [IsInt]
  constructor
  · intro same
    have lower := le_wrap 4 (max (-(2 ^ 63)) (min (2 ^ 63 - 1) value))
    have upper := wrap_lt 4 (max (-(2 ^ 63)) (min (2 ^ 63 - 1) value))
    rw [same] at lower upper
    omega
  · intro fits
    have clamped : max (-(2 ^ 63)) (min (2 ^ 63 - 1) value) = value := by omega
    rw [clamped]
    exact wrap_of_range (by omega) (by omega)

theorem elim_scanLevel {item : List Char}
    (given : (itemLevel item).elim (some zpqDefaultCompressionLevel) number ≠ none) :
    (itemLevel item).elim (some zpqDefaultCompressionLevel) scanLevel ≠ none := by
  cases level : itemLevel item with
  | none => simp
  | some text =>
      rw [level, Option.elim_some] at given
      obtain ⟨value, read⟩ := Option.ne_none_iff_exists'.mp given
      rw [Option.elim_some, scanLevel_number read]
      simp

theorem refuses_number {texts : List (List Char)} (refuses : Refuses scanLevel texts) :
    Refuses number texts := by
  rcases refuses with ⟨item, member, failed⟩ | twice
  · refine .inl ⟨item, member, ?_⟩
    by_contra given
    exact elim_scanLevel given failed
  · exact .inr twice

/-- The levels agree where the algorithm is supported. -/
theorem named_eq_iff (first second : List Char → Int) (texts : List (List Char)) :
    named first texts = named second texts ↔
      ∀ item ∈ texts, (findAlgorithm (itemName item)).isSome → first item = second item := by
  induction texts with
  | nil => simp [named]
  | cons item rest ih =>
      cases found : findAlgorithm (itemName item) with
      | none =>
          have skip (level : List Char → Int) : named level (item :: rest) = named level rest := by
            simp [named, found]
          rw [skip, skip, ih]
          simp [found]
      | some i =>
          have head (level : List Char → Int) :
              named level (item :: rest) = ⟨i, level item⟩ :: named level rest := by
            simp [named, found]
          rw [head, head, List.cons.injEq, ih]
          simp [found]

theorem levelOf_eq_iff {item : List Char} {text : List Char} {value : Int}
    (level : itemLevel item = some text) (given : number text = some value) :
    levelOf scanLevel item = levelOf number item ↔ IsInt value := by
  rw [levelOf, levelOf, level, Option.elim_some, Option.elim_some, given, scanLevel_number given,
    Option.getD_some, Option.getD_some, wrap_clamp_iff]

theorem deserialize_expected_iff (cString : List Char) :
    zpqDeserializeCompressors cString = expected cString ↔
      Refuses scanLevel (items cString) ∨ Plain (items cString) := by
  rw [zpqDeserializeCompressors_eq, expected]
  by_cases refuses : Refuses scanLevel (items cString)
  · simp [refuses, refuses_number refuses]
  · have unique : (algorithms (items cString)).Nodup := by
      by_contra twice
      exact refuses (.inr twice)
    rw [if_neg refuses]
    constructor
    · intro same
      split at same
      · cases same
      · rename_i accepts
        have levels := (named_eq_iff _ _ _).mp (Prod.mk.inj same).2
        refine .inr fun item member text level => ?_
        cases given : number text with
        | none =>
            refine absurd (.inl ⟨item, member, ?_⟩) accepts
            rw [level, Option.elim_some, given]
        | some value =>
            exact ⟨value, rfl, fun supported =>
              (levelOf_eq_iff level given).mp (levels item member supported)⟩
    · intro either
      have plain : Plain (items cString) := either.resolve_left refuses
      have accepts : ¬Refuses number (items cString) := by
        rintro (⟨item, member, failed⟩ | twice)
        · cases level : itemLevel item with
          | none => simp [level] at failed
          | some text =>
              obtain ⟨value, given, _⟩ := plain item member text level
              rw [level, Option.elim_some, given] at failed
              cases failed
        · exact twice unique
      rw [if_neg accepts, Prod.mk.injEq, named_eq_iff]
      refine ⟨rfl, fun item member supported => ?_⟩
      cases level : itemLevel item with
      | none => rw [levelOf, levelOf, level]; rfl
      | some text =>
          obtain ⟨value, given, fits⟩ := plain item member text level
          exact (levelOf_eq_iff level given).mpr (fits supported)

/-! ## The size of a text -/

theorem absInt_of_range {level : Int} (fits : IsInt level) (notLeast : level ≠ -2 ^ 31) :
    absInt level = |level| := by
  rw [IsInt] at fits
  rw [absInt]
  apply wrap_of_range
  · have nonneg := abs_nonneg level
    omega
  · rcases abs_cases level with ⟨same, _⟩ | ⟨same, _⟩
    · rw [same]
      omega
    · rw [same]
      omega

/-- The length of a level is computed right, the least one apart. -/
theorem levelLen_eq (ofNaN : Int) {level : Int} (fits : IsInt level) (notLeast : level ≠ -2 ^ 31) :
    levelLen ofNaN level = (printInt false 0 level).length ∧ levelLen ofNaN level ≤ 11 := by
  by_cases zero : level = 0
  · have one : levelLen ofNaN level = 1 := by
      rw [levelLen, if_pos zero, zero]
      rfl
    rw [one, zero]
    decide
  · have pos : 0 < level.natAbs := by omega
    have abs : |level| = level.natAbs := Int.abs_eq_natAbs level
    have log : floorLog10 ofNaN (absInt level) = Nat.log 10 level.natAbs := by
      rw [absInt_of_range fits notLeast, floorLog10, abs, if_pos (by omega), Int.toNat_natCast]
    have small : Nat.log 10 level.natAbs < 10 := by
      rw [IsInt] at fits
      rw [Nat.log_lt_iff_lt_pow (by decide) (by omega)]
      omega
    have counted : unsigned 8 ((Nat.log 10 level.natAbs : Int) + 1) = Nat.log 10 level.natAbs + 1 := by
      rw [unsigned]
      omega
    have digits := length_toDigits_log pos
    rw [levelLen, if_neg zero, log, counted]
    simp only [printInt, Bool.false_eq_true, if_false, List.length_append, List.length_replicate,
      digits]
    split
    · simp only [List.length_singleton]
      omega
    · simp only [List.length_nil]
      omega

/-- What an entry adds to the measured length. -/
def cost (ofNaN : Int) (compressor : ZpqCompressor) : Nat :=
  (zsAlgorithms[compressor.impl]?.join.getD []).length + levelLen ofNaN compressor.level + 2

def IsSupported (compressor : ZpqCompressor) : Prop :=
  compressor.impl < zsGetSupportedAlgorithms.length

instance (compressor : ZpqCompressor) : Decidable (IsSupported compressor) :=
  inferInstanceAs (Decidable (_ < _))

theorem supported_cases {compressor : ZpqCompressor} (supported : IsSupported compressor) :
    compressor.impl = 0 ∨ compressor.impl = 1 := by
  have two : zsGetSupportedAlgorithms.length = 2 := by decide
  rw [IsSupported, two] at supported
  omega

theorem measure_eq (ofNaN : Int) {compressors : List ZpqCompressor}
    (supported : ∀ compressor ∈ compressors, IsSupported compressor) {totalLen : Nat}
    (small : totalLen < 2 ^ 64) :
    measure ofNaN compressors totalLen =
      .len ((totalLen + (compressors.map (cost ofNaN)).sum) % 2 ^ 64) := by
  induction compressors generalizing totalLen with
  | nil => rw [measure, List.map_nil, List.sum_nil, Nat.add_zero, Nat.mod_eq_of_lt small]
  | cons compressor rest ih =>
      obtain ⟨here, later⟩ := List.forall_mem_cons.mp supported
      have known : zsAlgorithms[compressor.impl]? =
          some (some (zsAlgorithms[compressor.impl]?.join.getD [])) := by
        rcases supported_cases here with zero | one
        · rw [zero]
          rfl
        · rw [one]
          rfl
      rw [measure, known]
      dsimp only
      rw [ih later (Nat.mod_lt _ (by decide)), List.map_cons, List.sum_cons, cost, Nat.mod_add_mod]
      congr 2
      omega

theorem intercalate_length {texts : List (List Char)} (nonempty : texts ≠ []) :
    ([','].intercalate texts).length + 1 = (texts.map fun text => text.length + 1).sum := by
  induction texts with
  | nil => exact absurd rfl nonempty
  | cons text rest ih =>
      cases rest with
      | nil => simp
      | cons next more =>
          have tail := ih (by simp)
          rw [List.intercalate_cons_cons, List.map_cons, List.sum_cons, ← tail]
          simp
          omega

theorem length_le_two {compressors : List ZpqCompressor}
    (supported : ∀ compressor ∈ compressors, IsSupported compressor)
    (nodup : (compressors.map ZpqCompressor.impl).Nodup) : compressors.length ≤ 2 := by
  have inside : compressors.map ZpqCompressor.impl ⊆ [0, 1] := by
    intro impl member
    obtain ⟨compressor, found, rfl⟩ := List.mem_map.mp member
    simpa using supported_cases (supported compressor found)
  have shorter := nodup.length_le_of_subset inside
  simpa using shorter

/-! ## Round trips -/

/-- The text of a list is written into the bytes allocated for it and read back. -/
def RoundTrips (ofNaN : Int) (compressors : List ZpqCompressor) : Prop :=
  ∃ written allocated, zpqSerializeCompressors ofNaN compressors = .text written allocated ∧
    written.length + 1 ≤ allocated ∧ zpqDeserializeCompressors written = (true, compressors)

theorem entryText_comma {compressor : ZpqCompressor} (supported : IsSupported compressor) :
    ',' ∉ entryText compressor := by
  have digits : ',' ∉ printInt false 0 compressor.level := not_mem_printInt rfl (by decide) _ _ _
  rcases supported_cases supported with zero | one
  · simp [entryText, zero, zsAlgorithms, digits]
  · simp [entryText, one, zsAlgorithms, digits]

theorem entryText_name {compressor : ZpqCompressor} (supported : IsSupported compressor) :
    findAlgorithm (itemName (entryText compressor)) = some compressor.impl := by
  rcases supported_cases supported with zero | one
  · have name : itemName (entryText compressor) = ['z', 's', 't', 'd'] := by
      rw [entryText, zero]
      rfl
    rw [name, zero]
    decide
  · have name : itemName (entryText compressor) = ['l', 'z', '4'] := by
      rw [entryText, one]
      rfl
    rw [name, one]
    decide

theorem entryText_level {compressor : ZpqCompressor} (supported : IsSupported compressor)
    (fits : IsInt compressor.level) :
    (itemLevel (entryText compressor)).elim (some zpqDefaultCompressionLevel) scanLevel =
      some compressor.level := by
  have level : itemLevel (entryText compressor) = some (printInt false 0 compressor.level) := by
    rcases supported_cases supported with zero | one
    · rw [entryText, zero]
      rfl
    · rw [entryText, one]
      rfl
  have scanned := scanInt_printInt 0 (printInt false 0 compressor.level).length compressor.level []
    le_rfl (by simp [EndsNumber])
  rw [List.append_nil] at scanned
  rw [level, Option.elim_some, scanLevel, scanned, Option.map_some, (wrap_clamp_iff _).mpr fits]

theorem deserialize_entries {compressors : List ZpqCompressor} (nonempty : compressors ≠ [])
    (nodup : (compressors.map ZpqCompressor.impl).Nodup)
    (supported : ∀ compressor ∈ compressors, IsSupported compressor)
    (fits : ∀ compressor ∈ compressors, IsInt compressor.level) :
    zpqDeserializeCompressors ([','].intercalate (compressors.map entryText)) =
      (true, compressors) := by
  have split : items ([','].intercalate (compressors.map entryText)) = compressors.map entryText := by
    refine List.splitOn_intercalate ',' ?_ (by simpa using nonempty)
    intro text member
    obtain ⟨compressor, found, rfl⟩ := List.mem_map.mp member
    exact entryText_comma (supported compressor found)
  have impls : algorithms (compressors.map entryText) = compressors.map ZpqCompressor.impl := by
    rw [algorithms, List.filterMap_map, List.filterMap_eq_map_iff_forall_eq_some]
    intro compressor member
    exact entryText_name (supported compressor member)
  have back : named (levelOf scanLevel) (compressors.map entryText) = compressors := by
    rw [named, List.filterMap_map]
    conv => rhs; rw [← List.map_id compressors]
    rw [List.filterMap_eq_map_iff_forall_eq_some]
    intro compressor member
    have level : levelOf scanLevel (entryText compressor) = compressor.level := by
      rw [levelOf, entryText_level (supported compressor member) (fits compressor member),
        Option.getD_some]
    simp only [Function.comp_apply, entryText_name (supported compressor member), Option.map_some,
      level, id_eq]
  have accepts : ¬Refuses scanLevel (compressors.map entryText) := by
    rintro (⟨item, member, failed⟩ | twice)
    · obtain ⟨compressor, found, rfl⟩ := List.mem_map.mp member
      rw [entryText_level (supported compressor found) (fits compressor found)] at failed
      cases failed
    · rw [impls] at twice
      exact twice nodup
  rw [zpqDeserializeCompressors_eq, split, if_neg accepts, back]

def isLeast (compressor : ZpqCompressor) : Bool := compressor.level = -2 ^ 31

/-- What the least level adds to the measured length. -/
def excess (ofNaN : Int) : Nat := if ofNaN = 0 then 0 else 2 ^ 64 - 2 ^ 31

theorem levelLen_least {ofNaN : Int} (processor : ofNaN = -2 ^ 31 ∨ ofNaN = 0) :
    levelLen ofNaN (-2 ^ 31) = excess ofNaN + 2 := by
  rcases processor with rfl | rfl
  · decide
  · decide

theorem cost_eq {ofNaN : Int} (processor : ofNaN = -2 ^ 31 ∨ ofNaN = 0)
    {compressor : ZpqCompressor} (fits : IsInt compressor.level) :
    cost ofNaN compressor + (if isLeast compressor then 9 else 0) =
      (entryText compressor).length + 1 + (if isLeast compressor then excess ofNaN else 0) := by
  have text : (entryText compressor).length = (zsAlgorithms[compressor.impl]?.join.getD []).length +
      ((printInt false 0 compressor.level).length + 1) := by
    rw [entryText, List.length_append, List.length_cons]
  rw [cost, text]
  by_cases least : compressor.level = -2 ^ 31
  · have printed : (printInt false 0 compressor.level).length = 11 := by
      rw [least]
      decide
    have isLeast : isLeast compressor = true := by simpa [isLeast] using least
    rw [printed, least, levelLen_least processor, if_pos isLeast, if_pos isLeast]
    omega
  · have isNotLeast : ¬isLeast compressor = true := by simpa [isLeast] using least
    rw [(levelLen_eq ofNaN fits least).1, if_neg isNotLeast, if_neg isNotLeast]
    omega

/-- Each least level makes the measured length wrong by the same amount. -/
theorem sum_cost {ofNaN : Int} (processor : ofNaN = -2 ^ 31 ∨ ofNaN = 0)
    {compressors : List ZpqCompressor} (fits : ∀ compressor ∈ compressors, IsInt compressor.level) :
    (compressors.map (cost ofNaN)).sum + 9 * compressors.countP isLeast =
      ((compressors.map entryText).map fun text => text.length + 1).sum +
        excess ofNaN * compressors.countP isLeast := by
  induction compressors with
  | nil => rfl
  | cons compressor rest ih =>
      obtain ⟨here, later⟩ := List.forall_mem_cons.mp fits
      have first := cost_eq processor here
      have tail := ih later
      simp only [List.map_cons, List.sum_cons, List.countP_cons]
      split at first
      · rename_i least
        rw [if_pos least]
        rw [Nat.mul_add, Nat.mul_add]
        omega
      · rename_i least
        rw [if_neg least, Nat.add_zero]
        omega

theorem entryText_length_le {compressor : ZpqCompressor} (supported : IsSupported compressor)
    (fits : IsInt compressor.level) : (entryText compressor).length ≤ 16 := by
  have name : (zsAlgorithms[compressor.impl]?.join.getD []).length ≤ 4 := by
    rcases supported_cases supported with zero | one
    · rw [zero]
      decide
    · rw [one]
      decide
  have digits : (printInt false 0 compressor.level).length ≤ 11 := by
    by_cases least : compressor.level = -2 ^ 31
    · rw [least]
      decide
    · obtain ⟨same, small⟩ := levelLen_eq 0 fits least
      rwa [same] at small
  rw [entryText, List.length_append, List.length_cons]
  omega

theorem sum_length_le {compressors : List ZpqCompressor}
    (supported : ∀ compressor ∈ compressors, IsSupported compressor)
    (fits : ∀ compressor ∈ compressors, IsInt compressor.level) :
    ((compressors.map entryText).map fun text => text.length + 1).sum ≤
      17 * compressors.length := by
  induction compressors with
  | nil => simp
  | cons compressor rest ih =>
      obtain ⟨first, others⟩ := List.forall_mem_cons.mp supported
      obtain ⟨here, later⟩ := List.forall_mem_cons.mp fits
      have one := entryText_length_le first here
      have tail := ih others later
      simp only [List.map_cons, List.sum_cons, List.length_cons]
      omega

theorem roundTrips_iff {ofNaN : Int} (processor : ofNaN = -2 ^ 31 ∨ ofNaN = 0)
    {compressors : List ZpqCompressor} (nonempty : compressors ≠ [])
    (nodup : (compressors.map ZpqCompressor.impl).Nodup)
    (supported : ∀ compressor ∈ compressors, IsSupported compressor)
    (fits : ∀ compressor ∈ compressors, IsInt compressor.level) :
    RoundTrips ofNaN compressors ↔ ∀ compressor ∈ compressors, compressor.level ≠ -2 ^ 31 := by
  have measured := measure_eq ofNaN supported (by decide : 0 < 2 ^ 64)
  have costs := sum_cost processor fits
  have short := sum_length_le supported fits
  have two := length_le_two supported nodup
  have texts : compressors.map entryText ≠ [] := by simpa using nonempty
  have written := intercalate_length texts
  have counted := List.countP_le_length (p := isLeast) (l := compressors)
  have none : (∀ compressor ∈ compressors, compressor.level ≠ -2 ^ 31) ↔
      compressors.countP isLeast = 0 := by
    rw [List.countP_eq_zero]
    simp [isLeast]
  have serialized : zpqSerializeCompressors ofNaN compressors =
      if mallocMax < ((compressors.map (cost ofNaN)).sum % 2 ^ 64 + 1) % 2 ^ 64 then .null
      else .text ([','].intercalate (compressors.map entryText))
        (((compressors.map (cost ofNaN)).sum % 2 ^ 64 + 1) % 2 ^ 64) := by
    rw [zpqSerializeCompressors, if_neg nonempty, measured, Nat.zero_add]
  have most : compressors.countP isLeast = 0 ∨ compressors.countP isLeast = 1 ∨
      compressors.countP isLeast = 2 := by omega
  rw [none]
  constructor
  · rintro ⟨text, allocated, ser, enough, _⟩
    rw [serialized] at ser
    split at ser
    · cases ser
    · rename_i granted
      rw [mallocMax] at granted
      cases ser
      rcases processor with rfl | rfl
      · have large : excess (-2 ^ 31) = 2 ^ 64 - 2 ^ 31 := rfl
        rw [large] at costs
        rcases most with zero | one | two
        · exact zero
        · rw [one] at costs
          omega
        · rw [two] at costs
          omega
      · have nothing : excess 0 = 0 := rfl
        rw [nothing] at costs
        omega
  · intro zero
    rw [zero] at costs
    refine ⟨[','].intercalate (compressors.map entryText),
      ((compressors.map (cost ofNaN)).sum % 2 ^ 64 + 1) % 2 ^ 64, ?_, ?_,
      deserialize_entries nonempty nodup supported fits⟩
    · rw [serialized, mallocMax, if_neg (by omega)]
    · omega

theorem zpq_compressors_iff {ofNaN : Int} (processor : ofNaN = -2 ^ 31 ∨ ofNaN = 0) :
    (∀ compressors : List ZpqCompressor, compressors ≠ [] →
      (compressors.map ZpqCompressor.impl).Nodup →
      (∀ compressor ∈ compressors, IsSupported compressor ∧ IsInt compressor.level) →
      (RoundTrips ofNaN compressors ↔ ∀ compressor ∈ compressors, compressor.level ≠ -2 ^ 31)) ∧
    ∀ cString, zpqDeserializeCompressors cString = expected cString ↔
      Refuses scanLevel (items cString) ∨ Plain (items cString) :=
  ⟨fun _ nonempty nodup valid => roundTrips_iff processor nonempty nodup
    (fun compressor member => (valid compressor member).1)
    (fun compressor member => (valid compressor member).2), deserialize_expected_iff⟩

/-- Two algorithms with the greatest level and one below zero. -/
theorem zpq_compressors_two :
    RoundTrips (-2 ^ 31) [⟨1, 2147483647⟩, ⟨0, -7⟩] ∧
      zpqDeserializeCompressors ['Z', 's', 't', 'd', ':', ' ', '5', ',', ',', 'x', ':', '3'] =
        (true, [⟨0, 5⟩]) := by
  obtain ⟨trips, reads⟩ := zpq_compressors_iff (.inl rfl : (-2 ^ 31 : Int) = -2 ^ 31 ∨ _)
  refine ⟨(trips _ (by simp) (by decide) (by decide)).mpr (by decide), ?_⟩
  rw [(reads _).mpr (.inr ?_)]
  · decide
  · decide

unseal deserializeLoop in
/-- The least level: the size is computed from the logarithm of a negative number.  A level may
go on behind its number, and a level out of range is cut down. -/
theorem zpq_compressors_wrong :
    zpqSerializeCompressors (-2 ^ 31) [⟨0, -2 ^ 31⟩] = .null ∧
      zpqSerializeCompressors 0 [⟨0, -2 ^ 31⟩] =
        .text ['z', 's', 't', 'd', ':', '-', '2', '1', '4', '7', '4', '8', '3', '6', '4', '8'] 9 ∧
      ¬RoundTrips (-2 ^ 31) [⟨0, -2 ^ 31⟩] ∧ ¬RoundTrips 0 [⟨0, -2 ^ 31⟩] ∧
      zpqDeserializeCompressors ['z', 's', 't', 'd', ':', '5', 'x'] = (true, [⟨0, 5⟩]) ∧
      expected ['z', 's', 't', 'd', ':', '5', 'x'] = (false, []) ∧
      zpqDeserializeCompressors ['l', 'z', '4', ':', '4', '2', '9', '4', '9', '6', '7', '2', '9', '7'] =
        (true, [⟨1, 1⟩]) ∧
      expected ['l', 'z', '4', ':', '4', '2', '9', '4', '9', '6', '7', '2', '9', '7'] =
        (true, [⟨1, 4294967297⟩]) := by
  have first : zpqSerializeCompressors (-2 ^ 31) [⟨0, -2 ^ 31⟩] = .null := by decide
  have second : zpqSerializeCompressors 0 [⟨0, -2 ^ 31⟩] =
      .text ['z', 's', 't', 'd', ':', '-', '2', '1', '4', '7', '4', '8', '3', '6', '4', '8'] 9 := by
    decide
  refine ⟨first, second, ?_, ?_, by decide, by decide, by decide,
    by decide⟩
  · rintro ⟨written, allocated, text, _⟩
    rw [first] at text
    cases text
  · rintro ⟨written, allocated, text, enough, _⟩
    rw [second] at text
    cases text
    revert enough
    decide

end RedshiftOdbc.Zpq

import Mathlib.Data.List.DropRight
import Mathlib.Tactic.Common

/-!
# Texts in memory

The functions of the C library on texts of bytes: a text ends with its first NUL, a copy
into an array may leave the array, and a file is read line by line.
-/

namespace RedshiftOdbc.CText

variable {α : Type}

def cString (bytes : List UInt8) : List UInt8 := bytes.takeWhile (· ≠ 0)

def bytes (text : String) : List UInt8 :=
  text.toList.map fun character => UInt8.ofNat character.toNat

/-- `isspace` in the C locale. -/
def isSpace (byte : UInt8) : Bool := byte = 32 || (9 ≤ byte && byte ≤ 13)

/-- `tolower` in the C locale. -/
def toLower (byte : UInt8) : UInt8 := if 65 ≤ byte ∧ byte ≤ 90 then byte + 32 else byte

/-- Two texts that `strcasecmp` finds equal. -/
def sameText (left right : List UInt8) : Bool := left.map toLower = right.map toLower

def trim (text : List UInt8) : List UInt8 := (text.dropWhile isSpace).rdropWhile isSpace

theorem sameText_iff {left right : List UInt8} :
    sameText left right = true ↔ left.map toLower = right.map toLower := decide_eq_true_iff

theorem sameText_comm (left right : List UInt8) : sameText left right = sameText right left :=
  decide_eq_decide.mpr eq_comm

/-- Equal texts are equal to the same texts. -/
theorem sameText_congr {left right : List UInt8} (same : sameText left right = true)
    (other : List UInt8) : sameText left other = sameText right other := by
  rw [sameText, sameText, sameText_iff.mp same]

theorem length_of_sameText {left right : List UInt8} (same : sameText left right = true) :
    left.length = right.length := by
  simpa using congrArg List.length (sameText_iff.mp same)

/-- Bytes that are no letters stay as they are, and no letter becomes one of them. -/
theorem toLower_eq_iff {byte other : UInt8} (noLetter : other < 65 ∨ 90 < other ∧ other < 97) :
    toLower byte = other ↔ byte = other := by
  simp only [toLower, ← UInt8.toNat_inj, UInt8.lt_iff_toNat_lt, UInt8.le_iff_toNat_le] at *
  split_ifs with upper
  · rw [UInt8.toNat_add]
    simp only [UInt8.reduceToNat] at *
    omega
  · rfl

theorem isSpace_toLower (byte : UInt8) : isSpace (toLower byte) = isSpace byte := by
  rw [Bool.eq_iff_iff]
  simp only [toLower, isSpace, ← UInt8.toNat_inj, UInt8.le_iff_toNat_le, Bool.or_eq_true,
    Bool.and_eq_true, decide_eq_true_eq]
  split_ifs with upper
  · rw [UInt8.toNat_add]
    simp only [UInt8.reduceToNat] at *
    omega
  · rfl

theorem trim_map_toLower (text : List UInt8) :
    trim (text.map toLower) = (trim text).map toLower := by
  have spaces : isSpace ∘ toLower = isSpace := funext isSpace_toLower
  rw [trim, trim, List.rdropWhile, List.rdropWhile, List.dropWhile_map, spaces,
    ← List.map_reverse, List.dropWhile_map, spaces, List.map_reverse]

theorem sameText_trim {left right : List UInt8} (same : sameText left right = true) :
    sameText (trim left) (trim right) = true := by
  rw [sameText_iff, ← trim_map_toLower, ← trim_map_toLower, sameText_iff.mp same]

/-! ## Arrays -/

/-- Values are written from an index on; `none` is a write outside of the array. -/
def store (array : List α) (index : Nat) (values : List α) : Option (List α) :=
  if index + values.length ≤ array.length then
    some (array.take index ++ (values ++ array.drop (index + values.length)))
  else none

/-- `strncpy`: as many bytes as there is room for, and NULs behind a shorter text. -/
def strncpy (array : List UInt8) (index : Nat) (text : List UInt8) (count : Nat) :
    Option (List UInt8) :=
  store array index
    (((cString text).take count) ++ List.replicate (count - (cString text).length) 0)

section

variable {array stored values : List α} {index : Nat}

theorem store_eq_none_iff : store array index values = none ↔
    array.length < index + values.length := by
  unfold store
  split_ifs with room
  · exact iff_of_false nofun (Nat.not_lt.mpr room)
  · exact iff_of_true rfl (Nat.lt_of_not_le room)

theorem length_store (done : store array index values = some stored) :
    stored.length = array.length := by
  unfold store at done
  split_ifs at done with room
  cases done
  simp only [List.length_append, List.length_take, List.length_drop]
  omega

/-- What was written is there. -/
theorem mem_store (done : store array index values = some stored) {value : α}
    (member : value ∈ values) : value ∈ stored := by
  unfold store at done
  split_ifs at done with room
  cases done
  exact List.mem_append_right _ (List.mem_append_left _ member)

end

theorem length_strncpy (text : List UInt8) (count : Nat) :
    ((cString text).take count ++
      List.replicate (count - (cString text).length) (0 : UInt8)).length = count := by
  rw [List.length_append, List.length_take, List.length_replicate]
  omega

theorem zero_not_mem_cString (bytes : List UInt8) : (0 : UInt8) ∉ cString bytes := by
  intro member
  have kept := List.mem_takeWhile_imp member
  simp at kept

theorem strncpy_within {array : List UInt8} {index count : Nat} (text : List UInt8)
    (room : index + count ≤ array.length) :
    ∃ stored, strncpy array index text count = some stored ∧ stored.length = array.length := by
  have within : ∃ stored, strncpy array index text count = some stored :=
    ⟨_, if_pos (by rw [length_strncpy]; exact room)⟩
  obtain ⟨stored, done⟩ := within
  exact ⟨stored, done, length_store done⟩

/-- All of an array is written, and ends in a NUL where the text is shorter. -/
theorem strncpy_whole {array : List UInt8} (text : List UInt8) :
    ∃ stored, strncpy array 0 text array.length = some stored ∧
      ((0 : UInt8) ∈ stored ↔ (cString text).length < array.length) := by
  have length := length_strncpy text array.length
  refine ⟨_, if_pos (by rw [length]; omega), ?_⟩
  rw [length]
  simp only [List.take_zero, List.nil_append, Nat.zero_add, List.drop_length, List.append_nil,
    List.mem_append, List.mem_replicate]
  constructor
  · rintro (member | ⟨some_room, -⟩)
    · exact absurd (List.mem_of_mem_take member) (zero_not_mem_cString text)
    · omega
  · exact fun shorter => Or.inr ⟨by omega, trivial⟩

theorem cString_of_not_mem {text : List UInt8} (noZero : (0 : UInt8) ∉ text) :
    cString text = text :=
  List.takeWhile_eq_self_iff.mpr fun _ member => decide_eq_true fun zero =>
    noZero (zero ▸ member)

theorem cString_append_zero {text rest : List UInt8} (noZero : (0 : UInt8) ∉ text) :
    cString (text ++ 0 :: rest) = text := by
  rw [cString, List.takeWhile_append_of_pos]
  · simp
  · intro byte member
    rw [decide_eq_true_eq]
    rintro rfl
    exact noZero member

theorem cString_concat_zero (text : List UInt8) : cString (text ++ [0]) = cString text := by
  induction text with
  | nil => rfl
  | cons byte text ih =>
      rw [cString] at ih ⊢
      rw [List.cons_append, cString, List.takeWhile_cons, List.takeWhile_cons, ih, cString]

/-- A shorter text that was copied is the text of the array. -/
theorem strncpy_text {array stored text : List UInt8}
    (done : strncpy array 0 text array.length = some stored)
    (shorter : (cString text).length < array.length) : cString stored = cString text := by
  rw [strncpy, store, if_pos (by rw [length_strncpy]; omega), length_strncpy] at done
  cases done
  obtain ⟨more, room⟩ : ∃ more, array.length - (cString text).length = more + 1 :=
    ⟨array.length - (cString text).length - 1, by omega⟩
  rw [List.take_of_length_le shorter.le, room, List.replicate_succ]
  simp only [List.take_zero, List.nil_append, List.append_assoc, List.cons_append]
  exact cString_append_zero (zero_not_mem_cString text)

/-! ## Lines -/

/-- A call of `fgets` with room for so many bytes: the line and what is left of the file. -/
def fgets : Nat → List UInt8 → List UInt8 × List UInt8
  | 0, file => ([], file)
  | _ + 1, [] => ([], [])
  | room + 1, byte :: file =>
      if byte = 10 then ([byte], file)
      else
        let (line, rest) := fgets room file
        (byte :: line, rest)

/-- The lines of at most so many calls. -/
def linesFrom (room : Nat) : Nat → List UInt8 → List (List UInt8)
  | _, [] => []
  | 0, _ => []
  | calls + 1, file =>
      let (line, rest) := fgets room file
      line :: linesFrom room calls rest

/-- The lines that `fgets` reads into an array of so many bytes until the end of the file. -/
def lines (size : Nat) (file : List UInt8) : List (List UInt8) :=
  linesFrom (size - 1) file.length file

def chomp (line : List UInt8) : List UInt8 :=
  if line.getLast? = some 10 then line.dropLast else line

theorem chomp_concat (text : List UInt8) : chomp (text ++ [10]) = text := by
  simp [chomp]

theorem chomp_eq_or (line : List UInt8) : chomp line = line ∨ line = chomp line ++ [10] := by
  rw [chomp]
  split_ifs with ended
  · exact Or.inr (List.dropLast_append_getLast? 10 ended).symm
  · exact Or.inl rfl

theorem fgets_append (room : Nat) (file : List UInt8) :
    (fgets room file).1 ++ (fgets room file).2 = file := by
  induction room generalizing file with
  | zero => rfl
  | succ room ih =>
      cases file with
      | nil => rfl
      | cons byte file =>
          rw [fgets]
          split_ifs
          · rfl
          · simp [ih file]

theorem fgets_ne_nil {room : Nat} {byte : UInt8} {file : List UInt8} :
    (fgets (room + 1) (byte :: file)).1 ≠ [] := by
  rw [fgets]
  split_ifs <;> simp

/-- A line that ends, or is the last, is read as it stands. -/
theorem fgets_whole {room : Nat} {line rest : List UInt8} (fits : line.length ≤ room)
    (inside : 10 ∉ line.dropLast) (ends : line.getLast? = some 10 ∨ rest = []) :
    fgets room (line ++ rest) = (line, rest) := by
  induction line generalizing room with
  | nil =>
      rcases ends with ends | rfl
      · simp at ends
      · cases room <;> rfl
  | cons byte line ih =>
      obtain ⟨room, rfl⟩ : ∃ more, room = more + 1 := ⟨room - 1, by simp at fits; omega⟩
      rw [List.cons_append, fgets]
      cases line with
      | nil =>
          by_cases break_byte : byte = 10
          · rw [if_pos break_byte]
            rfl
          · rcases ends with ends | rfl
            · exact absurd (by simpa using ends) break_byte
            · rw [if_neg break_byte]
              cases room <;> rfl
      | cons second line =>
          rw [List.dropLast_cons_of_ne_nil (List.cons_ne_nil _ _), List.mem_cons, not_or] at inside
          have later := ih (by simpa using fits) inside.2 (by simpa using ends)
          rw [if_neg (Ne.symm inside.1), later]

theorem linesFrom_cons (room calls : Nat) (byte : UInt8) (file : List UInt8) :
    linesFrom room (calls + 1) (byte :: file) =
      (fgets room (byte :: file)).1 :: linesFrom room calls (fgets room (byte :: file)).2 := rfl

theorem linesFrom_flatten (room calls : Nat) (file : List UInt8) (enough : file.length ≤ calls) :
    (linesFrom (room + 1) calls file).flatten = file := by
  induction calls generalizing file with
  | zero =>
      rw [List.length_eq_zero_iff.mp (Nat.le_zero.mp enough)]
      rfl
  | succ calls ih =>
      cases file with
      | nil => rfl
      | cons byte file =>
          have whole := fgets_append (room + 1) (byte :: file)
          have some_line := List.length_pos_iff.mpr (@fgets_ne_nil room byte file)
          have total := congrArg List.length whole
          rw [List.length_append] at total
          rw [linesFrom_cons, List.flatten_cons, ih _ (by omega), whole]

/-- The lines of a file that has them all. -/
theorem lines_flatten {size : Nat} (some_room : 2 ≤ size) (file : List UInt8) :
    (lines size file).flatten = file := by
  obtain ⟨room, rfl⟩ : ∃ room, size = room + 1 + 1 := ⟨size - 2, by omega⟩
  exact linesFrom_flatten room file.length file le_rfl

/-- Lines that each end where a line ends. -/
structure Lined (size : Nat) (lines : List (List UInt8)) : Prop where
  proper : ∀ line ∈ lines, line ≠ [] ∧ line.length ≤ size - 1 ∧ 10 ∉ line.dropLast
  ends : ∀ line ∈ lines.dropLast, line.getLast? = some 10

/-- Lines that end, and lines behind them. -/
theorem Lined.append {size : Nat} {front back : List (List UInt8)}
    (proper : ∀ line ∈ front, line ≠ [] ∧ line.length ≤ size - 1 ∧ 10 ∉ line.dropLast)
    (ends : ∀ line ∈ front, line.getLast? = some 10) (lined : Lined size back) :
    Lined size (front ++ back) := by
  refine ⟨fun line member => ?_, fun line member => ?_⟩
  · rcases List.mem_append.mp member with member | member
    · exact proper line member
    · exact lined.proper line member
  · cases back with
    | nil =>
        rw [List.append_nil] at member
        exact ends line ((List.dropLast_sublist _).subset member)
    | cons second back =>
        rw [List.dropLast_append_of_ne_nil (List.cons_ne_nil _ _)] at member
        rcases List.mem_append.mp member with member | member
        · exact ends line member
        · exact lined.ends line member

theorem Lined.of_append {size : Nat} {front back : List (List UInt8)}
    (lined : Lined size (front ++ back)) : Lined size back := by
  refine ⟨fun line member => lined.proper line (List.mem_append_right _ member),
    fun line member => lined.ends line ?_⟩
  cases back with
  | nil => exact absurd member List.not_mem_nil
  | cons second back =>
      rw [List.dropLast_append_of_ne_nil (List.cons_ne_nil _ _)]
      exact List.mem_append_right _ member

/-- Lines in front of another line end. -/
theorem Lined.ends_front {size : Nat} {front back : List (List UInt8)}
    (lined : Lined size (front ++ back)) (more : back ≠ []) :
    ∀ line ∈ front, line.getLast? = some 10 := by
  intro line member
  refine lined.ends line ?_
  rw [List.dropLast_append_of_ne_nil more]
  exact List.mem_append_left _ member

/-- All lines end where the file does. -/
theorem Lined.ends_all {size : Nat} {ls : List (List UInt8)} (lined : Lined size ls)
    (ended : ls.flatten = [] ∨ ls.flatten.getLast? = some 10) :
    ∀ line ∈ ls, line.getLast? = some 10 := by
  rcases List.eq_nil_or_concat' ls with rfl | ⟨front, last, rfl⟩
  · exact nofun
  · obtain ⟨some_line, -⟩ := lined.proper last (by simp)
    have whole : last.getLast? = some 10 := by
      rcases ended with empty | ended
      · exact absurd (List.append_eq_nil_iff.mp (List.flatten_concat ▸ empty)).2 some_line
      · rw [List.flatten_concat, List.getLast?_append_of_ne_nil _ some_line] at ended
        exact ended
    intro line member
    rcases List.mem_append.mp member with member | member
    · exact lined.ends_front (List.cons_ne_nil _ _) line member
    · rw [List.mem_singleton.mp member, whole]

/-- Such lines are read as they are. -/
theorem lines_of_lined {size : Nat} {ls : List (List UInt8)} (lined : Lined size ls) :
    lines size ls.flatten = ls := by
  suffices all : ∀ calls, ls.flatten.length ≤ calls →
      linesFrom (size - 1) calls ls.flatten = ls from
    all _ le_rfl
  obtain ⟨proper, ends⟩ := lined
  induction ls with
  | nil =>
      intro calls _
      cases calls <;> rfl
  | cons line ls ih =>
      intro calls enough
      obtain ⟨⟨some_line, short, inside⟩, proper⟩ := List.forall_mem_cons.mp proper
      have read : fgets (size - 1) (line ++ ls.flatten) = (line, ls.flatten) := by
        refine fgets_whole short inside ?_
        cases ls with
        | nil => exact Or.inr rfl
        | cons second ls =>
            exact Or.inl (ends line (by simp))
      have later := ih proper fun other member => ends other (by
        cases ls with
        | nil => exact absurd member List.not_mem_nil
        | cons second ls =>
            rw [List.dropLast_cons_of_ne_nil (List.cons_ne_nil _ _)]
            exact List.mem_cons_of_mem _ member)
      rw [List.flatten_cons] at enough ⊢
      have positive := List.length_pos_iff.mpr some_line
      rw [List.length_append] at enough
      obtain ⟨calls, rfl⟩ : ∃ more, calls = more + 1 := ⟨calls - 1, by omega⟩
      obtain ⟨byte, rest, shape⟩ := List.exists_cons_of_ne_nil some_line
      rw [shape, List.cons_append, linesFrom_cons, ← List.cons_append, ← shape, read,
        later calls (by omega)]

end RedshiftOdbc.CText

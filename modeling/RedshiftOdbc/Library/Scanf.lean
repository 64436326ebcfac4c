import RedshiftOdbc.Library.Words
import Mathlib.Data.List.Induction
import Mathlib.Data.List.TakeWhile

/-!
# Reading numbers from text

The part of the C library's text input that reads decimal numbers: `sscanf` with
the directives of fixed formats, and `strtol` with its two relatives.  A field
width bounds the characters of a number, a run of digits ends at the first
character that is none, and reading stops at the first directive that does not
match.
-/

namespace RedshiftOdbc.Scanf

open RedshiftOdbc.Words

/-- `isspace`. -/
def isSpace (character : Char) : Bool :=
  character ∈ [' ', '\t', '\n', '\x0b', '\x0c', '\r']

def skipSpace (input : List Char) : List Char := input.dropWhile isSpace

/-- The longest run of at most `width` digits, and what follows it. -/
def spanDigits : Nat → List Char → List Char × List Char
  | width + 1, character :: rest =>
      if character.isDigit then
        (character :: (spanDigits width rest).1, (spanDigits width rest).2)
      else ([], character :: rest)
  | _, input => ([], input)

/-- The number a run of digits reads as. -/
def decimal (digits : List Char) : Nat :=
  digits.foldl (fun value digit => 10 * value + (digit.toNat - '0'.toNat)) 0

/-- A sign, when there is one, and the width and the text behind it. -/
def scanSign (width : Nat) (input : List Char) : Bool × Nat × List Char :=
  match input with
  | '-' :: rest => (true, width - 1, rest)
  | '+' :: rest => (false, width - 1, rest)
  | _ => (false, width, input)

/-- `%d` with a field width. -/
def scanInt (width : Nat) (input : List Char) : Option (Int × List Char) :=
  let (negative, left, unsigned) := scanSign width (skipSpace input)
  let (digits, rest) := spanDigits left unsigned
  if digits = [] then none
  else some (if negative then -(decimal digits : Int) else decimal digits, rest)

/-- `%s`. -/
def scanWord (input : List Char) : Option (List Char × List Char) :=
  let word := (skipSpace input).takeWhile fun character => !isSpace character
  if word = [] then none
  else some (word, (skipSpace input).dropWhile fun character => !isSpace character)

inductive Directive where
  | int (width : Nat)
  | word
  | literal (character : Char)
  | space
  deriving DecidableEq, Repr

/-- The conversions that were made, in their order. -/
structure Scanned where
  ints : List Int
  words : List (List Char)
  deriving DecidableEq, Repr

def sscanf : List Directive → List Char → Scanned
  | [], _ => ⟨[], []⟩
  | .int width :: format, input =>
      match scanInt width input with
      | none => ⟨[], []⟩
      | some (value, rest) =>
          { sscanf format rest with ints := value :: (sscanf format rest).ints }
  | .word :: format, input =>
      match scanWord input with
      | none => ⟨[], []⟩
      | some (word, rest) =>
          { sscanf format rest with words := word :: (sscanf format rest).words }
  | .literal character :: format, input =>
      match input with
      | first :: rest => if first = character then sscanf format rest else ⟨[], []⟩
      | [] => ⟨[], []⟩
  | .space :: format, input => sscanf format (skipSpace input)

/-- `strtol` in base ten for a 64-bit `long`: out of range it gives the nearest limit. -/
def strtol (input : List Char) : Int :=
  match scanInt input.length input with
  | none => 0
  | some (value, _) => max (-(2 ^ 63)) (min (2 ^ 63 - 1) value)

/-- `atoi`, the `long` cut down to an `int`. -/
def atoi (input : List Char) : Int := wrap 4 (strtol input)

/-! ## Digits -/

def digitText (digits : List (Fin 10)) : List Char :=
  digits.map fun digit : Fin 10 => Nat.digitChar digit

/-- The text goes on, if at all, with something that is no digit. -/
def EndsNumber (rest : List Char) : Prop := ∀ character ∈ rest.head?, character.isDigit = false

theorem isDigit_digitChar (digit : Fin 10) : (Nat.digitChar digit).isDigit = true := by
  revert digit
  decide

theorem digitChar_value (digit : Fin 10) : (Nat.digitChar digit).toNat - '0'.toNat = digit := by
  revert digit
  decide

theorem digitChar_plain (digit : Fin 10) : isSpace (Nat.digitChar digit) = false ∧
    Nat.digitChar digit ≠ '-' ∧ Nat.digitChar digit ≠ '+' := by
  revert digit
  decide

@[simp]
theorem digitText_length (digits : List (Fin 10)) : (digitText digits).length = digits.length := by
  simp [digitText]

@[simp]
theorem digitText_nil : digitText [] = [] := rfl

@[simp]
theorem digitText_cons (digit : Fin 10) (digits : List (Fin 10)) :
    digitText (digit :: digits) = Nat.digitChar digit :: digitText digits := rfl

theorem digitText_append (digits more : List (Fin 10)) :
    digitText (digits ++ more) = digitText digits ++ digitText more := by
  simp [digitText]

/-- A run of digits is read whole when the width or what follows ends it. -/
theorem spanDigits_digitText {width : Nat} {digits : List (Fin 10)} {rest : List Char}
    (fits : digits.length ≤ width) (ends : digits.length = width ∨ EndsNumber rest) :
    spanDigits width (digitText digits ++ rest) = (digitText digits, rest) := by
  induction digits generalizing width with
  | nil =>
      cases width with
      | zero => simp [spanDigits]
      | succ width =>
          have stops : EndsNumber rest := by
            rcases ends with full | stops
            · cases full
            · exact stops
          cases rest with
          | nil => rfl
          | cons character rest =>
              have none : character.isDigit = false := stops character rfl
              simp [spanDigits, none]
  | cons digit digits ih =>
      cases width with
      | zero => simp at fits
      | succ width =>
          rw [List.length_cons] at fits ends
          have tail := ih (show digits.length ≤ width by omega) (ends.imp (by omega) id)
          rw [digitText_cons, List.cons_append, spanDigits, if_pos (isDigit_digitChar digit), tail]

theorem decimal_append (digits : List Char) (last : Char) :
    decimal (digits ++ [last]) = 10 * decimal digits + (last.toNat - '0'.toNat) := by
  simp [decimal]

def ofDigits (digits : List (Fin 10)) : Nat :=
  digits.foldl (fun (value : Nat) (digit : Fin 10) => 10 * value + digit) 0

theorem decimal_digitText (digits : List (Fin 10)) :
    decimal (digitText digits) = ofDigits digits := by
  rw [decimal, ofDigits, digitText, List.foldl_map]
  simp only [digitChar_value]

theorem skipSpace_of_head {character : Char} {rest : List Char}
    (plain : isSpace character = false) : skipSpace (character :: rest) = character :: rest := by
  simp [skipSpace, plain]

/-- `%d` reads a run of digits. -/
theorem scanInt_digitText {width : Nat} {digits : List (Fin 10)} {rest : List Char}
    (some_digit : digits ≠ []) (fits : digits.length ≤ width)
    (ends : digits.length = width ∨ EndsNumber rest) :
    scanInt width (digitText digits ++ rest) = some ((ofDigits digits : Int), rest) := by
  obtain ⟨digit, more, rfl⟩ := List.exists_cons_of_ne_nil some_digit
  obtain ⟨plain, noMinus, noPlus⟩ := digitChar_plain digit
  have skip : skipSpace (digitText (digit :: more) ++ rest) = digitText (digit :: more) ++ rest :=
    skipSpace_of_head plain
  have sign : scanSign width (digitText (digit :: more) ++ rest) =
      (false, width, digitText (digit :: more) ++ rest) := by
    rw [digitText_cons, List.cons_append, scanSign]
    · intro input same
      exact noMinus (List.cons.inj same).1
    · intro input same
      exact noPlus (List.cons.inj same).1
  rw [scanInt, skip, sign]
  simp only [spanDigits_digitText fits ends, decimal_digitText]
  rw [if_neg (by simp)]
  rfl

theorem skipSpace_suffix (input : List Char) : skipSpace input <:+ input :=
  List.dropWhile_suffix _

theorem spanDigits_suffix (width : Nat) (input : List Char) :
    (spanDigits width input).2 <:+ input := by
  induction input generalizing width with
  | nil => cases width <;> exact List.suffix_refl _
  | cons character rest ih =>
      cases width with
      | zero => exact List.suffix_refl _
      | succ width =>
          rw [spanDigits]
          split
          · exact (ih width).trans (List.suffix_cons _ _)
          · exact List.suffix_refl _

theorem scanSign_suffix (width : Nat) (input : List Char) :
    (scanSign width input).2.2 <:+ input := by
  rw [scanSign.eq_def]
  split
  · exact List.suffix_cons _ _
  · exact List.suffix_cons _ _
  · exact List.suffix_refl _

theorem scanInt_suffix {width : Nat} {input rest : List Char} {value : Int}
    (read : scanInt width input = some (value, rest)) : rest <:+ input := by
  have sign := scanSign_suffix width (skipSpace input)
  rw [scanInt] at read
  generalize scanSign width (skipSpace input) = signed at read sign
  obtain ⟨negative, left, unsigned⟩ := signed
  have digits := spanDigits_suffix left unsigned
  dsimp only at read sign
  split at read
  · cases read
  · obtain rfl := (Prod.mk.inj (Option.some.inj read)).2
    exact digits.trans (sign.trans (skipSpace_suffix input))

theorem scanWord_subset {input word rest : List Char}
    (read : scanWord input = some (word, rest)) : word ⊆ input ∧ rest ⊆ input := by
  rw [scanWord] at read
  split at read
  · cases read
  · obtain ⟨rfl, rfl⟩ := Prod.mk.inj (Option.some.inj read)
    have skip := (skipSpace_suffix input).subset
    exact ⟨List.Subset.trans (List.takeWhile_prefix _).subset skip,
      List.Subset.trans (List.dropWhile_suffix _).subset skip⟩

/-- A word consists of characters of the text. -/
theorem sscanf_words_subset {format : List Directive} {input word : List Char}
    (member : word ∈ (sscanf format input).words) : word ⊆ input := by
  induction format generalizing input with
  | nil => cases member
  | cons directive format ih =>
      cases directive with
      | int width =>
          rw [sscanf] at member
          cases read : scanInt width input with
          | none =>
              rw [read] at member
              cases member
          | some result =>
              rw [read] at member
              exact List.Subset.trans (ih member) (scanInt_suffix read).subset
      | word =>
          rw [sscanf] at member
          cases read : scanWord input with
          | none =>
              rw [read] at member
              cases member
          | some result =>
              rw [read] at member
              obtain ⟨inWord, inRest⟩ := scanWord_subset read
              rcases List.mem_cons.mp member with here | later
              · exact here ▸ inWord
              · exact List.Subset.trans (ih later) inRest
      | literal character =>
          cases input with
          | nil => cases member
          | cons first rest =>
              rw [sscanf] at member
              split at member
              · exact List.Subset.trans (ih member) (List.subset_cons_self _ _)
              · cases member
      | space => exact List.Subset.trans (ih member) (skipSpace_suffix input).subset

/-! ## Reading what a format describes -/

@[simp]
theorem sscanf_literal (character : Char) (format : List Directive) (rest : List Char) :
    sscanf (.literal character :: format) (character :: rest) = sscanf format rest := by
  simp [sscanf]

theorem sscanf_space (format : List Directive) {character : Char} {rest : List Char}
    (plain : isSpace character = false) :
    sscanf (.space :: format) (' ' :: character :: rest) = sscanf format (character :: rest) := by
  have skip : skipSpace (' ' :: character :: rest) = character :: rest := by
    have space : isSpace ' ' = true := by decide
    simp [skipSpace, space, plain]
  rw [sscanf, skip]

theorem ofDigits_append (digits more : List (Fin 10)) :
    ofDigits (digits ++ more) = ofDigits digits * 10 ^ more.length + ofDigits more := by
  induction more using List.reverseRecOn with
  | nil => simp [ofDigits]
  | append_singleton more last ih =>
      have split : ∀ (left : List (Fin 10)), ofDigits (left ++ [last]) =
          10 * ofDigits left + last := by
        intro left
        simp [ofDigits]
      rw [← List.append_assoc, split, split, ih, List.length_append, Nat.pow_add]
      simp only [List.length_singleton, Nat.pow_one]
      ring

theorem ofDigits_lt (digits : List (Fin 10)) : ofDigits digits < 10 ^ digits.length := by
  induction digits using List.reverseRecOn with
  | nil => simp [ofDigits]
  | append_singleton digits last ih =>
      rw [ofDigits_append, List.length_append, Nat.pow_add]
      have small := last.isLt
      simp only [List.length_singleton, Nat.pow_one, ofDigits, List.foldl_cons,
        List.foldl_nil] at ih ⊢
      omega

/-! ## Digits that were found -/

theorem exists_digit {character : Char} (isDigit : character.isDigit = true) :
    ∃ digit : Fin 10, character = Nat.digitChar digit := by
  have range : 48 ≤ character.toNat ∧ character.toNat ≤ 57 := by
    simpa [Char.isDigit, UInt32.le_iff_toNat_le] using isDigit
  refine ⟨⟨character.toNat - 48, by omega⟩, Char.toNat_inj.mp ?_⟩
  have value := digitChar_value ⟨character.toNat - 48, by omega⟩
  have isDigit' := isDigit_digitChar ⟨character.toNat - 48, by omega⟩
  have range' : 48 ≤ (Nat.digitChar (character.toNat - 48)).toNat := by
    have both : 48 ≤ (Nat.digitChar (character.toNat - 48)).toNat ∧
        (Nat.digitChar (character.toNat - 48)).toNat ≤ 57 := by
      simpa [Char.isDigit, UInt32.le_iff_toNat_le] using isDigit'
    exact both.1
  have zero : '0'.toNat = 48 := rfl
  simp only [zero] at value ⊢
  omega

/-- Characters that are digits are the text of some. -/
theorem exists_digitText {digits : List Char}
    (characters : ∀ character ∈ digits, character.isDigit = true) :
    ∃ values, digits = digitText values := by
  induction digits with
  | nil => exact ⟨[], rfl⟩
  | cons character digits ih =>
      obtain ⟨digit, here⟩ := exists_digit (characters character List.mem_cons_self)
      obtain ⟨values, later⟩ := ih fun character member =>
        characters character (List.mem_cons_of_mem _ member)
      exact ⟨digit :: values, by rw [here, later, digitText_cons]⟩

/-- `%d` reads digits up to a character that is none. -/
theorem scanInt_digits {width : Nat} {digits rest : List Char} (some_digit : digits ≠ [])
    (characters : ∀ character ∈ digits, character.isDigit = true) (fits : digits.length ≤ width)
    (ends : digits.length = width ∨ EndsNumber rest) :
    scanInt width (digits ++ rest) = some ((decimal digits : Int), rest) := by
  obtain ⟨values, rfl⟩ := exists_digitText characters
  rw [decimal_digitText]
  refine scanInt_digitText ?_ (by simpa using fits) (by simpa using ends)
  rintro rfl
  exact some_digit rfl

end RedshiftOdbc.Scanf

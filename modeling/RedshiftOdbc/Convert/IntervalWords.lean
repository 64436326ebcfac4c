import RedshiftOdbc.Convert.TemporalText
import Mathlib.Data.List.Infix

/-!
# Finding the numbers of an interval

The texts of intervals are words with a blank between them.  `strstr` finds a unit
in the first word that contains it, and walking back from there finds the word in
front of it, which is read as a number.
-/

namespace RedshiftOdbc.Convert

open RedshiftOdbc.Scanf RedshiftOdbc.Words RedshiftOdbc.Printf

/-- Words with a blank between them. -/
def spaced : List (List Char) → List Char
  | [] => []
  | [word] => word
  | word :: rest => word ++ ' ' :: spaced rest

/-- Words with a blank behind each. -/
def leading (words : List (List Char)) : List Char := words.flatMap fun word => word ++ [' ']

theorem leading_append (left right : List (List Char)) :
    leading (left ++ right) = leading left ++ leading right := by
  simp [leading]

theorem spaced_append (left : List (List Char)) {right : List (List Char)} (more : right ≠ []) :
    spaced (left ++ right) = leading left ++ spaced right := by
  induction left with
  | nil => rfl
  | cons word left ih =>
      have next : left ++ right ≠ [] := by simp [more]
      obtain ⟨second, rest, same⟩ := List.exists_cons_of_ne_nil next
      rw [same] at ih
      rw [List.cons_append, same, spaced, ih]
      · simp [leading]
      · intro none
        cases none

/-! ## Searching -/

/-- A text that begins with the needle. -/
theorem strstr_here {needle text : List Char} (found : needle <+: text) (some_character : text ≠ [])
    (position : Nat) : strstr needle text position = some position := by
  obtain ⟨character, rest, rfl⟩ := List.exists_cons_of_ne_nil some_character
  rw [strstr, if_pos (List.isPrefixOf_iff_prefix.mpr found)]

theorem not_prefix_word {needle word : List Char} (blank : ' ' ∉ needle)
    (absent : ¬ needle <:+: word) (rest : List Char) : ¬ needle <+: word ++ ' ' :: rest := by
  intro found
  rcases Nat.le_total needle.length word.length with short | long
  · exact absent (List.prefix_of_prefix_length_le found (List.prefix_append _ _) short).isInfix
  · obtain ⟨behind, rfl⟩ := List.prefix_of_prefix_length_le (List.prefix_append _ _) found long
    rw [List.prefix_append_right_inj] at found
    cases behind with
    | nil => exact absent (by simp)
    | cons character behind =>
        obtain ⟨tail, same⟩ := found
        exact blank (by simp [(List.cons.inj same).1])

/-- A word that does not contain the needle is skipped together with the blank behind it. -/
theorem strstr_word {needle word : List Char} (blank : ' ' ∉ needle) (absent : ¬ needle <:+: word)
    (rest : List Char) (position : Nat) :
    strstr needle (word ++ ' ' :: rest) position =
      strstr needle rest (position + word.length + 1) := by
  have start := not_prefix_word blank absent rest
  induction word generalizing position with
  | nil =>
      rw [List.nil_append] at start ⊢
      rw [strstr, if_neg (mt List.isPrefixOf_iff_prefix.mp start)]
      rfl
  | cons character word ih =>
      have absent' : ¬ needle <:+: word := fun inside =>
        absent (inside.trans (List.suffix_cons _ _).isInfix)
      rw [List.cons_append] at start ⊢
      rw [strstr, if_neg (mt List.isPrefixOf_iff_prefix.mp start),
        ih absent' _ (not_prefix_word blank absent' rest), List.length_cons]
      congr 1
      omega

theorem strstr_absent {needle text : List Char} (absent : ¬ needle <:+: text) (position : Nat) :
    strstr needle text position = none := by
  induction text generalizing position with
  | nil => rfl
  | cons character text ih =>
      rw [strstr, if_neg, ih]
      · exact fun inside => absent (inside.trans (List.suffix_cons _ _).isInfix)
      · exact fun here => absent (List.isPrefixOf_iff_prefix.mp here).isInfix

/-- Words that do not contain the needle are skipped. -/
theorem strstr_leading {needle : List Char} {words : List (List Char)} (blank : ' ' ∉ needle)
    (absent : ∀ word ∈ words, ¬ needle <:+: word) (rest : List Char) (position : Nat) :
    strstr needle (leading words ++ rest) position =
      strstr needle rest (position + (leading words).length) := by
  induction words generalizing position with
  | nil => rfl
  | cons word words ih =>
      have here := absent word List.mem_cons_self
      have same : leading (word :: words) ++ rest = word ++ ' ' :: (leading words ++ rest) := by
        simp [leading]
      rw [same, strstr_word blank here,
        ih fun later member => absent later (List.mem_cons_of_mem _ member)]
      congr 1
      simp only [leading, List.flatMap_cons, List.length_append, List.length_singleton]
      omega

/-- Where a unit is found: behind the words in front of it that do not contain the needle. -/
theorem strstr_unit {needle unit : List Char} {words : List (List Char)} (blank : ' ' ∉ needle)
    (absent : ∀ word ∈ words, ¬ needle <:+: word) (found : needle <+: unit)
    (some_character : unit ≠ []) (rest : List (List Char)) (position : Nat) :
    strstr needle (spaced (words ++ unit :: rest)) position =
      some (position + (leading words).length) := by
  rw [spaced_append words (List.cons_ne_nil _ _), strstr_leading blank absent]
  cases rest with
  | nil => exact strstr_here found some_character _
  | cons second rest =>
      exact strstr_here (found.trans (List.prefix_append _ _)) (by simp) _

/-- A needle that no word contains is not found. -/
theorem strstr_missing {needle : List Char} {words : List (List Char)} (blank : ' ' ∉ needle)
    (absent : ∀ word ∈ words, ¬ needle <:+: word) (position : Nat) :
    strstr needle (spaced words) position = none := by
  cases words using List.reverseRecOn with
  | nil => rfl
  | append_singleton words last =>
      rw [spaced_append words (List.cons_ne_nil _ _), strstr_leading blank fun word member =>
        absent word (List.mem_append_left _ member)]
      exact strstr_absent (absent last (by simp)) _

/-- Walking back from behind a number and a blank finds the number. -/
theorem numberBefore_word (front : Char) {inNumber : Char → Bool} (blank : inNumber ' ' = false)
    {number : List Char} (characters : ∀ character ∈ number, inNumber character = true)
    (words : List (List Char)) (rest : List Char) :
    numberBefore front (leading words ++ (number ++ ' ' :: rest)) inNumber
      ((leading words).length + (number.length + 1)) = number ++ ' ' :: rest := by
  have head : (leading words ++ (number ++ ' ' :: rest)).take
      ((leading words).length + (number.length + 1) - 1) = leading words ++ number := by
    rw [← List.append_assoc, ← Nat.add_assoc, Nat.add_sub_cancel, ← List.length_append,
      List.take_left]
  have stops : (leading words).reverse.takeWhile inNumber = [] := by
    cases words using List.reverseRecOn with
    | nil => rfl
    | append_singleton words last => simp [leading, blank]
  have walked : ((leading words ++ number).reverse.takeWhile inNumber).length =
      number.length := by
    rw [List.reverse_append, List.takeWhile_append_of_pos (by simpa using characters), stops]
    simp
  rw [numberBefore, if_neg (by omega), head]
  dsimp only
  rw [walked, List.length_append, Nat.add_sub_cancel, List.drop_left]

/-! ## Numbers -/

theorem printInt_inNumber {value : Int} : ∀ character ∈ printInt false 0 value,
    isDigitOrMinus character = true := by
  intro character member
  rw [isDigitOrMinus, Bool.or_eq_true, beq_iff_eq]
  by_cases negative : value < 0
  · rw [printInt_sign (Or.inr negative), if_pos negative] at member
    rcases List.mem_cons.mp member with rfl | digit
    · exact Or.inr rfl
    · exact Or.inl ((printInt_digits _ (abs_nonneg value)).1 character digit)
  · exact Or.inl ((printInt_digits _ (Int.not_lt.mp negative)).1 character member)

/-- A needle with a character that is neither a digit nor a minus is in no number. -/
theorem printInt_absent {needle : List Char} (letter : ∃ character ∈ needle,
    isDigitOrMinus character = false) (value : Int) : ¬ needle <:+: printInt false 0 value := by
  obtain ⟨character, member, other⟩ := letter
  intro inside
  rw [printInt_inNumber character (inside.subset member)] at other
  cases other

/-- A field that was read, within the range of an `int`. -/
theorem intField_eq {scanned : Scanned} {index : Nat} {value : Int} (before : Int)
    (read : scanned.ints[index]? = some value) (low : -2147483648 ≤ value)
    (high : value ≤ 2147483647) : intField scanned index before = value := by
  rw [intField, read, Option.map_some, Option.getD_some, min_eq_right (by norm_num; omega),
    max_eq_right (by norm_num; omega)]
  exact wrap_of_range (by norm_num; omega) (by norm_num; omega)

theorem spaced_cons (word : List Char) {rest : List (List Char)} (more : rest ≠ []) :
    spaced (word :: rest) = word ++ ' ' :: spaced rest := by
  obtain ⟨second, rest, rfl⟩ := List.exists_cons_of_ne_nil more
  rfl

/-- Behind the words on the left there are those on the right. -/
theorem drop_leading (left : List (List Char)) {right : List (List Char)} (more : right ≠ []) :
    (spaced (left ++ right)).drop (leading left).length = spaced right := by
  rw [spaced_append left more, List.drop_left]

/-- The text from a number on, when the search stands on the unit behind it. -/
theorem numberBefore_unit (front : Char) {inNumber : Char → Bool} (blank : inNumber ' ' = false)
    {number : List Char} (characters : ∀ character ∈ number, inNumber character = true)
    (words : List (List Char)) (unit : List Char) (rest : List (List Char)) :
    numberBefore front (spaced (words ++ number :: unit :: rest)) inNumber
      (leading (words ++ [number])).length = number ++ ' ' :: spaced (unit :: rest) := by
  have length : (leading (words ++ [number])).length =
      (leading words).length + (number.length + 1) := by
    simp [leading]
  rw [spaced_append words (List.cons_ne_nil _ _), spaced_cons number (List.cons_ne_nil _ _),
    length]
  exact numberBefore_word front blank characters words _

/-- The number in front of a unit is read. -/
theorem searchField_found (front : Char) {name unit : List Char} (value : Int)
    (left mid rest : List (List Char)) (blank : ' ' ∉ name)
    (letter : ∃ character ∈ name, isDigitOrMinus character = false)
    (absent : ∀ word ∈ mid, ¬ name <:+: word) (found : name <+: unit)
    (low : -2147483648 ≤ value) (high : value ≤ 2147483647) :
    searchField front (spaced (left ++ (mid ++ printInt false 0 value :: unit :: rest))) name
        (leading left).length =
      (value, (leading (left ++ (mid ++ [printInt false 0 value]))).length) := by
  have some_character : unit ≠ [] := by
    obtain ⟨character, member, -⟩ := letter
    exact List.ne_nil_of_mem (found.subset member)
  have here : strstr name ((spaced (left ++ (mid ++ printInt false 0 value :: unit :: rest))).drop
      (leading left).length) (leading left).length =
        some (leading (left ++ (mid ++ [printInt false 0 value]))).length := by
    have words : mid ++ printInt false 0 value :: unit :: rest =
        (mid ++ [printInt false 0 value]) ++ unit :: rest := by simp
    rw [drop_leading left (by simp), words, strstr_unit blank ?_ found some_character,
      leading_append left, List.length_append]
    intro word member
    rcases List.mem_append.mp member with inside | number
    · exact absent word inside
    · rw [List.mem_singleton.mp number]
      exact printInt_absent letter value
  have number : numberBefore front
      (spaced (left ++ (mid ++ printInt false 0 value :: unit :: rest))) isDigitOrMinus
      (leading (left ++ (mid ++ [printInt false 0 value]))).length =
        printInt false 0 value ++ ' ' :: spaced (unit :: rest) := by
    rw [← List.append_assoc, ← List.append_assoc]
    exact numberBefore_unit front (by decide) printInt_inNumber (left ++ mid) unit rest
  have fits : (printInt false 0 value).length ≤
      (spaced (left ++ (mid ++ printInt false 0 value :: unit :: rest))).length + 1 := by
    rw [← List.append_assoc, spaced_append _ (List.cons_ne_nil _ _),
      spaced_cons _ (List.cons_ne_nil _ _), List.length_append, List.length_append]
    omega
  have ends : EndsNumber (' ' :: spaced (unit :: rest)) := by
    rintro character ⟨⟩
    rfl
  rw [searchField, here]
  dsimp only
  rw [number]
  simp only [sscanf, scanInt_printInt _ _ _ _ fits ends]
  rw [intField_eq 0 rfl low high]

/-- A unit that is missing leaves the search where it is. -/
theorem searchField_missing (front : Char) {name : List Char} (left right : List (List Char))
    (more : right ≠ []) (blank : ' ' ∉ name) (absent : ∀ word ∈ right, ¬ name <:+: word) :
    searchField front (spaced (left ++ right)) name (leading left).length =
      (0, (leading left).length) := by
  rw [searchField, drop_leading left more, strstr_missing blank absent]

end RedshiftOdbc.Convert

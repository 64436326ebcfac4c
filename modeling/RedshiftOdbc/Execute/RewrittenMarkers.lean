import RedshiftOdbc.Execute.BatchPlan
import RedshiftOdbc.Execute.Rewriting

/-!
# Counting the markers of a rewritten INSERT

The driver counts the markers of the command it has written.  Where no character
of the user's text up to the tuple's end, or in front of a question mark, is taken
differently by the counting, the same holds of the text with its tuple repeated,
for every tuple begins and ends outside of all contexts.
-/

namespace RedshiftOdbc.Execute

open RedshiftOdbc.Words RedshiftOdbc.Escape

/-! ## Tidy pieces -/

/-- No character of a piece behind a context and a character is taken differently. -/
def TidyFrom (backslash : Bool) : Context → Option Char → List Char → Prop
  | _, _, [] => True
  | context, before, character :: rest =>
      ¬ Foreign context before character ∧
        TidyFrom backslash (context.next backslash character) (some character) rest

/-- The character in front of what follows a piece. -/
def lastOf (before : Option Char) (text : List Char) : Option Char := text.getLast?.or before

variable {backslash : Bool}

theorem tidyFrom_append {context : Context} {before : Option Char} {first second : List Char} :
    TidyFrom backslash context before (first ++ second) ↔
      TidyFrom backslash context before first ∧
        TidyFrom backslash (contextBehind backslash context first) (lastOf before first) second := by
  induction first generalizing context before with
  | nil => simp [TidyFrom, contextBehind, lastOf]
  | cons character rest ih =>
      have last : lastOf before (character :: rest) = lastOf (some character) rest := by
        rw [lastOf, lastOf, List.getLast?_cons]
        cases rest.getLast? <;> rfl
      rw [List.cons_append, TidyFrom, ih, TidyFrom, last, and_assoc]
      rfl

theorem previous_eq (text : List Char) {place : Nat} (inside : place ≤ text.length) :
    previous text place = lastOf none (text.take place) := by
  rw [previous, lastOf, Option.or_none, List.getLast?_take]
  split
  · rfl
  · rw [List.getElem?_eq_getElem (by omega)]
    rfl

/-- A text is tidy in front of a place when the piece up to it is. -/
theorem tidyBefore_iff {text : List Char} {place : Nat} (inside : place ≤ text.length) :
    TidyBefore backslash text place ↔ TidyFrom backslash .plain none (text.take place) := by
  induction place with
  | zero => simp [TidyBefore, TidyFrom]
  | succ place ih =>
      have here : text[place]? = some text[place] := List.getElem?_eq_getElem inside
      have split : TidyBefore backslash text (place + 1) ↔ TidyBefore backslash text place ∧
          ¬ Foreign (contextAt backslash text place) (previous text place) text[place] := by
        constructor
        · exact fun tidy => ⟨fun earlier before => tidy earlier (by omega),
            tidy place (by omega) _ here⟩
        · rintro ⟨front, last⟩ earlier before character member
          rcases Nat.lt_succ_iff_lt_or_eq.mp before with less | rfl
          · exact front earlier less character member
          · rw [Option.mem_def, here] at member
            exact Option.some.inj member ▸ last
      rw [split, ih (by omega), List.take_add_one, here, Option.toList_some, tidyFrom_append,
        previous_eq text (by omega)]
      simp only [TidyFrom, and_true]
      rfl

/-! ## The tuples -/

theorem not_foreign_outside {context : Context} (outside : context.outside) {character : Char}
    (other : character = '(' ∨ character = ')' ∨ character = ',') (before : Option Char) :
    ¬ Foreign context before character := by
  rcases other with rfl | rfl | rfl <;> cases context <;> simp [Foreign] <;> cases outside

/-- Every tuple is read as the first one. -/
theorem joined_tidy {inner : List Char} (ends : contextBehind backslash .plain inner = .plain)
    (tidy : TidyFrom backslash .plain (some '(') inner) {context : Context}
    (outside : context.outside) (before : Option Char) (count : Nat) :
    TidyFrom backslash context before (joined ('(' :: inner) (count + 1)) := by
  have one : ∀ {context : Context} (before : Option Char), context.outside →
      TidyFrom backslash context before ('(' :: inner) := by
    intro context before outside
    refine ⟨not_foreign_outside outside (Or.inl rfl) before, ?_⟩
    rw [next_of_outside backslash outside (Or.inl rfl)]
    exact tidy
  induction count generalizing context before with
  | zero =>
      rw [joined_one]
      exact one before outside
  | succ count ih =>
      have first : contextBehind backslash context ('(' :: inner) = .plain := by
        rw [contextBehind, List.foldl_cons, next_of_outside backslash outside (Or.inl rfl)]
        exact ends
      rw [joined_succ_succ, List.append_assoc, tidyFrom_append, first]
      refine ⟨one before outside, not_foreign_outside rfl (Or.inr (Or.inr rfl)) _, ?_⟩
      exact ih rfl _

/-- The last character is that of the last tuple. -/
theorem lastOf_joined (before : Option Char) (opening : Char) (inner : List Char) (count : Nat) :
    lastOf before (joined (opening :: inner) (count + 1)) = lastOf before (opening :: inner) := by
  cases count with
  | zero => rw [joined_one]
  | succ count =>
      rw [joined_end, lastOf, lastOf, List.getLast?_append_of_ne_nil _ (List.cons_ne_nil _ _)]

namespace ValuesTuple

variable {text : List Char} {pLeftBracket pRightBracket : Nat}
  (tuple : ValuesTuple backslash text pLeftBracket pRightBracket)
include tuple

/-- The text up to the end of its tuples is tidy when the user's is. -/
theorem head_tidy (scanned : Scanned text pLeftBracket pRightBracket)
    (front : TidyBefore backslash text pRightBracket) (count : Nat) :
    TidyFrom backslash .plain none (text.take pLeftBracket ++
        joined (tupleOf text pLeftBracket pRightBracket) (count + 1)) ∧
      contextBehind backslash .plain (text.take pLeftBracket ++
        joined (tupleOf text pLeftBracket pRightBracket) (count + 1)) =
          contextBehind backslash .plain (text.take (pRightBracket + 1)) ∧
      lastOf none (text.take pLeftBracket ++
        joined (tupleOf text pLeftBracket pRightBracket) (count + 1)) =
          lastOf none (text.take (pRightBracket + 1)) := by
  obtain ⟨inside, closing⟩ := List.getElem?_eq_some_iff.mp scanned.closing
  obtain ⟨inner, cons, ends⟩ := tuple.tupleOf_cons scanned
  have whole := take_tupleOf text tuple.wide
  have tidy : TidyFrom backslash .plain none (text.take (pRightBracket + 1)) := by
    refine (tidyBefore_iff (by omega)).mp ?_
    intro earlier before character member
    rcases Nat.lt_succ_iff_lt_or_eq.mp before with less | rfl
    · exact front earlier less character member
    · rw [Option.mem_def, scanned.closing] at member
      cases member
      exact not_foreign_outside tuple.outside_right (Or.inr (Or.inl rfl)) _
  have opened := next_of_outside backslash tuple.outside_left (Or.inl rfl)
  rw [cons] at whole ⊢
  rw [← whole] at tidy ⊢
  obtain ⟨first, -, rest⟩ := tidyFrom_append.mp tidy
  rw [show contextBehind backslash .plain (text.take pLeftBracket) =
    contextAt backslash text pLeftBracket from rfl, opened] at rest
  refine ⟨tidyFrom_append.mpr ⟨first, joined_tidy ends rest tuple.outside_left _ count⟩, ?_, ?_⟩
  · rw [contextBehind_append, contextBehind_append, show contextBehind backslash .plain
      (text.take pLeftBracket) = contextAt backslash text pLeftBracket from rfl,
      (joined_markers ends tuple.outside_left count).2]
    rw [contextBehind, List.foldl_cons, opened]
    exact ends.symm
  · have same := lastOf_joined none '(' inner count
    rw [lastOf, Option.or_none, lastOf, Option.or_none] at same
    rw [lastOf, lastOf, List.getLast?_append, List.getLast?_append, same]

/-- The text with its tuple repeated is tidy when the user's is. -/
theorem repeated_tidy (scanned : Scanned text pLeftBracket pRightBracket)
    (tidy : Tidy backslash text) (front : TidyBefore backslash text pRightBracket) (count : Nat) :
    Tidy backslash (repeated text pLeftBracket pRightBracket (count + 1)) := by
  obtain ⟨inside, -⟩ := List.getElem?_eq_some_iff.mp scanned.closing
  obtain ⟨head, behind, last⟩ := tuple.head_tidy scanned front count
  rw [repeated_eq]
  generalize text.take pLeftBracket ++
    joined (tupleOf text pLeftBracket pRightBracket) (count + 1) = written at head behind last ⊢
  intro mark member
  rw [markers, Finset.mem_filter, Finset.mem_range] at member
  obtain ⟨less, here⟩ := member
  refine (tidyBefore_iff less.le).mpr ?_
  rcases Nat.le_total mark written.length with early | late
  · rw [List.take_append_of_le_length early]
    rw [← List.take_append_drop mark written, tidyFrom_append] at head
    exact head.1
  · -- A question mark behind the tuples stands behind the user's tuple.
    rw [List.getElem?_append_right late, List.getElem?_drop] at here
    have original : pRightBracket + 1 + (mark - written.length) ∈ markers text := by
      rw [markers, Finset.mem_filter, Finset.mem_range]
      exact ⟨(List.getElem?_eq_some_iff.mp here).1, here⟩
    have before := (tidyBefore_iff (List.getElem?_eq_some_iff.mp here).1.le).mp
      (tidy _ original)
    rw [List.take_add, tidyFrom_append] at before
    rw [List.take_append, List.take_of_length_le late, tidyFrom_append, behind, last]
    exact ⟨head, before.2⟩

end ValuesTuple

/-! ## The count -/

/-- All markers of a tidy text are counted, and no others. -/
theorem countParamMarkers_tidy {text : List Char} (noZero : '\x00' ∉ text)
    (short : text.length < 2 ^ 31) (tidy : Tidy backslash text) :
    countParamMarkers (some text) sqlNtsLen = (markersOutside backslash text).card := by
  have length : textLength text sqlNtsLen = text.length := by
    rw [textLength, if_pos (by decide), strlen, List.takeWhile_eq_self_iff.mpr]
    intro character member
    simpa using fun zero : character = '\x00' => noZero (zero ▸ member)
  have whole : statementText text sqlNtsLen = text := by
    rw [statementText, length, List.take_length]
  have reached : reach text sqlNtsLen = text.length := by
    rw [reach, length, wrap_of_range (by norm_num; omega) (by norm_num; omega), Int.toNat_natCast]
  have counted := @countParamMarkers_of_tidy backslash text sqlNtsLen (whole.symm ▸ tidy) (by
    intro mark member
    rw [whole, markers, Finset.mem_filter, Finset.mem_range] at member
    rw [reached]
    exact member.1)
  rwa [whole] at counted

/-! ## The commands -/

/-- The rewriting of a command for a number of rows. -/
def rewriting (iMultiInsertCmdConvertEnable : Bool) (text : List Char) (lArraySize : Nat) :
    Option MultiInsertCommand :=
  (parseForMultiInsertCommand iMultiInsertCmdConvertEnable false true lArraySize ⟨none, 0, 0, 0⟩
    text).1

/-- The markers of the text can be counted, and it is rewritten as it should be. -/
structure TextFits (backslash iMultiInsertCmdConvertEnable : Bool) (text : List Char)
    (lArraySize : Nat) : Prop where
  noZero : '\x00' ∉ text
  short : text.length < 2 ^ 31
  /-- The text begins with a word. -/
  word : (getNextWord text 0).1 ≠ (getNextWord text 0).2
  tidy : Tidy backslash text
  /-- A `long` holds the number of all parameters. -/
  small : (markersOutside backslash text).card * lArraySize < 2 ^ 63
  rewritable : ∀ command, rewriting iMultiInsertCmdConvertEnable text lArraySize = some command →
    Rewritable backslash text lArraySize ∧ TidyBefore backslash text command.pRightBracket

/-- Both commands are those that were meant, and the driver's count of the markers is right. -/
structure MultiInsertCommand.Right (backslash : Bool) (text : List Char) (lArraySize : Nat)
    (command : MultiInsertCommand) : Prop where
  marked : 0 < (markersOutside backslash text).card
  few : (markersOutside backslash text).card ≤ padbMaxParameters
  plan : getTotalMultiTuples (markersOutside backslash text).card lArraySize =
    (command.iMultiInsert, command.iLastBatchMultiInsert)
  all : FaithfulCommand backslash text command.pLeftBracket command.pRightBracket
    (markersOutside backslash text).card command.iMultiInsert command.pMultiInsertCmd
  counted : countParamMarkers (some command.pMultiInsertCmd.text) sqlNtsLen =
    command.iMultiInsert.toNat * (markersOutside backslash text).card
  last : 0 < command.iLastBatchMultiInsert → ∃ last,
    command.pLastBatchMultiInsertCmd = some last ∧
      FaithfulCommand backslash text command.pLeftBracket command.pRightBracket
        (markersOutside backslash text).card command.iLastBatchMultiInsert last

variable {text : List Char}

/-- A text is rewritten by the plan for its markers. -/
theorem multiInsert_plan {lArraySize : Int} {command : MultiInsertCommand}
    (rewritten : multiInsert text lArraySize = some command) :
    0 < countParamMarkers (some text) sqlNtsLen ∧
      countParamMarkers (some text) sqlNtsLen ≤ padbMaxParameters ∧
      getTotalMultiTuples (countParamMarkers (some text) sqlNtsLen) lArraySize =
        (command.iMultiInsert, command.iLastBatchMultiInsert) := by
  obtain ⟨pLeftBracket, pRightBracket, found, enough, copied⟩ := multiInsert_copied rewritten
  have scanned := scanned_of_findTuple found
  obtain ⟨inside, -⟩ := List.getElem?_eq_some_iff.mp scanned.closing
  have bounds : 0 < countParamMarkers (some text) sqlNtsLen ∧
      countParamMarkers (some text) sqlNtsLen ≤ padbMaxParameters := by
    unfold multiInsert at rewritten
    by_contra none
    dsimp only at rewritten
    rw [if_neg none] at rewritten
    cases rewritten
  refine ⟨bounds.1, bounds.2, ?_⟩
  generalize getTotalMultiTuples (countParamMarkers (some text) sqlNtsLen) lArraySize = tuples at *
  obtain ⟨count, lastCount⟩ := tuples
  rw [copyCommands_eq inside scanned.wide] at copied
  split_ifs at copied
  cases copied
  rfl

theorem parserArraySize_pos {lArraySize : Nat} (rows : 0 < lArraySize) :
    parserArraySize true lArraySize = lArraySize := by
  rw [parserArraySize, if_neg]
  simp only [Bool.true_eq_false, false_or]
  omega

/-- The brackets and the sizes a text is rewritten with. -/
theorem multiInsert_found {lArraySize : Int} {command : MultiInsertCommand}
    (rewritten : multiInsert text lArraySize = some command) :
    findTuple text = some (command.pLeftBracket, command.pRightBracket) ∧
      1 ≤ command.iMultiInsert ∧
      command.pLastBatchMultiInsertCmd =
        (lastSize (wrap 4 (commandSize text command.pLeftBracket command.pRightBracket
          command.iLastBatchMultiInsert)) command.iLastBatchMultiInsert).map fun size => filled size
            (lastBytes text command.pLeftBracket command.pRightBracket command.iMultiInsert.toNat
              command.iLastBatchMultiInsert.toNat) := by
  obtain ⟨pLeftBracket, pRightBracket, found, enough, copied⟩ := multiInsert_copied rewritten
  have scanned := scanned_of_findTuple found
  obtain ⟨inside, -⟩ := List.getElem?_eq_some_iff.mp scanned.closing
  generalize getTotalMultiTuples (countParamMarkers (some text) sqlNtsLen) lArraySize = tuples at *
  obtain ⟨count, lastCount⟩ := tuples
  rw [copyCommands_eq inside scanned.wide] at copied
  split_ifs at copied
  cases copied
  exact ⟨found, enough, rfl⟩

/-- A command for the last batch is there, since it is smaller than the other one. -/
theorem last_allocated {lArraySize : Int} {command : MultiInsertCommand}
    (rewritten : multiInsert text lArraySize = some command)
    (room : commandSize text command.pLeftBracket command.pRightBracket command.iMultiInsert <
      2 ^ 31) (less : command.iLastBatchMultiInsert ≤ command.iMultiInsert)
    (more : 0 < command.iLastBatchMultiInsert) :
    ∃ last, command.pLastBatchMultiInsertCmd = some last := by
  obtain ⟨found, -, written⟩ := multiInsert_found rewritten
  have wide := (scanned_of_findTuple found).wide
  have product := Int.mul_le_mul_of_nonneg_left less
    (show 0 ≤ (command.pRightBracket : Int) - command.pLeftBracket + 2 by omega)
  have positive := Int.mul_nonneg
    (show 0 ≤ (command.pRightBracket : Int) - command.pLeftBracket + 2 by omega) more.le
  have size : wrap 4 (commandSize text command.pLeftBracket command.pRightBracket
      command.iLastBatchMultiInsert) = commandSize text command.pLeftBracket
        command.pRightBracket command.iLastBatchMultiInsert := by
    rw [commandSize] at room ⊢
    exact wrap_of_range (by omega) (by omega)
  have allocated : 0 < commandSize text command.pLeftBracket command.pRightBracket
      command.iLastBatchMultiInsert := by
    rw [commandSize]
    omega
  rw [written, size, lastSize, if_pos ⟨more, allocated⟩]
  exact ⟨_, rfl⟩

/-- A text that fits is rewritten into commands with so many tuples. -/
theorem TextFits.right {convert : Bool} {lArraySize : Nat} (rows : 0 < lArraySize)
    (fits : TextFits backslash convert text lArraySize) {command : MultiInsertCommand}
    (here : rewriting convert text lArraySize = some command) :
    command.Right backslash text lArraySize := by
  have returned : parseForMultiInsertCommand convert false true lArraySize ⟨none, 0, 0, 0⟩ text =
      (some command, (parseForMultiInsertCommand convert false true lArraySize ⟨none, 0, 0, 0⟩
        text).2) :=
    Prod.ext here rfl
  obtain ⟨rewritable, front⟩ := fits.rewritable command here
  obtain ⟨rewritten, multi, lastMulti⟩ := parse_multiInsert returned
  have size := parserArraySize_pos rows
  have faithful := (faithful_iff_rewritable backslash convert false true lArraySize _
    ⟨text, fits.noZero, fits.short⟩ returned).mpr (by rw [size]; exact rewritable)
  rw [size] at rewritten
  obtain ⟨marked, few, plan⟩ := multiInsert_plan rewritten
  obtain ⟨found, enough, -⟩ := multiInsert_found rewritten
  have room := (rewritable _ _ found).room
  have counted := countParamMarkers_tidy fits.noZero fits.short fits.tidy
  obtain ⟨tuple, all, last⟩ := faithful
  dsimp only at all last
  rw [multi, counted] at all
  rw [lastMulti, counted] at last
  rw [counted] at marked few plan room
  have covers := covers_of_fits marked few rows fits.small
  rw [plan] at covers room
  refine ⟨marked, few, plan, all, ?_, ?_⟩
  · obtain ⟨index, index_eq⟩ : ∃ index : Nat, command.iMultiInsert.toNat = index + 1 :=
      ⟨command.iMultiInsert.toNat - 1, by omega⟩
    have scanned := scanned_of_findTuple found
    obtain ⟨inside, -⟩ := List.getElem?_eq_some_iff.mp scanned.closing
    have length := repeated_length inside scanned.wide index
    have wide := scanned.wide
    have markers := all.markers
    rw [← index_eq, show ((command.iMultiInsert.toNat : Nat) : Int) = command.iMultiInsert by
      omega] at length
    have tidy := tuple.repeated_tidy scanned fits.tidy front index
    rw [← index_eq, ← all.text] at tidy
    rw [countParamMarkers_tidy (all.text ▸ repeated_noZero fits.noZero _) (by
      rw [all.text]; dsimp only at room; omega) tidy]
    zify
    rw [markers, Int.toNat_of_nonneg (by omega)]
  · intro more
    have less : command.iLastBatchMultiInsert ≤ command.iMultiInsert := by
      have := covers.last
      dsimp only at this
      omega
    obtain ⟨buffer, allocated⟩ := last_allocated rewritten room less more
    exact ⟨buffer, allocated, last buffer allocated⟩

theorem FaithfulCommand.card {pLeftBracket pRightBracket numOfParamMarkers : Nat} {count : Int}
    {command : Buffer} (faithful : FaithfulCommand backslash text pLeftBracket pRightBracket
      numOfParamMarkers count command) (nonneg : 0 ≤ count) :
    (markersOutside backslash command.text).card = count.toNat * numOfParamMarkers := by
  have markers := faithful.markers
  zify
  rw [Int.toNat_of_nonneg nonneg, markers]

namespace MultiInsertCommand.Right

variable {lArraySize : Nat} {command : MultiInsertCommand}

/-- The tuples of a command and those of the last one divide the rows. -/
theorem divides (right : command.Right backslash text lArraySize) (rows : 0 < lArraySize)
    (small : (markersOutside backslash text).card * lArraySize < 2 ^ 63) :
    command.iLastBatchMultiInsert.toNat < command.iMultiInsert.toNat ∧
      lArraySize % command.iMultiInsert.toNat = command.iLastBatchMultiInsert.toNat := by
  have covers := covers_of_fits right.marked right.few rows small
  rw [right.plan] at covers
  have more := covers.some
  have last := covers.last
  dsimp only at covers more last
  obtain ⟨tuples, equal⟩ : ∃ tuples : Nat, command.iMultiInsert = tuples :=
    ⟨command.iMultiInsert.toNat, by omega⟩
  rw [equal] at covers
  have rest := covers.last_eq
  rw [equal, Int.toNat_natCast]
  exact ⟨by omega, by omega⟩

theorem tuples_pos (right : command.Right backslash text lArraySize) (rows : 0 < lArraySize)
    (small : (markersOutside backslash text).card * lArraySize < 2 ^ 63) :
    0 < command.iMultiInsert.toNat := by
  have less := (right.divides rows small).1
  omega

end MultiInsertCommand.Right

end RedshiftOdbc.Execute

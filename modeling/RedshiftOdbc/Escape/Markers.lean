import RedshiftOdbc.Escape.Lexical
import RedshiftOdbc.Library.Saturating
import RedshiftOdbc.Library.Words
import Mathlib.Algebra.Order.Ring.Nat

/-!
# Counting parameter markers

`countParamMarkers` keeps four counters that know nothing of each other.  Where
they stand is described here by the text alone: two are parities of quotes, the
other two are up when some stretch of the text before has more openers than
closers.  A question mark is counted when none of the four is up.  The counters
and the lexical context go in step as long as no character is taken differently
by the two, so the count is right when none in front of a question mark is.
-/

namespace RedshiftOdbc.Escape

open RedshiftOdbc.Words RedshiftOdbc.Saturating

/-- `SQL_NTS`, a length that stands for a text ended by a zero. -/
def sqlNts : Int := -3

def strlen (pData : List Char) : Nat := (pData.takeWhile fun character => character ≠ '\x00').length

def textLength (pData : List Char) (cbLen : Nat) : Nat :=
  if wrap 4 cbLen = sqlNts then strlen pData else cbLen

def statementText (pData : List Char) (cbLen : Nat) : List Char :=
  pData.take (textLength pData cbLen)

/-- The variables of the loop of `countParamMarkers`. -/
structure MarkerScan where
  numOfParamMarkers : Nat
  iQuote : Nat
  iDoubleQuote : Nat
  iComment : Nat
  iSingleLineComment : Nat
  deriving DecidableEq, Repr

/-- `*(pTemp - 1)`, when there is one. -/
def previous (text : List Char) (i : Nat) : Option Char := if i = 0 then none else text[i - 1]?

/-- The switch of `countParamMarkers` at `pTemp = pData + i`. -/
def MarkerScan.step (text : List Char) (scan : MarkerScan) (i : Nat) : MarkerScan :=
  match text[i]? with
  | some '?' =>
      if scan.iQuote = 0 ∧ scan.iDoubleQuote = 0 ∧ scan.iComment = 0 ∧
          scan.iSingleLineComment = 0 then
        { scan with numOfParamMarkers := scan.numOfParamMarkers + 1 }
      else scan
  | some '\'' =>
      if previous text i ≠ some '\\' then
        { scan with iQuote := if scan.iQuote ≠ 0 then scan.iQuote - 1 else scan.iQuote + 1 }
      else scan
  | some '"' =>
      { scan with
        iDoubleQuote :=
          if scan.iDoubleQuote ≠ 0 then scan.iDoubleQuote - 1 else scan.iDoubleQuote + 1 }
  | some '*' =>
      if previous text i = some '/' then { scan with iComment := scan.iComment + 1 } else scan
  | some '/' =>
      if previous text i = some '*' ∧ scan.iComment ≠ 0 then
        { scan with iComment := scan.iComment - 1 }
      else scan
  | some '-' =>
      if previous text i = some '-' then
        { scan with iSingleLineComment := scan.iSingleLineComment + 1 }
      else scan
  | some '\n' =>
      if scan.iSingleLineComment ≠ 0 then
        { scan with iSingleLineComment := scan.iSingleLineComment - 1 }
      else scan
  | _ => scan

/-- The loop of `countParamMarkers` over the first characters. -/
def scanParamMarkers (text : List Char) : Nat → MarkerScan
  | 0 => ⟨0, 0, 0, 0, 0⟩
  | i + 1 => (scanParamMarkers text i).step text i

def countParamMarkers (pData : Option (List Char)) (cbLen : Nat) : Nat :=
  match pData with
  | none => 0
  | some pData =>
      let text := statementText pData cbLen
      if '?' ∈ text then
        (scanParamMarkers text (wrap 4 (textLength pData cbLen)).toNat).numOfParamMarkers
      else 0

/-! ## The counters -/

/-- The quotes before a place that no backslash stands in front of. -/
def quotesBefore (text : List Char) (place : Nat) : Finset Nat :=
  (Finset.range place).filter fun i => text[i]? = some '\'' ∧ previous text i ≠ some '\\'

def doubleQuotesBefore (text : List Char) (place : Nat) : Finset Nat :=
  (Finset.range place).filter fun i => text[i]? = some '"'

/-- A slash and a star begin a comment, a star and a slash end it. -/
def commentStep (text : List Char) (i : Nat) : Int :=
  if text[i]? = some '*' ∧ previous text i = some '/' then 1
  else if text[i]? = some '/' ∧ previous text i = some '*' then -1
  else 0

/-- Two dashes begin a comment, a new line ends it. -/
def singleLineStep (text : List Char) (i : Nat) : Int :=
  if text[i]? = some '-' ∧ previous text i = some '-' then 1
  else if text[i]? = some '\n' then -1
  else 0

/--
Before the place there is an odd number of quotes or of double quotes, or a
stretch that ends there begins more comments of one kind than it ends.
-/
def Covered (text : List Char) (place : Nat) : Prop :=
  (quotesBefore text place).card % 2 = 1 ∨ (doubleQuotesBefore text place).card % 2 = 1 ∨
    (∃ start ≤ place, 0 < ∑ i ∈ Finset.Ico start place, commentStep text i) ∨
    ∃ start ≤ place, 0 < ∑ i ∈ Finset.Ico start place, singleLineStep text i

instance (text : List Char) (place : Nat) : Decidable (Covered text place) :=
  inferInstanceAs (Decidable (_ ∨ _ ∨ _ ∨ _))

/-- Where the counters stand before a place. -/
structure CountersAt (text : List Char) (place : Nat) (scan : MarkerScan) : Prop where
  iQuote : scan.iQuote = (quotesBefore text place).card % 2
  iDoubleQuote : scan.iDoubleQuote = (doubleQuotesBefore text place).card % 2
  iComment : (scan.iComment : Int) = level (commentStep text) place
  iSingleLineComment : (scan.iSingleLineComment : Int) = level (singleLineStep text) place

namespace MarkerScan

variable (text : List Char) (scan : MarkerScan) (i : Nat)

theorem step_iQuote : (scan.step text i).iQuote =
    if text[i]? = some '\'' ∧ previous text i ≠ some '\\' then
      if scan.iQuote ≠ 0 then scan.iQuote - 1 else scan.iQuote + 1
    else scan.iQuote := by
  rw [step]
  split <;> grind

theorem step_iDoubleQuote : (scan.step text i).iDoubleQuote =
    if text[i]? = some '"' then
      if scan.iDoubleQuote ≠ 0 then scan.iDoubleQuote - 1 else scan.iDoubleQuote + 1
    else scan.iDoubleQuote := by
  rw [step]
  split <;> grind

theorem step_iComment : (scan.step text i).iComment =
    if text[i]? = some '*' ∧ previous text i = some '/' then scan.iComment + 1
    else if text[i]? = some '/' ∧ previous text i = some '*' then scan.iComment - 1
    else scan.iComment := by
  rw [step]
  split <;> grind

theorem step_iSingleLineComment : (scan.step text i).iSingleLineComment =
    if text[i]? = some '-' ∧ previous text i = some '-' then scan.iSingleLineComment + 1
    else if text[i]? = some '\n' then scan.iSingleLineComment - 1
    else scan.iSingleLineComment := by
  rw [step]
  split <;> grind

theorem step_numOfParamMarkers : (scan.step text i).numOfParamMarkers =
    scan.numOfParamMarkers +
      if text[i]? = some '?' ∧ scan.iQuote = 0 ∧ scan.iDoubleQuote = 0 ∧ scan.iComment = 0 ∧
        scan.iSingleLineComment = 0 then 1 else 0 := by
  rw [step]
  split <;> grind

end MarkerScan

theorem card_filter_range_succ (condition : Nat → Prop) [DecidablePred condition] (count : Nat) :
    ((Finset.range (count + 1)).filter condition).card =
      ((Finset.range count).filter condition).card + if condition count then 1 else 0 := by
  rw [Finset.range_add_one, Finset.filter_insert]
  split
  · rw [Finset.card_insert_of_notMem (by simp)]
  · rfl

/-- Every character keeps the counters where the text says. -/
theorem CountersAt.step {text : List Char} {i : Nat} {scan : MarkerScan}
    (counters : CountersAt text i scan) : CountersAt text (i + 1) (scan.step text i) := by
  obtain ⟨iQuote, iDoubleQuote, iComment, iSingleLineComment⟩ := counters
  refine ⟨?_, ?_, ?_, ?_⟩
  · rw [MarkerScan.step_iQuote, quotesBefore, card_filter_range_succ, ← quotesBefore]
    split_ifs <;> omega
  · rw [MarkerScan.step_iDoubleQuote, doubleQuotesBefore, card_filter_range_succ,
      ← doubleQuotesBefore]
    split_ifs <;> omega
  · rw [MarkerScan.step_iComment, level, ← iComment, commentStep]
    split_ifs <;> omega
  · rw [MarkerScan.step_iSingleLineComment, level, ← iSingleLineComment, singleLineStep]
    split_ifs <;> omega

/-- No counter is up exactly where the text does not cover. -/
theorem CountersAt.down_iff {text : List Char} {i : Nat} {scan : MarkerScan}
    (counters : CountersAt text i scan) :
    (scan.iQuote = 0 ∧ scan.iDoubleQuote = 0 ∧ scan.iComment = 0 ∧
      scan.iSingleLineComment = 0) ↔ ¬ Covered text i := by
  obtain ⟨iQuote, iDoubleQuote, iComment, iSingleLineComment⟩ := counters
  rw [Covered, ← level_pos, ← level_pos]
  omega

theorem scanParamMarkers_counters (text : List Char) (count : Nat) :
    CountersAt text count (scanParamMarkers text count) := by
  induction count with
  | zero => exact ⟨rfl, rfl, rfl, rfl⟩
  | succ i ih => exact ih.step

/-- The loop counts the question marks that are not covered. -/
theorem scanParamMarkers_count (text : List Char) (count : Nat) :
    (scanParamMarkers text count).numOfParamMarkers =
      ((Finset.range count).filter fun i => text[i]? = some '?' ∧ ¬ Covered text i).card := by
  induction count with
  | zero => rfl
  | succ i ih =>
      rw [scanParamMarkers, MarkerScan.step_numOfParamMarkers, ih, card_filter_range_succ]
      simp only [(scanParamMarkers_counters text i).down_iff]

/-! ## When the count is right -/

/-- A question mark that is not counted: it is covered, or an `int` does not reach it. -/
def Masked (text : List Char) (reach : Nat) (place : Nat) : Prop :=
  reach ≤ place ∨ Covered text place

instance (text : List Char) (reach place : Nat) : Decidable (Masked text reach place) :=
  inferInstanceAs (Decidable (_ ∨ _))

/-- The part of a text that an `int` loop bound reaches. -/
def reach (pData : List Char) (cbLen : Nat) : Nat := (wrap 4 (textLength pData cbLen)).toNat

theorem countParamMarkers_eq (pData : List Char) (cbLen : Nat) :
    countParamMarkers (some pData) cbLen =
      ((markers (statementText pData cbLen)).filter fun place =>
        ¬ Masked (statementText pData cbLen) (reach pData cbLen) place).card := by
  rw [countParamMarkers, ← reach]
  generalize statementText pData cbLen = text
  split
  · rw [scanParamMarkers_count]
    congr 1
    ext place
    simp only [Finset.mem_filter, Finset.mem_range, markers, Masked, not_or, not_le]
    constructor
    · rintro ⟨inside, mark, bare⟩
      exact ⟨⟨(List.getElem?_eq_some_iff.mp mark).1, mark⟩, inside, bare⟩
    · rintro ⟨⟨-, mark⟩, inside, bare⟩
      exact ⟨inside, mark, bare⟩
  · next none =>
      symm
      rw [Finset.card_eq_zero, Finset.filter_eq_empty_iff]
      intro place mark
      rw [markers, Finset.mem_filter] at mark
      exact absurd (List.mem_of_getElem? mark.2) none

/-- Two dashes in a literal hide the marker behind it. -/
theorem countParamMarkers_eq_wrong :
    ¬ ∃ backslash, ∀ text : List Char,
      countParamMarkers (some text) text.length = (markersOutside backslash text).card := by
  rintro ⟨backslash, every⟩
  have right := every "'--' ?".toList
  revert right
  cases backslash <;> decide

/-! ## Tidy statements -/

/-- A quote that `countParamMarkers` sees: no backslash stands in front of it. -/
def SeenQuote (before : Option Char) (character : Char) : Prop :=
  character = '\'' ∧ before ≠ some '\\'

/-- A dash or a star that begins a comment for `countParamMarkers`. -/
def BeginsComment (before : Option Char) (character : Char) : Prop :=
  character = '-' ∧ before = some '-' ∨ character = '*' ∧ before = some '/'

/--
A character that is taken differently in its context: a quote outside behind a
backslash, or inside a literal, an identifier or a comment what would open
something outside or what ends the comment too early.
-/
def Foreign (context : Context) (before : Option Char) (character : Char) : Prop :=
  match context with
  | .plain =>
      character = '\'' ∧ before = some '\\' ∨ character = '*' ∧ before = some '/'
  | .dash | .slash => False
  | .quoted =>
      character = '"' ∨ BeginsComment before character ∨ character = '\'' ∧ before = some '\\'
  | .quotedEscape => character = '"' ∨ BeginsComment before character
  | .identifier => SeenQuote before character ∨ BeginsComment before character
  | .lineComment | .blockStar =>
      SeenQuote before character ∨ character = '"' ∨ BeginsComment before character
  | .blockComment =>
      SeenQuote before character ∨ character = '"' ∨ BeginsComment before character ∨
        character = '/' ∧ before = some '*'

instance (before : Option Char) (character : Char) : Decidable (SeenQuote before character) :=
  inferInstanceAs (Decidable (_ ∧ _))

instance (before : Option Char) (character : Char) : Decidable (BeginsComment before character) :=
  inferInstanceAs (Decidable (_ ∨ _))

instance (context : Context) (before : Option Char) (character : Char) :
    Decidable (Foreign context before character) :=
  match context with
  | .plain => inferInstanceAs (Decidable (_ ∨ _))
  | .dash | .slash => inferInstanceAs (Decidable False)
  | .quoted | .quotedEscape | .identifier | .lineComment | .blockStar | .blockComment =>
      inferInstanceAs (Decidable (_ ∨ _))

/-- No character in front of the place is taken differently. -/
def TidyBefore (backslash : Bool) (text : List Char) (place : Nat) : Prop :=
  ∀ earlier < place, ∀ character ∈ text[earlier]?,
    ¬ Foreign (contextAt backslash text earlier) (previous text earlier) character

instance (backslash : Bool) (text : List Char) (place : Nat) :
    Decidable (TidyBefore backslash text place) :=
  @Nat.decidableBallLT place _ fun earlier _ => Option.decidableForallMem text[earlier]?

/-- No character in front of a question mark is taken differently. -/
def Tidy (backslash : Bool) (text : List Char) : Prop :=
  ∀ mark ∈ markers text, TidyBefore backslash text mark

instance (backslash : Bool) (text : List Char) : Decidable (Tidy backslash text) :=
  inferInstanceAs (Decidable (∀ _ ∈ _, _))

/-- The counters are those of the context, which knows the character before. -/
structure InStep (context : Context) (before : Option Char) (scan : MarkerScan) : Prop where
  iQuote : scan.iQuote = if context = .quoted ∨ context = .quotedEscape then 1 else 0
  iDoubleQuote : scan.iDoubleQuote = if context = .identifier then 1 else 0
  iComment : scan.iComment = if context = .blockComment ∨ context = .blockStar then 1 else 0
  iSingleLineComment : scan.iSingleLineComment = if context = .lineComment then 1 else 0
  dash : context = .dash → before = some '-'
  slash : context = .slash → before = some '/'
  plain : context = .plain ∨ context = .slash → before ≠ some '-'
  escape : context = .quotedEscape → before = some '\\'
  star : context = .blockStar → before = some '*'

/-- Outside of all contexts the character behind a plain one is known. -/
theorem opened_cases (character : Char) :
    (character = '-' ∧ Context.opened character = .dash) ∨
      (character = '/' ∧ Context.opened character = .slash) ∨
      (character = '\'' ∧ Context.opened character = .quoted) ∨
      (character = '"' ∧ Context.opened character = .identifier) ∨
      (character ≠ '-' ∧ character ≠ '/' ∧ character ≠ '\'' ∧ character ≠ '"' ∧
        Context.opened character = .plain) := by
  unfold Context.opened
  split <;> simp_all

theorem InStep.next {text : List Char} {context : Context} {scan : MarkerScan} {i : Nat}
    {character : Char} (backslash : Bool) (inStep : InStep context (previous text i) scan)
    (here : text[i]? = some character) (native : ¬ Foreign context (previous text i) character) :
    InStep (context.next backslash character) (previous text (i + 1)) (scan.step text i) := by
  have behind : previous text (i + 1) = some character := by simpa [previous] using here
  have comment := scan.step_iComment text i
  have singleLine := scan.step_iSingleLineComment text i
  have quote := scan.step_iQuote text i
  have doubleQuote := scan.step_iDoubleQuote text i
  simp only [here, Option.some.injEq] at comment singleLine quote doubleQuote
  obtain ⟨iQuote, iDoubleQuote, iComment, iSingleLineComment, dash, slash, plain, escape, star⟩ :=
    inStep
  have opened := opened_cases character
  rw [behind]
  generalize previous text i = before at *
  clear here behind
  cases context <;>
    simp only [Foreign, SeenQuote, BeginsComment, Context.next, reduceCtorEq, or_false, or_true,
      if_true, if_false, false_implies, true_implies, not_or, not_and] at * <;>
    constructor <;> grind

theorem contextAt_succ {backslash : Bool} {text : List Char} {place : Nat} {character : Char}
    (here : text[place]? = some character) : contextAt backslash text (place + 1) =
      (contextAt backslash text place).next backslash character := by
  simp [contextAt, List.take_add_one, here]

theorem inStep_of_tidy {backslash : Bool} {text : List Char} {place : Nat}
    (tidy : TidyBefore backslash text place) (inside : place ≤ text.length) :
    InStep (contextAt backslash text place) (previous text place)
      (scanParamMarkers text place) := by
  induction place with
  | zero =>
      constructor <;> simp [contextAt, previous, scanParamMarkers]
  | succ place ih =>
      have here : text[place]? = some text[place] := List.getElem?_eq_getElem inside
      have front : TidyBefore backslash text place :=
        fun earlier before => tidy earlier (by omega)
      rw [contextAt_succ here]
      exact (ih front (by omega)).next backslash here (tidy place (by omega) _ here)

/-- Where the text in front is tidy exactly the places outside all contexts are bare. -/
theorem covered_iff_of_tidy {backslash : Bool} {text : List Char} {place : Nat}
    (tidy : TidyBefore backslash text place) (inside : place ≤ text.length) :
    Covered text place ↔ ¬ (contextAt backslash text place).outside := by
  rw [← not_iff_not, ← (scanParamMarkers_counters text place).down_iff, not_not]
  obtain ⟨iQuote, iDoubleQuote, iComment, iSingleLineComment, -, -, -, -, -⟩ :=
    inStep_of_tidy tidy inside
  rw [iQuote, iDoubleQuote, iComment, iSingleLineComment]
  cases contextAt backslash text place <;> simp [Context.outside]

/--
As many parameter markers as the statement has are counted when no character in
front of a question mark is taken differently and an `int` reaches every one.
-/
theorem countParamMarkers_of_tidy {backslash : Bool} {pData : List Char} {cbLen : Nat}
    (tidy : Tidy backslash (statementText pData cbLen))
    (reached : ∀ mark ∈ markers (statementText pData cbLen), mark < reach pData cbLen) :
    countParamMarkers (some pData) cbLen =
      (markersOutside backslash (statementText pData cbLen)).card := by
  rw [countParamMarkers_eq, markersOutside]
  congr 1
  refine Finset.filter_congr ?_
  intro place mark
  have isTidy := tidy place mark
  have seen := reached place mark
  rw [markers, Finset.mem_filter, Finset.mem_range] at mark
  rw [Masked, covered_iff_of_tidy isTidy (by omega)]
  have near : ¬ reach pData cbLen ≤ place := by omega
  simp [near]

/-- In `'it''s' ? /* - */ "a-b" ? -- don't` two markers are counted. -/
theorem countParamMarkers_of_tidy_two :
    countParamMarkers (some "'it''s' ? /* - */ \"a-b\" ? -- don't".toList) 34 =
      (markersOutside true
        (statementText "'it''s' ? /* - */ \"a-b\" ? -- don't".toList 34)).card :=
  countParamMarkers_of_tidy (by decide) (by decide)

end RedshiftOdbc.Escape

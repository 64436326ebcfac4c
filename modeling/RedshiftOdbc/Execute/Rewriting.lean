import RedshiftOdbc.Execute.MultiInsert
import Mathlib.Tactic.Linarith

/-!
# When a rewritten INSERT is the one that was meant

The tuple is found by a scan with quote and bracket counters of its own, both
commands are written with one index, and the marker count is that of the whole
text.  What the rewriting should give is stated with the lexical contexts, and
it is given exactly when the brackets that the scan takes differently cancel,
nothing follows the tuple of a shorter last batch, no marker stands beside the
tuple, and the sizes fit an `int`.
-/

namespace RedshiftOdbc.Execute

open RedshiftOdbc.Words RedshiftOdbc.Scanf RedshiftOdbc.Escape

/-- A command text: it has no zero before its end, and an `int` holds its length. -/
structure CommandText where
  chars : List Char
  noZero : '\x00' ∉ chars
  short : chars.length < 2 ^ 31

/-! ## Brackets -/

/-- An opening bracket goes one level in, a closing one goes one level out. -/
def bracketStep (text : List Char) (place : Nat) : Int :=
  if text[place]? = some '(' then 1 else if text[place]? = some ')' then -1 else 0

/-- The brackets outside every literal, identifier and comment. -/
def sqlStep (backslash : Bool) (text : List Char) (place : Nat) : Int :=
  if (contextAt backslash text place).outside then bracketStep text place else 0

/-- The quotes from one place to another that no backslash stands in front of. -/
def quotesFrom (text : List Char) (origin place : Nat) : Finset Nat :=
  (Finset.Ico origin place).filter fun i => text[i]? = some '\'' ∧ previous text i ≠ some '\\'

/-- The brackets that an even number of quotes stands before, counted from a place. -/
def scanStep (text : List Char) (origin place : Nat) : Int :=
  if (quotesFrom text origin place).card % 2 = 0 then bracketStep text place else 0

def depth (step : Nat → Int) (start place : Nat) : Int := ∑ i ∈ Finset.Ico start place, step i

/-! ## What the rewriting should give -/

/-- A keyword VALUES outside comes before the place, and no opening bracket outside after it. -/
def BehindValues (backslash : Bool) (text : List Char) (pLeftBracket : Nat) : Prop :=
  ∃ place, wholeWordAt text valuesClause place ∧ (contextAt backslash text place).outside ∧
    place + valuesClause.length ≤ pLeftBracket ∧
    ∀ i, place + valuesClause.length ≤ i → i < pLeftBracket → sqlStep backslash text i ≠ 1

/-- The two brackets are those of the balanced list after a keyword VALUES. -/
structure ValuesTuple (backslash : Bool) (text : List Char) (pLeftBracket pRightBracket : Nat) :
    Prop where
  keyword : BehindValues backslash text pLeftBracket
  wide : pLeftBracket < pRightBracket
  /-- The list is open up to its closing bracket. -/
  within : ∀ i, pLeftBracket < i → i ≤ pRightBracket →
    0 < depth (sqlStep backslash text) pLeftBracket i
  closed : depth (sqlStep backslash text) pLeftBracket (pRightBracket + 1) = 0

def repeated (text : List Char) (pLeftBracket pRightBracket count : Nat) : List Char :=
  text.take pLeftBracket ++
    List.intercalate [','] (List.replicate count
      ((text.drop pLeftBracket).take (pRightBracket - pLeftBracket + 1))) ++
    text.drop (pRightBracket + 1)

/-- A command that was written for `count` tuples is the one that was meant. -/
structure FaithfulCommand (backslash : Bool) (text : List Char)
    (pLeftBracket pRightBracket numOfParamMarkers : Nat) (count : Int) (command : Buffer) :
    Prop where
  text : command.text = repeated text pLeftBracket pRightBracket count.toNat
  markers : ((markersOutside backslash command.text).card : Int) = count * numOfParamMarkers
  inside : command.inside

/-- Both commands are those that were meant, for the tuple behind VALUES. -/
structure Faithful (backslash : Bool) (text : List Char) (pLeftBracket pRightBracket : Nat)
    (command : MultiInsertCommand) (info : InsertInfo) : Prop where
  tuple : ValuesTuple backslash text pLeftBracket pRightBracket
  all : FaithfulCommand backslash text pLeftBracket pRightBracket
    (countParamMarkers (some text) sqlNtsLen) info.iMultiInsert command.pMultiInsertCmd
  last : ∀ last, command.pLastBatchMultiInsertCmd = some last →
    FaithfulCommand backslash text pLeftBracket pRightBracket
      (countParamMarkers (some text) sqlNtsLen) info.iLastBatchMultiInsert last

/-! ## When it is given -/

/-- The brackets that SQL counts and the scan does not, less those that only the scan counts. -/
def bracketsSeenApart (backslash : Bool) (text : List Char) (pLeftBracket i : Nat) : Int :=
  sqlStep backslash text i - scanStep text (pLeftBracket + 1) i

def tupleMarkers (backslash : Bool) (text : List Char) (pLeftBracket pRightBracket : Nat) :
    Finset Nat :=
  (markersOutside backslash text).filter fun i => pLeftBracket ≤ i ∧ i ≤ pRightBracket

def otherMarkers (backslash : Bool) (text : List Char) (pLeftBracket pRightBracket : Nat) :
    Finset Nat :=
  (markersOutside backslash text).filter fun i => ¬ (pLeftBracket ≤ i ∧ i ≤ pRightBracket)

/-- The bytes of the buffer for a number of tuples, before they are cut to an `int`. -/
def commandSize (text : List Char) (pLeftBracket pRightBracket : Nat) (count : Int) : Int :=
  text.length + ((pRightBracket : Int) - pLeftBracket + 2) * count + 1

/-- The tuples times the markers of one and the other markers make the markers of all. -/
def MarkersFit (backslash : Bool) (text : List Char)
    (pLeftBracket pRightBracket numOfParamMarkers : Nat) (count : Int) : Prop :=
  count * (tupleMarkers backslash text pLeftBracket pRightBracket).card +
    (otherMarkers backslash text pLeftBracket pRightBracket).card = count * numOfParamMarkers

/-- The condition on the text with the brackets that are found in it, and on the tuples. -/
structure Fits (backslash : Bool) (text : List Char)
    (pLeftBracket pRightBracket numOfParamMarkers : Nat) (tuples : Int × Int) : Prop where
  keyword : BehindValues backslash text pLeftBracket
  /-- The brackets seen apart do not close the list early. -/
  within : ∀ i, pLeftBracket < i → i ≤ pRightBracket →
    - depth (scanStep text (pLeftBracket + 1)) pLeftBracket i <
      depth (bracketsSeenApart backslash text pLeftBracket) pLeftBracket i
  /-- The brackets seen apart cancel. -/
  closed : depth (bracketsSeenApart backslash text pLeftBracket) pLeftBracket
    (pRightBracket + 1) = 0
  room : commandSize text pLeftBracket pRightBracket tuples.1 < 2 ^ 31
  markers : MarkersFit backslash text pLeftBracket pRightBracket numOfParamMarkers tuples.1
  /-- Where a last batch is allocated, nothing follows the tuple or it has all the tuples. -/
  last : 0 < tuples.2 → 0 < wrap 4 (commandSize text pLeftBracket pRightBracket tuples.2) →
    (tuples.2 = tuples.1 ∨ tuples.2 < tuples.1 ∧ text.drop (pRightBracket + 1) = []) ∧
      MarkersFit backslash text pLeftBracket pRightBracket numOfParamMarkers tuples.2

/-- The condition under which an INSERT is rewritten as it should be. -/
def Rewritable (backslash : Bool) (text : List Char) (lArraySize : Int) : Prop :=
  ∀ pLeftBracket pRightBracket, findTuple text = some (pLeftBracket, pRightBracket) →
    Fits backslash text pLeftBracket pRightBracket (countParamMarkers (some text) sqlNtsLen)
      (getTotalMultiTuples (countParamMarkers (some text) sqlNtsLen) lArraySize)

/-! ## The scan -/

theorem depth_self (step : Nat → Int) (start : Nat) : depth step start start = 0 := by
  simp [depth]

theorem depth_succ (step : Nat → Int) {start place : Nat} (le : start ≤ place) :
    depth step start (place + 1) = depth step start place + step place :=
  Finset.sum_Ico_succ_top le step

theorem depth_trans (step : Nat → Int) {start middle place : Nat} (first : start ≤ middle)
    (second : middle ≤ place) :
    depth step start place = depth step start middle + depth step middle place :=
  (Finset.sum_Ico_consecutive step first second).symm

theorem depth_first (step : Nat → Int) {start place : Nat} (lt : start < place) :
    depth step start place = step start + depth step (start + 1) place :=
  Finset.sum_eq_sum_Ico_succ_bot lt step

theorem quotesFrom_succ (text : List Char) {origin place : Nat} (le : origin ≤ place) :
    (quotesFrom text origin (place + 1)).card = (quotesFrom text origin place).card +
      if text[place]? = some '\'' ∧ previous text place ≠ some '\\' then 1 else 0 := by
  rw [quotesFrom, ← Finset.insert_Ico_right_eq_Ico_add_one le, Finset.filter_insert]
  split
  · rw [Finset.card_insert_of_notMem (by simp)]
    rfl
  · rfl

theorem previous_succ {text : List Char} {place : Nat} {character : Char}
    (here : text[place]? = some character) : previous text (place + 1) = some character := by
  simpa [previous] using here

/-- The scan is at its token, or goes on with the counters that the character leaves. -/
theorem scanToken_cons {token character : Char} {iQuote iBracket : Nat}
    {cPrevChar : Option Char} {rest : List Char} {count : Nat} (bracket : token ≠ '\'')
    (found : scanToken token iQuote iBracket cPrevChar (character :: rest) = (true, count)) :
    (count = 0 ∧ character = token ∧ iQuote = 0 ∧ iBracket = 0) ∨
      ∃ behind, count = behind + 1 ∧
        scanToken token
          (if character = '\'' ∧ cPrevChar ≠ some '\\' then
            if iQuote ≠ 0 then iQuote - 1 else iQuote + 1 else iQuote)
          (if character = '(' ∧ token = ')' ∧ iQuote = 0 then iBracket + 1
            else if character = ')' ∧ token = ')' ∧ iQuote = 0 then iBracket - 1 else iBracket)
          (some character) rest = (true, behind) ∧
        ¬ (character = token ∧ iQuote = 0 ∧ iBracket = 0) := by
  have going : ∀ {result : Bool × Nat}, (result.1, result.2 + 1) = (true, count) →
      ∃ behind, count = behind + 1 ∧ result = (true, behind) := by
    rintro ⟨result, behind⟩ goes
    obtain ⟨rfl, rfl⟩ := Prod.mk.inj goes
    exact ⟨behind, rfl, rfl⟩
  rw [scanToken] at found
  split_ifs at found
  all_goals first
    | obtain ⟨behind, rfl, next⟩ := going found
      grind
    | grind

/-- The scan ends at the token it looks for. -/
theorem scanToken_found {token : Char} {iQuote iBracket : Nat} {cPrevChar : Option Char}
    {text : List Char} {count : Nat} (bracket : token ≠ '\'')
    (found : scanToken token iQuote iBracket cPrevChar text = (true, count)) :
    text[count]? = some token := by
  induction text generalizing iQuote iBracket cPrevChar count with
  | nil => simp [scanToken] at found
  | cons character rest ih =>
      rcases scanToken_cons bracket found with ⟨rfl, rfl, -, -⟩ | ⟨behind, rfl, next, -⟩
      · rfl
      · exact ih next

/-- What a character does to the counters is what the text says about its place. -/
theorem scanStep_eq {text : List Char} {origin place : Nat} {character : Char} {iQuote : Nat}
    (here : text[place]? = some character)
    (quotes : iQuote = (quotesFrom text origin place).card % 2) :
    scanStep text origin place =
      if character = '(' ∧ iQuote = 0 then 1 else if character = ')' ∧ iQuote = 0 then -1 else 0 := by
  rw [scanStep, bracketStep, here]
  grind

/-- The list stays open up to the bracket that is found, and is closed behind it. -/
theorem scanToken_close {text : List Char} {origin start iQuote iBracket : Nat}
    {cPrevChar : Option Char} {rest : List Char} {count : Nat}
    (behind : text.drop start = rest) (le : origin ≤ start)
    (quotes : iQuote = (quotesFrom text origin start).card % 2)
    (before : cPrevChar = some '\\' ↔ previous text start = some '\\')
    (found : scanToken ')' iQuote iBracket cPrevChar rest = (true, count)) :
    (∀ i, start ≤ i → i ≤ start + count →
        0 ≤ iBracket + depth (scanStep text origin) start i) ∧
      iBracket + depth (scanStep text origin) start (start + count + 1) = -1 := by
  induction rest generalizing start iQuote iBracket cPrevChar count with
  | nil => simp [scanToken] at found
  | cons character rest ih =>
      have here : text[start]? = some character := by
        rw [← List.head?_drop, behind]
        rfl
      have step := scanStep_eq here quotes
      rcases scanToken_cons (by decide) found with ⟨rfl, rfl, rfl, rfl⟩ | ⟨count, rfl, next, other⟩
      · constructor
        · intro i first last
          obtain rfl : i = start := by omega
          simp [depth_self]
        · rw [Nat.add_zero, depth_succ _ (le_refl start), depth_self, step]
          simp
      · have tail : text.drop (start + 1) = rest := by
          rw [← List.drop_drop, behind]
          rfl
        have parity := quotesFrom_succ text le
        have after := previous_succ here
        obtain ⟨within, closed⟩ := ih tail (by omega) (by grind) (by grind) next
        -- The counter of the brackets goes as the step of the character.
        have counter : ((if character = '(' ∧ ')' = ')' ∧ iQuote = 0 then iBracket + 1
            else if character = ')' ∧ ')' = ')' ∧ iQuote = 0 then iBracket - 1
            else iBracket : Nat) : Int) = iBracket + scanStep text origin start := by
          rw [step]
          grind
        rw [counter] at within closed
        constructor
        · intro i first last
          rcases Nat.eq_or_lt_of_le first with rfl | first
          · simp [depth_self]
          · rw [depth_first _ first]
            have up := within i first (by omega)
            omega
        · rw [depth_first _ (by omega)]
          rw [show start + 1 + count + 1 = start + (count + 1) + 1 by omega] at closed
          omega

/-- What lies before the place that blanks are skipped to is a blank. -/
theorem blank_of_skipped {text : List Char} {place i : Nat} (first : place ≤ i)
    (last : i < skipBlanks text place) : ∃ blank, text[i]? = some blank ∧ isSpace blank := by
  rw [skipBlanks] at last
  have within : i - place < ((text.drop place).takeWhile isSpace).length := by omega
  have same : text[i]? = some ((text.drop place).takeWhile isSpace)[i - place] := by
    have taken := (List.takeWhile_prefix isSpace (l := text.drop place)).getElem within
    rw [taken, ← List.getElem?_eq_getElem, List.getElem?_drop]
    congr 1
    omega
  exact ⟨_, same, List.mem_takeWhile_imp (List.getElem_mem within)⟩

/-- The brackets of a tuple as the scan sees them. -/
structure Scanned (text : List Char) (pLeftBracket pRightBracket : Nat) : Prop where
  opening : text[pLeftBracket]? = some '('
  wide : pLeftBracket < pRightBracket
  closing : text[pRightBracket]? = some ')'
  within : ∀ i, pLeftBracket < i → i ≤ pRightBracket →
    0 < depth (scanStep text (pLeftBracket + 1)) pLeftBracket i
  closed : depth (scanStep text (pLeftBracket + 1)) pLeftBracket (pRightBracket + 1) = 0

/-- A token that is found stands behind the blanks, where the scan ends. -/
theorem getNextToken_scan {text : List Char} {place found : Nat} {token : Char}
    (next : getNextToken text place token = some found) :
    ∃ count, scanToken token 0 0 none (text.drop (skipBlanks text place)) = (true, count) ∧
      found = skipBlanks text place + count := by
  rw [getNextToken] at next
  split at next
  · next count scan => exact ⟨count, scan, (Option.some.inj next).symm⟩
  · cases next

theorem scanned_of_tokens {text : List Char} {place pLeftBracket pRightBracket : Nat}
    (left : getNextToken text place '(' = some pLeftBracket)
    (right : getNextToken text (pLeftBracket + 1) ')' = some pRightBracket) :
    Scanned text pLeftBracket pRightBracket := by
  obtain ⟨count, scan, rfl⟩ := getNextToken_scan left
  have opening := scanToken_found (by decide) scan
  rw [List.getElem?_drop] at opening
  generalize skipBlanks text place + count = pLeftBracket at *
  obtain ⟨count, scan, rfl⟩ := getNextToken_scan right
  have closing := scanToken_found (by decide) scan
  rw [List.getElem?_drop] at closing
  have skipped := @blank_of_skipped text (pLeftBracket + 1)
  have ahead : pLeftBracket + 1 ≤ skipBlanks text (pLeftBracket + 1) := Nat.le_add_right _ _
  generalize skipBlanks text (pLeftBracket + 1) = start at *
  have quotes : quotesFrom text (pLeftBracket + 1) start = ∅ := by
    rw [quotesFrom, Finset.filter_eq_empty_iff]
    rintro i range ⟨quote, -⟩
    obtain ⟨blank, here, space⟩ := skipped (Finset.mem_Ico.mp range).1 (Finset.mem_Ico.mp range).2
    rw [quote] at here
    obtain rfl := Option.some.inj here
    exact absurd space (by decide)
  have before : previous text start ≠ some '\\' := by
    intro escape
    rw [previous, if_neg (by omega)] at escape
    rcases Nat.eq_or_lt_of_le ahead with rfl | ahead
    · rw [Nat.add_sub_cancel, opening] at escape
      cases escape
    · obtain ⟨blank, here, space⟩ := skipped (i := start - 1) (by omega) (by omega)
      rw [escape] at here
      obtain rfl := Option.some.inj here
      exact absurd space (by decide)
  obtain ⟨within, closed⟩ := scanToken_close rfl ahead (by rw [quotes]; rfl) (by simp [before]) scan
  have opened : scanStep text (pLeftBracket + 1) pLeftBracket = 1 := by
    rw [scanStep, bracketStep, opening, quotesFrom, Finset.Ico_eq_empty (by omega)]
    rfl
  have blanks : ∀ i, pLeftBracket + 1 ≤ i → i ≤ start →
      depth (scanStep text (pLeftBracket + 1)) (pLeftBracket + 1) i = 0 := by
    intro i first last
    refine Finset.sum_eq_zero ?_
    intro j range
    rw [Finset.mem_Ico] at range
    obtain ⟨blank, here, space⟩ := skipped range.1 (by omega)
    have other : blank ≠ '(' ∧ blank ≠ ')' := by
      constructor <;> rintro rfl <;> exact absurd space (by decide)
    rw [scanStep, bracketStep, here]
    simp [other]
  refine ⟨opening, by omega, closing, ?_, ?_⟩
  · intro i first last
    rw [depth_first _ first, opened]
    rcases Nat.lt_or_ge i start with short | long
    · rw [blanks i (by omega) (by omega)]
      decide
    · rw [depth_trans _ ahead long, blanks start ahead (le_refl _)]
      have up := within i long last
      omega
  · rw [depth_first _ (by omega), opened, depth_trans _ ahead (by omega),
      blanks start ahead (le_refl _)]
    omega

theorem scanned_of_findTuple {text : List Char} {pLeftBracket pRightBracket : Nat}
    (found : findTuple text = some (pLeftBracket, pRightBracket)) :
    Scanned text pLeftBracket pRightBracket := by
  rw [findTuple] at found
  split at found
  · cases found
  · next pTemp _ =>
      split at found
      · cases found
      · next opening left =>
          split at found
          · cases found
          · next closing right =>
              dsimp only at found
              split_ifs at found
              cases found
              exact scanned_of_tokens left right

/-- The brackets make the balanced list exactly when those seen apart cancel and do not close it. -/
theorem Scanned.valuesTuple_iff {backslash : Bool} {text : List Char}
    {pLeftBracket pRightBracket : Nat} (scanned : Scanned text pLeftBracket pRightBracket) :
    ValuesTuple backslash text pLeftBracket pRightBracket ↔
      BehindValues backslash text pLeftBracket ∧
        (∀ i, pLeftBracket < i → i ≤ pRightBracket →
          - depth (scanStep text (pLeftBracket + 1)) pLeftBracket i <
            depth (bracketsSeenApart backslash text pLeftBracket) pLeftBracket i) ∧
        depth (bracketsSeenApart backslash text pLeftBracket) pLeftBracket
          (pRightBracket + 1) = 0 := by
  have apart : ∀ i, depth (bracketsSeenApart backslash text pLeftBracket) pLeftBracket i =
      depth (sqlStep backslash text) pLeftBracket i -
        depth (scanStep text (pLeftBracket + 1)) pLeftBracket i :=
    fun i => Finset.sum_sub_distrib _ _
  constructor
  · rintro ⟨keyword, -, within, closed⟩
    refine ⟨keyword, ?_, ?_⟩
    · intro i first last
      have up := within i first last
      rw [apart]
      omega
    · rw [apart, closed, scanned.closed]
      rfl
  · rintro ⟨keyword, within, closed⟩
    refine ⟨keyword, scanned.wide, ?_, ?_⟩
    · intro i first last
      have up := within i first last
      rw [apart] at up
      omega
    · rw [apart, scanned.closed] at closed
      omega

/-! ## Markers by contexts -/

/-- The parameter markers of a text that begins in a context. -/
def markersFrom (backslash : Bool) : Context → List Char → Nat
  | _, [] => 0
  | context, character :: rest =>
      (if character = '?' ∧ context.outside then 1 else 0) +
        markersFrom backslash (context.next backslash character) rest

/-- The context behind a text that begins in a context. -/
def contextBehind (backslash : Bool) (context : Context) (text : List Char) : Context :=
  text.foldl (Context.next backslash) context

theorem markersFrom_append (backslash : Bool) (context : Context) (first second : List Char) :
    markersFrom backslash context (first ++ second) = markersFrom backslash context first +
      markersFrom backslash (contextBehind backslash context first) second := by
  induction first generalizing context with
  | nil => simp [markersFrom, contextBehind]
  | cons character rest ih =>
      rw [List.cons_append, markersFrom, ih, markersFrom, Nat.add_assoc]
      rfl

theorem contextBehind_append (backslash : Bool) (context : Context) (first second : List Char) :
    contextBehind backslash context (first ++ second) =
      contextBehind backslash (contextBehind backslash context first) second :=
  List.foldl_append

/-- The markers before a place are counted by the contexts of the text up to it. -/
theorem card_markersOutside_lt (backslash : Bool) (text : List Char) (place : Nat) :
    ((markersOutside backslash text).filter (· < place)).card =
      markersFrom backslash .plain (text.take place) := by
  have same : ∀ place, (markersOutside backslash text).filter (· < place) =
      (Finset.range place).filter fun i =>
        text[i]? = some '?' ∧ (contextAt backslash text i).outside := by
    intro place
    ext i
    simp only [markersOutside, markers, Finset.mem_filter, Finset.mem_range]
    constructor
    · rintro ⟨⟨⟨-, mark⟩, outside⟩, before⟩
      exact ⟨before, mark, outside⟩
    · rintro ⟨before, mark, outside⟩
      exact ⟨⟨⟨(List.getElem?_eq_some_iff.mp mark).1, mark⟩, outside⟩, before⟩
  induction place with
  | zero => simp [markersFrom]
  | succ place ih =>
      rw [same, card_filter_range_succ, ← same, ih, List.take_add_one, markersFrom_append]
      rw [show contextBehind backslash .plain (text.take place) = contextAt backslash text place
        from rfl]
      cases text[place]? with
      | none => simp [markersFrom]
      | some character => simp [markersFrom]

theorem card_markersOutside (backslash : Bool) (text : List Char) :
    (markersOutside backslash text).card = markersFrom backslash .plain text := by
  have whole := card_markersOutside_lt backslash text text.length
  rw [List.take_length] at whole
  rw [← whole, Finset.filter_true_of_mem]
  intro i mark
  rw [markersOutside, Finset.mem_filter, markers, Finset.mem_filter, Finset.mem_range] at mark
  exact mark.1.1

def tupleOf (text : List Char) (pLeftBracket pRightBracket : Nat) : List Char :=
  (text.drop pLeftBracket).take (pRightBracket - pLeftBracket + 1)

theorem take_tupleOf (text : List Char) {pLeftBracket pRightBracket : Nat}
    (wide : pLeftBracket < pRightBracket) :
    text.take pLeftBracket ++ tupleOf text pLeftBracket pRightBracket =
      text.take (pRightBracket + 1) := by
  rw [tupleOf, ← List.take_add]
  congr 1
  omega

theorem card_tupleMarkers (backslash : Bool) (text : List Char) {pLeftBracket pRightBracket : Nat}
    (wide : pLeftBracket < pRightBracket) :
    (tupleMarkers backslash text pLeftBracket pRightBracket).card =
      markersFrom backslash (contextAt backslash text pLeftBracket)
        (tupleOf text pLeftBracket pRightBracket) := by
  have parts := Finset.card_filter_add_card_filter_not
    (s := (markersOutside backslash text).filter (· < pRightBracket + 1)) (· < pLeftBracket)
  have below : ((markersOutside backslash text).filter (· < pRightBracket + 1)).filter
      (· < pLeftBracket) = (markersOutside backslash text).filter (· < pLeftBracket) := by
    rw [Finset.filter_filter]
    refine Finset.filter_congr ?_
    intro i _
    omega
  have rest : ((markersOutside backslash text).filter (· < pRightBracket + 1)).filter
      (fun i => ¬ i < pLeftBracket) = tupleMarkers backslash text pLeftBracket pRightBracket := by
    rw [Finset.filter_filter, tupleMarkers]
    refine Finset.filter_congr ?_
    intro i _
    omega
  rw [below, rest, card_markersOutside_lt, card_markersOutside_lt, ← take_tupleOf text wide,
    markersFrom_append] at parts
  exact Nat.add_left_cancel parts

theorem card_otherMarkers (backslash : Bool) (text : List Char) {pLeftBracket pRightBracket : Nat}
    (wide : pLeftBracket < pRightBracket) :
    (otherMarkers backslash text pLeftBracket pRightBracket).card =
      markersFrom backslash .plain (text.take pLeftBracket) +
        markersFrom backslash (contextAt backslash text (pRightBracket + 1))
          (text.drop (pRightBracket + 1)) := by
  have parts := Finset.card_filter_add_card_filter_not
    (s := markersOutside backslash text) (fun i => pLeftBracket ≤ i ∧ i ≤ pRightBracket)
  have tuple := card_tupleMarkers backslash text wide
  have split : text = text.take pLeftBracket ++ tupleOf text pLeftBracket pRightBracket ++
      text.drop (pRightBracket + 1) := by
    rw [take_tupleOf text wide, List.take_append_drop]
  have all := card_markersOutside backslash text
  rw [show markersFrom backslash .plain text = markersFrom backslash .plain
    (text.take pLeftBracket ++ tupleOf text pLeftBracket pRightBracket ++
      text.drop (pRightBracket + 1)) by rw [← split], markersFrom_append, markersFrom_append,
    take_tupleOf text wide] at all
  rw [tupleMarkers] at tuple
  rw [otherMarkers]
  have before : contextBehind backslash .plain (text.take pLeftBracket) =
    contextAt backslash text pLeftBracket := rfl
  have behind : contextBehind backslash .plain (text.take (pRightBracket + 1)) =
    contextAt backslash text (pRightBracket + 1) := rfl
  rw [before, behind] at all
  omega

/-! ## Tuples joined by commas -/

/-- The tuple so many times. -/
def joined (tuple : List Char) (count : Nat) : List Char :=
  List.intercalate [','] (List.replicate count tuple)

theorem joined_zero (tuple : List Char) : joined tuple 0 = [] := rfl

theorem joined_one (tuple : List Char) : joined tuple 1 = tuple := by
  simp [joined, List.intercalate]

theorem joined_succ_succ (tuple : List Char) (count : Nat) :
    joined tuple (count + 2) = tuple ++ [','] ++ joined tuple (count + 1) := by
  simp [joined, List.intercalate, List.replicate_succ]

theorem joined_end (tuple : List Char) (count : Nat) :
    joined tuple (count + 2) = joined tuple (count + 1) ++ [','] ++ tuple := by
  induction count with
  | zero => rw [joined_succ_succ, joined_one]
  | succ count ih =>
      calc joined tuple (count + 3)
          = tuple ++ [','] ++ joined tuple (count + 2) := joined_succ_succ tuple (count + 1)
        _ = tuple ++ [','] ++ joined tuple (count + 1) ++ [','] ++ tuple := by
            rw [ih]
            simp only [List.append_assoc]
        _ = joined tuple (count + 2) ++ [','] ++ tuple := by rw [joined_succ_succ]

theorem joined_length (tuple : List Char) (count : Nat) :
    (joined tuple (count + 1)).length + 1 = (count + 1) * (tuple.length + 1) := by
  induction count with
  | zero => simp [joined_one]
  | succ count ih =>
      rw [joined_succ_succ, List.length_append, List.length_append, List.length_singleton]
      linarith

/-- The same commands are as long only for the same number of tuples. -/
theorem joined_length_lt (tuple : List Char) {first second : Nat} (less : first < second)
    (wide : 0 < tuple.length) : (joined tuple first).length < (joined tuple second).length := by
  obtain ⟨second, rfl⟩ : ∃ count, second = count + 1 := ⟨second - 1, by omega⟩
  have long := joined_length tuple second
  cases first with
  | zero =>
      have grown : tuple.length + 1 ≤ (second + 1) * (tuple.length + 1) :=
        Nat.le_mul_of_pos_left _ (by omega)
      rw [joined_zero, List.length_nil]
      omega
  | succ first =>
      have short := joined_length tuple first
      have grown : (first + 1) * (tuple.length + 1) < (second + 1) * (tuple.length + 1) :=
        Nat.mul_lt_mul_of_pos_right (by omega) (by omega)
      omega

theorem repeated_eq (text : List Char) (pLeftBracket pRightBracket count : Nat) :
    repeated text pLeftBracket pRightBracket count = text.take pLeftBracket ++
      joined (tupleOf text pLeftBracket pRightBracket) count ++ text.drop (pRightBracket + 1) :=
  rfl

/-- A bracket or a comma that is outside leaves nothing open. -/
theorem next_of_outside (backslash : Bool) {context : Context} (outside : context.outside)
    {character : Char} (other : character = '(' ∨ character = ')' ∨ character = ',') :
    context.next backslash character = .plain := by
  rcases other with rfl | rfl | rfl <;> cases context <;> first | rfl | cases outside

/-- Each of the tuples holds the markers of one and leaves nothing open. -/
theorem joined_markers {backslash : Bool} {inner : List Char}
    (ends : contextBehind backslash .plain inner = .plain) {context : Context}
    (outside : context.outside) (count : Nat) :
    markersFrom backslash context (joined ('(' :: inner) (count + 1)) =
        (count + 1) * markersFrom backslash .plain inner ∧
      contextBehind backslash context (joined ('(' :: inner) (count + 1)) = .plain := by
  have one : ∀ {context : Context}, context.outside →
      markersFrom backslash context ('(' :: inner) = markersFrom backslash .plain inner ∧
        contextBehind backslash context ('(' :: inner) = .plain := by
    intro context outside
    have opened := next_of_outside backslash outside (Or.inl rfl)
    constructor
    · rw [markersFrom, opened]
      simp
    · rw [contextBehind, List.foldl_cons, opened]
      exact ends
  induction count generalizing context with
  | zero =>
      obtain ⟨markers, behind⟩ := one outside
      rw [joined_one, Nat.zero_add, Nat.one_mul]
      exact ⟨markers, behind⟩
  | succ count ih =>
      obtain ⟨markers, behind⟩ := one outside
      have comma : contextBehind backslash .plain [','] = .plain := rfl
      obtain ⟨rest, last⟩ := ih (show Context.plain.outside = true from rfl)
      have first : contextBehind backslash context ('(' :: inner ++ [',']) = .plain := by
        rw [contextBehind_append, behind, comma]
      rw [joined_succ_succ, markersFrom_append _ _ ('(' :: inner ++ [',']),
        contextBehind_append _ _ ('(' :: inner ++ [',']), first, rest, markersFrom_append, behind,
        markers]
      refine ⟨?_, last⟩
      rw [show markersFrom backslash .plain [','] = 0 from rfl]
      linarith

/-! ## The buffers -/

/-- A buffer that bytes have been written into from its beginning. -/
def filled (size : Nat) (bytes : List Char) : Buffer := ⟨size, bytes, decide (bytes.length ≤ size)⟩

/-- A write at the end or behind it, where the bytes in between stay zeros. -/
theorem filled_memcpy (size : Nat) (bytes data : List Char) (gap : Nat) :
    (filled size bytes).memcpy (bytes.length + gap) data =
      filled size (bytes ++ List.replicate gap '\x00' ++ data) := by
  rw [Buffer.memcpy, filled, filled]
  rw [List.take_of_length_le (by simp), List.drop_of_length_le (by simp; omega),
    Nat.add_sub_cancel_left, List.append_nil]
  congr 1
  simp only [List.length_append, List.length_replicate]
  rw [← Bool.decide_and, decide_eq_decide]
  omega

theorem filled_memcpy_end (size : Nat) (bytes data : List Char) :
    (filled size bytes).memcpy bytes.length data = filled size (bytes ++ data) := by
  simpa using filled_memcpy size bytes data 0

/-- Where both commands stand when the text before the tuple and some tuples are written. -/
def copiedTuples (before tuple : List Char) (size : Nat) (lastSize : Option Nat)
    (count lastCount : Nat) : Copying where
  i := (before ++ joined tuple count).length
  pMultiInsertCmd := filled size (before ++ joined tuple count)
  pLastBatchMultiInsertCmd := lastSize.map fun size => filled size (before ++ joined tuple lastCount)

def writeTuple (tuple : List Char) (iCount : Nat) (last : Bool) (copied : Copying) : Copying :=
  (if iCount ≠ 0 then copied.write last [','] else copied).write last tuple

theorem copyTuples_succ (tuple : List Char) (iLastBatchTotalMultiTuples : Int) (copying : Copying)
    (iCount : Nat) : copyTuples tuple iLastBatchTotalMultiTuples copying (iCount + 1) =
      writeTuple tuple iCount ((iCount : Int) < iLastBatchTotalMultiTuples : Bool)
        (copyTuples tuple iLastBatchTotalMultiTuples copying iCount) :=
  rfl

/-- A comma and a tuple, which both commands get when they stand at the same count. -/
theorem writeTuple_copied (before tuple : List Char) (size : Nat) (lastSize : Option Nat)
    (count : Nat) (last : Bool) (lastCount : Nat) (same : last = true → lastCount = count) :
    writeTuple tuple count last (copiedTuples before tuple size lastSize count lastCount) =
      copiedTuples before tuple size lastSize (count + 1)
        (if last then lastCount + 1 else lastCount) := by
  have added : ∀ count, before ++ joined tuple (count + 2) =
      before ++ joined tuple (count + 1) ++ [','] ++ tuple := by
    intro count
    rw [joined_end]
    simp only [List.append_assoc]
  cases count with
  | zero =>
      cases last with
      | false =>
          simp [writeTuple, copiedTuples, Copying.write, joined_zero, joined_one, filled_memcpy_end]
      | true =>
          obtain rfl := same rfl
          cases lastSize <;>
            simp [writeTuple, copiedTuples, Copying.write, joined_zero, joined_one, filled_memcpy_end]
  | succ count =>
      have next := added count
      cases last with
      | false =>
          simp only [writeTuple, copiedTuples, Copying.write, ne_eq, Nat.add_one_ne_zero, not_false_eq_true,
            if_true, Bool.false_eq_true, if_false, next]
          rw [filled_memcpy_end, ← List.length_append, filled_memcpy_end, ← List.length_append]
      | true =>
          obtain rfl := same rfl
          simp only [writeTuple, copiedTuples, Copying.write, ne_eq, Nat.add_one_ne_zero, not_false_eq_true,
            if_true, next, Option.map_map]
          rw [filled_memcpy_end, ← List.length_append, filled_memcpy_end, ← List.length_append]
          congr 2
          funext size
          simp only [Function.comp_apply]
          rw [filled_memcpy_end, filled_memcpy_end]

/-- The loop writes the tuples, the last batch as many as it has. -/
theorem copyTuples_copied (before tuple : List Char) (size : Nat) (lastSize : Option Nat)
    (iLastBatchTotalMultiTuples : Int) (count : Nat) :
    copyTuples tuple iLastBatchTotalMultiTuples (copiedTuples before tuple size lastSize 0 0) count =
      copiedTuples before tuple size lastSize count (min count iLastBatchTotalMultiTuples.toNat) := by
  induction count with
  | zero => simp [copyTuples]
  | succ count ih =>
      rw [copyTuples_succ, ih, writeTuple_copied]
      · congr 1
        split_ifs with more
        · have less := of_decide_eq_true more
          omega
        · have less := of_decide_eq_false (Bool.eq_false_iff.mpr more)
          omega
      · intro more
        have less := of_decide_eq_true more
        omega

/-- What is written for the last batch: where its tuples end early, zeros come before the rest. -/
def lastBytes (text : List Char) (pLeftBracket pRightBracket count lastCount : Nat) : List Char :=
  let tuple := tupleOf text pLeftBracket pRightBracket
  let behind := text.drop (pRightBracket + 1)
  text.take pLeftBracket ++ joined tuple (min count lastCount) ++
    if behind = [] then []
    else List.replicate ((joined tuple count).length - (joined tuple (min count lastCount)).length)
      '\x00' ++ behind

theorem joined_length_le (tuple : List Char) {first second : Nat} (le : first ≤ second)
    (wide : 0 < tuple.length) : (joined tuple first).length ≤ (joined tuple second).length := by
  rcases Nat.eq_or_lt_of_le le with rfl | less
  · exact le_refl _
  · exact (joined_length_lt tuple less wide).le

/-- The sizes that are allocated are those of the commands, cut to an `int`. -/
theorem wrap_commandSize (text : List Char) (pLeftBracket pRightBracket : Nat) (count : Int) :
    wrap 4 (text.length + wrap 4 (wrap 4 ((pRightBracket : Int) - pLeftBracket + 1 + 1) * count) +
      1) = wrap 4 (commandSize text pLeftBracket pRightBracket count) := by
  rw [wrap_wrap_mul, Int.add_assoc, Int.add_comm, Int.add_assoc, wrap_wrap_add, commandSize]
  congr 1
  ring

theorem calloc_filled {size : Int} (nonneg : 0 ≤ size) :
    calloc size = some (filled size.toNat []) := by
  simp [calloc, filled, Int.not_lt.mpr nonneg]

/-- The size of the buffer of the last batch, where it has tuples. -/
def lastSize (size lastCount : Int) : Option Nat :=
  if 0 < lastCount ∧ 0 < size then some size.toNat else none

theorem lastSize_filled (size lastCount : Int) :
    (if 0 < (if 0 < lastCount then size else 0) then calloc (if 0 < lastCount then size else 0)
      else none) = (lastSize size lastCount).map fun size => filled size [] := by
  rw [lastSize]
  by_cases more : 0 < lastCount
  · simp only [more, if_true, true_and]
    split_ifs with fits
    · rw [calloc_filled (Int.le_of_lt fits), Option.map_some]
    · rfl
  · simp [more]

/-- The text before the tuple goes into both buffers. -/
theorem before_copied (before tuple : List Char) (size : Nat) (lastSize : Option Nat) :
    (Copying.mk 0 (filled size []) (lastSize.map fun size => filled size [])).write true before =
      copiedTuples before tuple size lastSize 0 0 := by
  have start : ∀ size, (filled size []).memcpy 0 before = filled size before := by
    intro size
    exact filled_memcpy_end size [] before
  cases lastSize <;> simp [copiedTuples, Copying.write, joined_zero, start]

/-- The rest of the text is written behind the last tuple of the first command. -/
theorem behind_copied (before tuple behind : List Char) (size : Nat) (lastSize : Option Nat)
    {count lastCount : Nat} (le : (joined tuple lastCount).length ≤ (joined tuple count).length) :
    (copiedTuples before tuple size lastSize count lastCount).write true behind =
      ⟨(before ++ joined tuple count ++ behind).length,
        filled size (before ++ joined tuple count ++ behind),
        lastSize.map fun size => filled size (before ++ joined tuple lastCount ++
          (List.replicate ((joined tuple count).length - (joined tuple lastCount).length) '\x00' ++
            behind))⟩ := by
  simp only [copiedTuples, Copying.write, if_true, Option.map_map]
  rw [filled_memcpy_end, ← List.length_append]
  congr 2
  funext size
  have gap : (before ++ joined tuple count).length = (before ++ joined tuple lastCount).length +
      ((joined tuple count).length - (joined tuple lastCount).length) := by
    simp only [List.length_append]
    omega
  simp only [Function.comp_apply]
  rw [gap, filled_memcpy, List.append_assoc]

/-- The commands that are written, and what they are written into. -/
theorem copyCommands_eq {text : List Char} {pLeftBracket pRightBracket : Nat}
    (inside : pRightBracket < text.length) (wide : pLeftBracket < pRightBracket)
    (count lastCount : Int) :
    copyCommands text pLeftBracket pRightBracket (count, lastCount) =
      if wrap 4 (commandSize text pLeftBracket pRightBracket count) < 0 then none
      else some ⟨pLeftBracket, pRightBracket, count, lastCount,
        filled (wrap 4 (commandSize text pLeftBracket pRightBracket count)).toNat
          (repeated text pLeftBracket pRightBracket count.toNat),
        (lastSize (wrap 4 (commandSize text pLeftBracket pRightBracket lastCount)) lastCount).map
          fun size => filled size
            (lastBytes text pLeftBracket pRightBracket count.toNat lastCount.toNat)⟩ := by
  unfold copyCommands
  simp only [wrap_commandSize, lastSize_filled]
  generalize wrap 4 (commandSize text pLeftBracket pRightBracket count) = size
  generalize lastSize (wrap 4 (commandSize text pLeftBracket pRightBracket lastCount)) lastCount =
    last
  by_cases negative : size < 0
  · rw [calloc, if_pos negative, if_pos negative]
  · rw [calloc_filled (by omega), if_neg negative]
    dsimp only
    have tuple : (text.drop pLeftBracket).take (pRightBracket - pLeftBracket + 1) =
      tupleOf text pLeftBracket pRightBracket := rfl
    have wideTuple : 0 < (tupleOf text pLeftBracket pRightBracket).length := by
      simp only [tupleOf, List.length_take, List.length_drop]
      omega
    rw [tuple, before_copied _ (tupleOf text pLeftBracket pRightBracket), copyTuples_copied,
      repeated_eq]
    by_cases none : text.drop (pRightBracket + 1) = []
    · rw [if_pos none]
      simp [copiedTuples, lastBytes, none]
    · rw [if_neg none, behind_copied _ _ _ _ _ (joined_length_le _ (Nat.min_le_left _ _) wideTuple)]
      simp [lastBytes, none]

/-! ## What is in the buffers -/

theorem filled_text {size : Nat} {bytes : List Char} (noZero : '\x00' ∉ bytes) :
    (filled size bytes).text = bytes := by
  rw [Buffer.text, filled, List.takeWhile_eq_self_iff]
  intro character mem
  exact decide_eq_true fun zero => noZero (zero ▸ mem)

/-- A text ends at the first zero that is left between the bytes. -/
theorem filled_text_gap {size : Nat} {bytes : List Char} (noZero : '\x00' ∉ bytes)
    (rest : List Char) : (filled size (bytes ++ '\x00' :: rest)).text = bytes := by
  rw [Buffer.text, filled, List.takeWhile_append_of_pos]
  · simp
  · intro character mem
    exact decide_eq_true fun zero => noZero (zero ▸ mem)

variable {backslash : Bool} {text : List Char} {pLeftBracket pRightBracket : Nat}

theorem joined_mem {tuple : List Char} {count : Nat} {character : Char}
    (mem : character ∈ joined tuple count) : character ∈ tuple ∨ character = ',' := by
  induction count with
  | zero => cases mem
  | succ count ih =>
      cases count with
      | zero =>
          rw [joined_one] at mem
          exact Or.inl mem
      | succ count =>
          rw [joined_succ_succ, List.mem_append, List.mem_append, List.mem_singleton] at mem
          rcases mem with (here | comma) | rest
          · exact Or.inl here
          · exact Or.inr comma
          · exact ih rest

/-- No zero comes into what is copied. -/
theorem before_joined_noZero (noZero : '\x00' ∉ text) (count : Nat) :
    '\x00' ∉ text.take pLeftBracket ++ joined (tupleOf text pLeftBracket pRightBracket) count := by
  rw [List.mem_append, not_or]
  constructor
  · exact fun mem => noZero (List.mem_of_mem_take mem)
  · intro mem
    rcases joined_mem mem with inside | comma
    · exact noZero (List.mem_of_mem_drop (List.mem_of_mem_take inside))
    · cases comma

theorem repeated_noZero (noZero : '\x00' ∉ text) (count : Nat) :
    '\x00' ∉ repeated text pLeftBracket pRightBracket count := by
  rw [repeated_eq, List.mem_append, not_or]
  exact ⟨before_joined_noZero noZero count, fun mem => noZero (List.mem_of_mem_drop mem)⟩

theorem tupleOf_length (inside : pRightBracket < text.length) (wide : pLeftBracket < pRightBracket) :
    (tupleOf text pLeftBracket pRightBracket).length = pRightBracket - pLeftBracket + 1 := by
  simp only [tupleOf, List.length_take, List.length_drop]
  omega

/-- What is written is shorter than its size by one tuple and two characters. -/
theorem repeated_length (inside : pRightBracket < text.length)
    (wide : pLeftBracket < pRightBracket) (count : Nat) :
    ((repeated text pLeftBracket pRightBracket (count + 1)).length : Int) =
      commandSize text pLeftBracket pRightBracket (count + 1 : Nat) -
        (pRightBracket - pLeftBracket + 3) := by
  have joint := joined_length (tupleOf text pLeftBracket pRightBracket) count
  rw [tupleOf_length inside wide] at joint
  rw [repeated_eq, commandSize]
  simp only [List.length_append, List.length_take, List.length_drop]
  zify [wide.le] at joint
  have before : min pLeftBracket text.length = pLeftBracket := by omega
  rw [before]
  push_cast [show pRightBracket + 1 ≤ text.length from inside]
  linarith

/-- A size that is no `int` is cut by so much that the command no longer fits. -/
theorem room_iff {size : Int} (slack : Nat) (nonneg : 0 ≤ size) (small : slack < 2 ^ 32)
    (allocated : 0 ≤ wrap 4 size) :
    size - slack ≤ (wrap 4 size).toNat ↔ size < 2 ^ 31 := by
  have below := wrap_lt 4 size
  have same := wrap_emod 4 size
  constructor
  · intro fits
    by_contra large
    omega
  · intro fits
    rw [wrap_of_range (by omega) (by omega)]
    omega

/-- The last batch is written as it should be where no gap comes between its tuples and the rest. -/
theorem lastBytes_eq {count lastCount : Nat}
    (meets : lastCount = count ∨ lastCount < count ∧ text.drop (pRightBracket + 1) = []) :
    lastBytes text pLeftBracket pRightBracket count lastCount =
      repeated text pLeftBracket pRightBracket lastCount := by
  rw [repeated_eq, lastBytes]
  rcases meets with rfl | ⟨less, none⟩
  · rw [Nat.min_self, Nat.sub_self]
    split_ifs with none
    · rw [none]
    · rfl
  · rw [Nat.min_eq_right less.le, if_pos none, none]

/-- A gap ends the text of the last batch. -/
theorem lastBytes_gap (noZero : '\x00' ∉ text) (size : Nat) {count lastCount : Nat}
    (wide : 0 < (tupleOf text pLeftBracket pRightBracket).length) (less : lastCount < count)
    (behind : text.drop (pRightBracket + 1) ≠ []) :
    (filled size (lastBytes text pLeftBracket pRightBracket count lastCount)).text =
      text.take pLeftBracket ++ joined (tupleOf text pLeftBracket pRightBracket) lastCount := by
  have gap := joined_length_lt (tupleOf text pLeftBracket pRightBracket) less wide
  obtain ⟨zeros, next⟩ : ∃ zeros,
      (joined (tupleOf text pLeftBracket pRightBracket) count).length -
        (joined (tupleOf text pLeftBracket pRightBracket) lastCount).length = zeros + 1 :=
    ⟨_, (Nat.succ_pred_eq_of_pos (by omega)).symm⟩
  rw [lastBytes]
  simp only [Nat.min_eq_right less.le, if_neg behind, next, List.replicate_succ]
  rw [List.cons_append, filled_text_gap (before_joined_noZero noZero lastCount)]

/-- Otherwise its text ends before the rest, or has fewer tuples. -/
theorem lastBytes_text (scanned : Scanned text pLeftBracket pRightBracket)
    (noZero : '\x00' ∉ text) {size count lastCount : Nat}
    (apart : ¬ (lastCount = count ∨ lastCount < count ∧ text.drop (pRightBracket + 1) = [])) :
    (filled size (lastBytes text pLeftBracket pRightBracket count lastCount)).text ≠
      repeated text pLeftBracket pRightBracket lastCount := by
  obtain ⟨inside, -⟩ := List.getElem?_eq_some_iff.mp scanned.closing
  have wideTuple : 0 < (tupleOf text pLeftBracket pRightBracket).length := by
    rw [tupleOf_length inside scanned.wide]
    omega
  rw [not_or, not_and] at apart
  rcases Nat.lt_or_gt_of_ne apart.1 with less | more
  · have behind := apart.2 less
    rw [lastBytes_gap noZero size wideTuple less behind, repeated_eq]
    intro same
    exact behind (List.self_eq_append_right.mp same)
  · have fewer := joined_length_lt (tupleOf text pLeftBracket pRightBracket) more wideTuple
    have whole : lastBytes text pLeftBracket pRightBracket count lastCount =
        repeated text pLeftBracket pRightBracket count := by
      rw [repeated_eq, lastBytes, Nat.min_eq_left more.le, Nat.sub_self]
      split_ifs with none
      · rw [none]
      · rfl
    rw [whole, filled_text (repeated_noZero noZero count), repeated_eq, repeated_eq]
    intro same
    have lengths := congrArg List.length same
    simp only [List.length_append] at lengths
    omega

/-! ## The condition -/

theorem sqlStep_ne_zero {place : Nat} (counted : sqlStep backslash text place ≠ 0) :
    (contextAt backslash text place).outside := by
  rw [sqlStep] at counted
  split_ifs at counted with outside
  · exact outside
  · exact absurd rfl counted

namespace ValuesTuple

variable (tuple : ValuesTuple backslash text pLeftBracket pRightBracket)
include tuple

theorem outside_left : (contextAt backslash text pLeftBracket).outside := by
  have first := tuple.within (pLeftBracket + 1) (by omega) tuple.wide
  rw [depth_succ _ (le_refl _), depth_self] at first
  exact sqlStep_ne_zero (by omega)

theorem counted_right : sqlStep backslash text pRightBracket ≠ 0 := by
  have last := tuple.within pRightBracket tuple.wide (le_refl _)
  have closed := tuple.closed
  rw [depth_succ _ tuple.wide.le] at closed
  omega

theorem outside_right : (contextAt backslash text pRightBracket).outside :=
  sqlStep_ne_zero tuple.counted_right

theorem ended (scanned : Scanned text pLeftBracket pRightBracket) :
    contextAt backslash text (pRightBracket + 1) = .plain := by
  rw [contextAt_succ scanned.closing]
  exact next_of_outside backslash tuple.outside_right (Or.inr (Or.inl rfl))

/-- Behind its bracket the tuple leaves nothing open. -/
theorem tupleOf_cons (scanned : Scanned text pLeftBracket pRightBracket) :
    ∃ inner, tupleOf text pLeftBracket pRightBracket = '(' :: inner ∧
      contextBehind backslash .plain inner = .plain := by
  obtain ⟨here, opening⟩ := List.getElem?_eq_some_iff.mp scanned.opening
  have cons : tupleOf text pLeftBracket pRightBracket =
      '(' :: (text.drop (pLeftBracket + 1)).take (pRightBracket - pLeftBracket) := by
    rw [tupleOf, List.drop_eq_getElem_cons here, opening, List.take_succ_cons]
  have whole := take_tupleOf text tuple.wide
  rw [cons] at whole
  refine ⟨_, cons, ?_⟩
  generalize (text.drop (pLeftBracket + 1)).take (pRightBracket - pLeftBracket) = inner at whole
  have opened := next_of_outside backslash tuple.outside_left (Or.inl rfl)
  calc contextBehind backslash .plain inner
      = contextBehind backslash (contextAt backslash text pLeftBracket) ('(' :: inner) := by
        rw [contextBehind, contextBehind, List.foldl_cons, opened]
    _ = contextBehind backslash .plain (text.take pLeftBracket ++ '(' :: inner) := by
        rw [contextBehind_append]
        rfl
    _ = contextAt backslash text (pRightBracket + 1) := by
        rw [whole]
        rfl
    _ = .plain := tuple.ended scanned

/-- Every further tuple adds the markers of the first one. -/
theorem repeated_markers (scanned : Scanned text pLeftBracket pRightBracket) (count : Nat) :
    (markersOutside backslash (repeated text pLeftBracket pRightBracket (count + 1))).card =
      (count + 1) * (tupleMarkers backslash text pLeftBracket pRightBracket).card +
        (otherMarkers backslash text pLeftBracket pRightBracket).card := by
  have outside := tuple.outside_left
  have ended := tuple.ended scanned
  obtain ⟨inner, cons, ends⟩ := tuple.tupleOf_cons scanned
  have one := card_tupleMarkers backslash text tuple.wide
  have others := card_otherMarkers backslash text tuple.wide
  rw [cons] at one
  obtain ⟨first, -⟩ := joined_markers ends outside 0
  obtain ⟨all, behind⟩ := joined_markers ends outside count
  rw [joined_one, Nat.zero_add, Nat.one_mul] at first
  rw [card_markersOutside, repeated_eq, cons, markersFrom_append, markersFrom_append,
    contextBehind_append, show contextBehind backslash .plain (text.take pLeftBracket) =
      contextAt backslash text pLeftBracket from rfl, all, behind, others, one, first, ended]
  omega

/-- A command that is copied as a whole fits, and its markers are counted by the tuples. -/
theorem faithfulCommand_iff (scanned : Scanned text pLeftBracket pRightBracket)
    (noZero : '\x00' ∉ text) (short : text.length < 2 ^ 31) {count : Int} (some : 1 ≤ count)
    (allocated : 0 ≤ wrap 4 (commandSize text pLeftBracket pRightBracket count))
    (numOfParamMarkers : Nat) :
    FaithfulCommand backslash text pLeftBracket pRightBracket numOfParamMarkers count
        (filled (wrap 4 (commandSize text pLeftBracket pRightBracket count)).toNat
          (repeated text pLeftBracket pRightBracket count.toNat)) ↔
      commandSize text pLeftBracket pRightBracket count < 2 ^ 31 ∧
        MarkersFit backslash text pLeftBracket pRightBracket numOfParamMarkers count := by
  obtain ⟨inside, -⟩ := List.getElem?_eq_some_iff.mp scanned.closing
  obtain ⟨index, rfl⟩ : ∃ index : Nat, count = (index + 1 : Nat) :=
    ⟨(count - 1).toNat, by omega⟩
  have whole : (filled (wrap 4 (commandSize text pLeftBracket pRightBracket
      (index + 1 : Nat))).toNat (repeated text pLeftBracket pRightBracket (index + 1))).text = _ :=
    filled_text (repeated_noZero noZero (index + 1))
  have length := repeated_length inside scanned.wide index
  have markers := tuple.repeated_markers scanned index
  have nonneg : 0 ≤ commandSize text pLeftBracket pRightBracket (index + 1 : Nat) := by
    have wide := scanned.wide
    rw [commandSize]
    have product : 0 ≤ ((pRightBracket : Int) - pLeftBracket + 2) * (index + 1 : Nat) :=
      Int.mul_nonneg (by omega) (by omega)
    omega
  have room := room_iff (pRightBracket - pLeftBracket + 3) nonneg (by omega) allocated
  have fits : (filled (wrap 4 (commandSize text pLeftBracket pRightBracket
      (index + 1 : Nat))).toNat (repeated text pLeftBracket pRightBracket (index + 1))).inside ↔
      commandSize text pLeftBracket pRightBracket (index + 1 : Nat) < 2 ^ 31 := by
    rw [← room, filled, decide_eq_true_iff]
    have wide := scanned.wide
    omega
  have counted : ((markersOutside backslash
      (repeated text pLeftBracket pRightBracket (index + 1))).card : Int) =
        (index + 1 : Nat) * numOfParamMarkers ↔
      MarkersFit backslash text pLeftBracket pRightBracket numOfParamMarkers (index + 1 : Nat) := by
    rw [markers, MarkersFit]
    push_cast
    rfl
  rw [Int.toNat_natCast]
  constructor
  · rintro ⟨-, counts, room⟩
    rw [whole] at counts
    exact ⟨fits.mp room, counted.mp counts⟩
  · rintro ⟨room, counts⟩
    refine ⟨whole, ?_, fits.mpr room⟩
    rw [whole]
    exact counted.mpr counts

/-- The last batch is as meant when its tuples end with the others, or nothing is behind them. -/
theorem faithfulCommand_last_iff (scanned : Scanned text pLeftBracket pRightBracket)
    (noZero : '\x00' ∉ text) (short : text.length < 2 ^ 31) {count lastCount : Int}
    (room : commandSize text pLeftBracket pRightBracket count < 2 ^ 31) (some : 0 < lastCount)
    (allocated : 0 < wrap 4 (commandSize text pLeftBracket pRightBracket lastCount))
    (numOfParamMarkers : Nat) :
    FaithfulCommand backslash text pLeftBracket pRightBracket numOfParamMarkers lastCount
        (filled (wrap 4 (commandSize text pLeftBracket pRightBracket lastCount)).toNat
          (lastBytes text pLeftBracket pRightBracket count.toNat lastCount.toNat)) ↔
      (lastCount = count ∨ lastCount < count ∧ text.drop (pRightBracket + 1) = []) ∧
        MarkersFit backslash text pLeftBracket pRightBracket numOfParamMarkers lastCount := by
  have counts : (lastCount.toNat = count.toNat ∨
      lastCount.toNat < count.toNat ∧ text.drop (pRightBracket + 1) = []) ↔
        (lastCount = count ∨ lastCount < count ∧ text.drop (pRightBracket + 1) = []) := by
    have equal : lastCount.toNat = count.toNat ↔ lastCount = count := by omega
    have less : lastCount.toNat < count.toNat ↔ lastCount < count := by omega
    rw [equal, less]
  by_cases meets : lastCount = count ∨ lastCount < count ∧ text.drop (pRightBracket + 1) = []
  · have le : lastCount ≤ count := by omega
    have smaller : commandSize text pLeftBracket pRightBracket lastCount < 2 ^ 31 := by
      have wide := scanned.wide
      have product := Int.mul_le_mul_of_nonneg_left le
        (show 0 ≤ (pRightBracket : Int) - pLeftBracket + 2 by omega)
      rw [commandSize] at room ⊢
      omega
    rw [lastBytes_eq (counts.mpr meets),
      tuple.faithfulCommand_iff scanned noZero short some allocated.le]
    exact ⟨fun ⟨_, markers⟩ => ⟨meets, markers⟩, fun ⟨_, markers⟩ => ⟨smaller, markers⟩⟩
  · constructor
    · intro faithful
      exact absurd faithful.text (lastBytes_text scanned noZero (fun same => meets (counts.mp same)))
    · rintro ⟨same, -⟩
      exact absurd same meets

end ValuesTuple

/-- The rewriting of an INSERT leaves the brackets and the tuples it went by. -/
theorem parse_multiInsert {convert stored valid : Bool} {lArraySize : Int}
    {info after : InsertInfo} {command : MultiInsertCommand}
    (returned : parseForMultiInsertCommand convert stored valid lArraySize info text =
      (some command, after)) :
    multiInsert text (parserArraySize valid lArraySize) = some command ∧
      after.iMultiInsert = command.iMultiInsert ∧
      after.iLastBatchMultiInsert = command.iLastBatchMultiInsert := by
  unfold parseForMultiInsertCommand at returned
  generalize getNextWord text 0 = word at returned
  obtain ⟨pToken, pSrc⟩ := word
  dsimp only at returned
  split_ifs at returned
  all_goals first
    | cases returned
    | split at returned
      · cases returned
      · next found =>
          cases returned
          exact ⟨found, rfl, rfl⟩

theorem multiInsert_copied {lArraySize : Int} {command : MultiInsertCommand}
    (rewritten : multiInsert text lArraySize = some command) :
    ∃ pLeftBracket pRightBracket, findTuple text = some (pLeftBracket, pRightBracket) ∧
      1 ≤ (getTotalMultiTuples (countParamMarkers (some text) sqlNtsLen) lArraySize).1 ∧
      copyCommands text pLeftBracket pRightBracket
        (getTotalMultiTuples (countParamMarkers (some text) sqlNtsLen) lArraySize) =
          some command := by
  unfold multiInsert at rewritten
  dsimp only at rewritten
  split at rewritten
  · split at rewritten
    · cases rewritten
    · next pLeftBracket pRightBracket found =>
        split_ifs at rewritten with enough
        exact ⟨pLeftBracket, pRightBracket, found, enough, rewritten⟩
  · cases rewritten

/-- What comes of the rewriting, for the brackets and the tuples it goes by. -/
theorem faithful_iff_rewritable (backslash convert stored valid : Bool) (lArraySize : Int)
    (info : InsertInfo) (text : CommandText) {command : MultiInsertCommand} {after : InsertInfo}
    (returned : parseForMultiInsertCommand convert stored valid lArraySize info text.chars =
      (some command, after)) :
    Faithful backslash text.chars command.pLeftBracket command.pRightBracket command after ↔
      Rewritable backslash text.chars (parserArraySize valid lArraySize) := by
  obtain ⟨text, noZero, short⟩ := text
  dsimp only at returned ⊢
  obtain ⟨rewritten, iMultiInsert, iLastBatchMultiInsert⟩ := parse_multiInsert returned
  obtain ⟨pLeftBracket, pRightBracket, found, enough, copied⟩ := multiInsert_copied rewritten
  have scanned := scanned_of_findTuple found
  obtain ⟨inside, -⟩ := List.getElem?_eq_some_iff.mp scanned.closing
  have fits : Rewritable backslash text (parserArraySize valid lArraySize) ↔
      Fits backslash text pLeftBracket pRightBracket (countParamMarkers (some text) sqlNtsLen)
        (getTotalMultiTuples (countParamMarkers (some text) sqlNtsLen)
          (parserArraySize valid lArraySize)) := by
    constructor
    · exact fun all => all _ _ found
    · intro here pLeft pRight other
      rw [found] at other
      cases other
      exact here
  rw [fits]
  clear fits found rewritten returned
  generalize getTotalMultiTuples (countParamMarkers (some text) sqlNtsLen)
    (parserArraySize valid lArraySize) = tuples at *
  obtain ⟨count, lastCount⟩ := tuples
  rw [copyCommands_eq inside scanned.wide] at copied
  split_ifs at copied with negative
  cases copied
  dsimp only at *
  have allocated := Int.not_lt.mp negative
  have last : ∀ {buffer}, ((lastSize (wrap 4 (commandSize text pLeftBracket pRightBracket
      lastCount)) lastCount).map fun size => filled size (lastBytes text pLeftBracket pRightBracket
        count.toNat lastCount.toNat)) = some buffer ↔
      (0 < lastCount ∧ 0 < wrap 4 (commandSize text pLeftBracket pRightBracket lastCount)) ∧
        buffer = filled (wrap 4 (commandSize text pLeftBracket pRightBracket lastCount)).toNat
          (lastBytes text pLeftBracket pRightBracket count.toNat lastCount.toNat) := by
    intro buffer
    rw [lastSize]
    split_ifs with some
    · simp only [Option.map_some, Option.some.injEq, some, true_and, eq_comm]
    · simp [some]
  constructor
  · rintro ⟨tuple, all, lasts⟩
    rw [iMultiInsert, tuple.faithfulCommand_iff scanned noZero short enough allocated] at all
    obtain ⟨keyword, within, closed⟩ := scanned.valuesTuple_iff.mp tuple
    refine ⟨keyword, within, closed, all.1, all.2, ?_⟩
    intro some size
    have faithful := lasts _ (last.mpr ⟨⟨some, size⟩, rfl⟩)
    rw [iLastBatchMultiInsert] at faithful
    exact (tuple.faithfulCommand_last_iff scanned noZero short all.1 some size _).mp faithful
  · rintro ⟨keyword, within, closed, room, markers, lasts⟩
    have tuple := scanned.valuesTuple_iff.mpr ⟨keyword, within, closed⟩
    refine ⟨tuple, ?_, ?_⟩
    · rw [iMultiInsert]
      exact (tuple.faithfulCommand_iff scanned noZero short enough allocated _).mpr ⟨room, markers⟩
    · intro buffer here
      obtain ⟨⟨some, size⟩, rfl⟩ := last.mp here
      rw [iLastBatchMultiInsert]
      exact (tuple.faithfulCommand_last_iff scanned noZero short room some size _).mpr
        (lasts some size)

/--
An INSERT is rewritten as it should be exactly when the brackets seen apart cancel,
nothing is behind the tuple of a shorter last batch, the markers are those of the
tuples, and the sizes are those of an `int`.
-/
theorem multiInsert_faithful_iff (backslash convert stored valid : Bool) (lArraySize : Int)
    (info : InsertInfo) (text : CommandText) {command : MultiInsertCommand} {after : InsertInfo}
    (returned : parseForMultiInsertCommand convert stored valid lArraySize info text.chars =
      (some command, after)) :
    Faithful backslash text.chars command.pLeftBracket command.pRightBracket command after ↔
      Rewritable backslash text.chars (parserArraySize valid lArraySize) :=
  faithful_iff_rewritable backslash convert stored valid lArraySize info text returned

/-- An INSERT of one column, with nothing behind its tuple. -/
def oneColumn : CommandText where
  chars := "insert into t values (?)".toList
  noZero := by decide
  short := by decide

theorem multiInsert_faithful_oneColumn :
    ∃ command after, parseForMultiInsertCommand true false true 3 ⟨none, 0, 0, 0⟩ oneColumn.chars =
        (some command, after) ∧
      (Faithful false oneColumn.chars command.pLeftBracket command.pRightBracket command after ↔
        Rewritable false oneColumn.chars 3) := by
  have rewritten : (parseForMultiInsertCommand true false true 3 ⟨none, 0, 0, 0⟩
      oneColumn.chars).1.isSome := by
    decide
  obtain ⟨command, here⟩ := Option.isSome_iff_exists.mp rewritten
  have returned : parseForMultiInsertCommand true false true 3 ⟨none, 0, 0, 0⟩ oneColumn.chars =
      (some command, (parseForMultiInsertCommand true false true 3 ⟨none, 0, 0, 0⟩
        oneColumn.chars).2) :=
    Prod.ext here rfl
  exact ⟨_, _, returned, multiInsert_faithful_iff false true false true 3 _ oneColumn returned⟩

def endedInsert : CommandText where
  chars := "insert into t values (?);".toList
  noZero := by decide
  short := by decide

theorem endedInsert_tuple : findTuple endedInsert.chars = some (21, 23) := by decide

/-- Forty thousand rows of it are two batches. -/
theorem endedInsert_rewritten : ∃ command size,
    parseForMultiInsertCommand true false true 40000 ⟨none, 0, 0, 0⟩ endedInsert.chars =
        (some command, ⟨some endedInsert.chars, 40000, 32767, 7233⟩) ∧
      command.pLastBatchMultiInsertCmd =
        some (filled size (lastBytes endedInsert.chars 21 23 32767 7233)) := by
  have count : countParamMarkers (some endedInsert.chars) sqlNtsLen = 1 := by decide
  have tuples : getTotalMultiTuples 1 40000 = (32767, 7233) := by decide
  have word : getNextWord endedInsert.chars 0 = (0, 6) := by decide
  have insert : ((endedInsert.chars.drop 0).take (6 - 0)).map Char.toLower =
      insertWord.map Char.toLower := by decide
  have scanned := scanned_of_findTuple endedInsert_tuple
  have copied := copyCommands_eq (show 23 < endedInsert.chars.length by decide) scanned.wide
    32767 7233
  rw [if_neg (by decide), lastSize, if_pos (by decide), Option.map_some] at copied
  generalize filled _ (repeated endedInsert.chars 21 23 _) = pMultiInsertCmd at copied
  generalize (wrap 4 (commandSize endedInsert.chars 21 23 7233)).toNat = size at copied
  have rewritten : multiInsert endedInsert.chars 40000 =
      copyCommands endedInsert.chars 21 23 (32767, 7233) := by
    unfold multiInsert
    simp only [count, endedInsert_tuple, tuples]
    rw [if_pos (by decide), if_pos (by decide)]
  have parsed : ∀ command, multiInsert endedInsert.chars 40000 = some command →
      parseForMultiInsertCommand true false true 40000 ⟨none, 0, 0, 0⟩ endedInsert.chars =
        (some command, ⟨some endedInsert.chars, 40000, command.iMultiInsert,
          command.iLastBatchMultiInsert⟩) := by
    intro command here
    unfold parseForMultiInsertCommand
    simp only [word, show parserArraySize true 40000 = 40000 by decide]
    rw [if_pos trivial, if_pos (by decide), if_pos insert, if_pos (by decide), here]
    rfl
  exact ⟨_, size, parsed _ (rewritten.trans copied), rfl⟩

/-- The last batch of forty thousand rows loses the semicolon behind its tuples. -/
theorem multiInsert_faithful_wrong :
    ¬ ∀ (text : CommandText) (lArraySize : Int) (command : MultiInsertCommand)
      (after : InsertInfo), 1 < lArraySize →
      parseForMultiInsertCommand true false true lArraySize ⟨none, 0, 0, 0⟩ text.chars =
        (some command, after) →
      ∃ backslash pLeftBracket pRightBracket,
        Faithful backslash text.chars pLeftBracket pRightBracket command after := by
  intro every
  obtain ⟨command, size, returned, lastCommand⟩ := endedInsert_rewritten
  obtain ⟨backslash, pLeftBracket, pRightBracket, tuple, -, last⟩ :=
    every endedInsert 40000 _ _ (by decide) returned
  have text := (last _ lastCommand).text
  rw [lastBytes_gap endedInsert.noZero _ (by decide) (by decide) (by decide)] at text
  have wide := tuple.wide
  have inside : pRightBracket < endedInsert.chars.length := by
    have counted := tuple.counted_right
    by_contra beyond
    rw [sqlStep, bracketStep, List.getElem?_eq_none (by omega)] at counted
    simp at counted
  have narrow : (tupleOf endedInsert.chars pLeftBracket pRightBracket).length =
    pRightBracket - pLeftBracket + 1 := tupleOf_length inside wide
  have lengths := congrArg List.length text
  have written : (joined (tupleOf endedInsert.chars 21 23) 7233).length + 1 = 7233 * (_ + 1) :=
    joined_length (tupleOf endedInsert.chars 21 23) 7232
  have meant : (joined (tupleOf endedInsert.chars pLeftBracket pRightBracket) 7233).length + 1 =
      7233 * (_ + 1) :=
    joined_length (tupleOf endedInsert.chars pLeftBracket pRightBracket) 7232
  rw [repeated_eq, show Int.toNat 7233 = 7233 from rfl] at lengths
  simp only [List.length_append, List.length_take, List.length_drop] at lengths
  rw [narrow] at meant
  have three : (tupleOf endedInsert.chars 21 23).length = 3 := by decide
  have all : endedInsert.chars.length = 25 := by decide
  rw [three] at written
  rw [all] at lengths inside
  omega

end RedshiftOdbc.Execute

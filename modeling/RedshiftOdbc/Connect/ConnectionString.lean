import RedshiftOdbc.Convert.Types
import RedshiftOdbc.Library.Scanf
import Mathlib.Data.List.DropRight

/-!
# Connection strings

`parseConnectionString` reads a text of keys and values into a map whose keys are
compared without case.  A value is quoted by braces, a closing brace in it is
doubled.  The length of a key is counted in sixteen bits, every value is trimmed
after it was unquoted, and the results are kept in a cache.
-/

namespace RedshiftOdbc.Connect

open RedshiftOdbc.Scanf RedshiftOdbc.Convert

/-! ## Blanks -/

def rtrim (s : List Char) : List Char := s.rdropWhile isSpace

def ltrim (s : List Char) : List Char := s.dropWhile isSpace

def trim (s : List Char) : List Char := ltrim (rtrim s)

def Blank (s : List Char) : Prop := ∀ character ∈ s, isSpace character = true

/-- The text does not go on with such a character. -/
def StartsOff (p : Char → Bool) (s : List Char) : Prop :=
  ∀ character ∈ s.head?, p character = false

theorem startsOff_dropWhile (p : Char → Bool) (s : List Char) : StartsOff p (s.dropWhile p) := by
  intro character member
  have stops := List.head?_dropWhile_not p s
  rw [Option.mem_def.mp member] at stops
  simpa using stops

theorem blank_nil : Blank [] := by simp [Blank]

theorem dropWhile_startsOff {p : Char → Bool} {s : List Char} (off : StartsOff p s) :
    s.dropWhile p = s := by
  cases s with
  | nil => rfl
  | cons character rest =>
      have here : p character = false := off character rfl
      rw [List.dropWhile_cons_of_neg (by simp [here])]

/-- Blanks in front of something else are skipped. -/
theorem skipSpace_blank {blanks s : List Char} (blank : Blank blanks) (off : StartsOff isSpace s) :
    skipSpace (blanks ++ s) = s := by
  rw [skipSpace, List.dropWhile_append_of_pos blank, dropWhile_startsOff off]

theorem skipSpace_split (s : List Char) :
    ∃ blanks, Blank blanks ∧ s = blanks ++ skipSpace s ∧ StartsOff isSpace (skipSpace s) := by
  refine ⟨s.takeWhile isSpace, ?_, List.takeWhile_append_dropWhile.symm, startsOff_dropWhile _ _⟩
  intro character member
  exact List.mem_takeWhile_imp member

theorem skipSpace_length (s : List Char) : (skipSpace s).length ≤ s.length :=
  (List.dropWhile_sublist isSpace).length_le

theorem trim_sublist (s : List Char) : (trim s).Sublist s :=
  (List.dropWhile_sublist isSpace).trans (List.rdropWhile_prefix isSpace s).sublist

/-- A text that starts with something else than a blank is not trimmed away. -/
theorem trim_ne_nil {s : List Char} (nonempty : s ≠ []) (off : StartsOff isSpace s) : trim s ≠ [] := by
  intro gone
  obtain ⟨first, rest, rfl⟩ := List.exists_cons_of_ne_nil nonempty
  have plain : isSpace first = false := off first rfl
  have blank := List.dropWhile_eq_nil_iff.mp gone
  obtain ⟨dropped, whole⟩ := List.rdropWhile_prefix isSpace (first :: rest)
  cases kept : rtrim (first :: rest) with
  | nil =>
      have blanks := List.rdropWhile_eq_nil_iff.mp kept first (by simp)
      simp [plain] at blanks
  | cons head tail =>
      have same : head = first := by
        rw [rtrim] at kept
        rw [kept] at whole
        exact (List.cons.inj whole).1
      have blanks := blank head (by simp [kept])
      simp [same, plain] at blanks

/-! ## The map -/

def toUpper (s : List Char) : List Char := s.map Char.toUpper

/-- The entries of a map, in the order of their first appearance. -/
abbrev StringMap := List (List Char × List Char)

/-- `res[key] = value`: an entry keeps the spelling of its key. -/
def StringMap.set (key value : List Char) : StringMap → StringMap
  | [] => [(key, value)]
  | (name, old) :: rest =>
      if toUpper name = toUpper key then (name, value) :: rest
      else (name, old) :: StringMap.set key value rest

def StringMap.lookup (key : List Char) : StringMap → Option (List Char)
  | [] => none
  | (name, value) :: rest =>
      if toUpper name = toUpper key then some value else StringMap.lookup key rest

/-! ## Parsing -/

/-- Measuring the value up to `charToLook`, with what follows it. -/
def measureValue (charToLook : Char) : List Char → List Char × List Char
  | [] => ([], [])
  | [character] => if charToLook = character then ([], [character]) else ([character], [])
  | character :: next :: rest =>
      if charToLook = '}' ∧ character = '}' ∧ next = '}' then
        ('}' :: (measureValue charToLook rest).1, (measureValue charToLook rest).2)
      else if charToLook = character then ([], character :: next :: rest)
      else (character :: (measureValue charToLook (next :: rest)).1,
        (measureValue charToLook (next :: rest)).2)

def keyLimit : Nat := 2 ^ 16

/-- The value at a position, and what follows it; none for an error. -/
def parseValue (currentPos : List Char) : Option (List Char × List Char) :=
  match currentPos with
  | '{' :: inside =>
      match measureValue '}' inside with
      | (_, []) => none
      | (value, _ :: rest) => some (trim value, rest)
  | plain => some (trim (measureValue ';' plain).1, (measureValue ';' plain).2)

def keyLength (keyIndex : List Char) : Nat := (keyIndex.takeWhile (· ≠ '=')).length % keyLimit

/-- The key and the value at a position, and what follows them; none for an error. -/
def parsePair (keyIndex : List Char) : Option (List Char × List Char × List Char) :=
  match keyIndex.dropWhile (· ≠ '=') with
  | [] => none
  | _ :: behind =>
      if keyLength keyIndex = 0 then none
      else (parseValue (skipSpace behind)).map fun (value, rest) =>
        (trim (keyIndex.take (keyLength keyIndex)), value, rest)

/-- Behind a pair blanks, one semicolon and more blanks are skipped. -/
def behindPair (rest : List Char) : List Char :=
  match skipSpace rest with
  | ';' :: more => skipSpace more
  | more => skipSpace more

theorem measureValue_length (charToLook : Char) (s : List Char) :
    (measureValue charToLook s).2.length ≤ s.length := by
  fun_induction measureValue charToLook s with
  | case1 => simp
  | case2 => simp
  | case3 => simp
  | case4 _ _ _ _ ih => simp; omega
  | case5 => simp
  | case6 _ _ _ _ _ ih => simp at ih ⊢; omega

theorem behindPair_length (rest : List Char) : (behindPair rest).length ≤ rest.length := by
  have first := skipSpace_length rest
  rw [behindPair]
  split
  · rename_i more same
    rw [same] at first
    have second := skipSpace_length more
    simp only [List.length_cons] at first
    omega
  · exact (skipSpace_length _).trans first

theorem parseValue_length {currentPos value rest : List Char}
    (parsed : parseValue currentPos = some (value, rest)) : rest.length ≤ currentPos.length := by
  unfold parseValue at parsed
  split at parsed
  · rename_i inside
    have measured := measureValue_length '}' inside
    split at parsed
    · cases parsed
    · rename_i closing more split
      rw [split, List.length_cons] at measured
      cases parsed
      rw [List.length_cons]
      omega
  · cases parsed
    exact measureValue_length ';' currentPos

theorem parsePair_length {keyIndex key value rest : List Char}
    (parsed : parsePair keyIndex = some (key, value, rest)) : rest.length < keyIndex.length := by
  have whole := (List.dropWhile_sublist (· ≠ '=') (l := keyIndex)).length_le
  unfold parsePair at parsed
  split at parsed
  · cases parsed
  · rename_i sign behind found
    rw [found, List.length_cons] at whole
    split at parsed
    · cases parsed
    · obtain ⟨⟨taken, more⟩, read, same⟩ := Option.map_eq_some_iff.mp parsed
      have shorter := (parseValue_length read).trans (skipSpace_length behind)
      cases same
      omega

/-- The scan of a text; none for an error. -/
def parseLoop (currentPos : List Char) (res : StringMap) : Option StringMap :=
  if currentPos = [] then some res
  else
    match _same : skipSpace currentPos with
    | ';' :: rest => parseLoop rest res
    | keyIndex =>
        match _parsed : parsePair keyIndex with
        | none => none
        | some (key, value, rest) => parseLoop (behindPair rest) (res.set key value)
termination_by currentPos.length
decreasing_by
  · have shorter := skipSpace_length currentPos
    rw [_same, List.length_cons] at shorter
    omega
  · have shorter := skipSpace_length currentPos
    rw [_same] at shorter
    have first := parsePair_length _parsed
    have second := behindPair_length rest
    omega

abbrev Cache := List Char → Option StringMap

def parseConnectionString (cache : Cache) (connStr : List Char) : StringMap × Cache :=
  match cache connStr with
  | some res => (res, cache)
  | none =>
      match parseLoop (cString connStr) [] with
      | none => ([], cache)
      | some res => (res, Function.update cache connStr (some res))

/-- The cache behind a sequence of calls. -/
def cacheBehind (calls : List (List Char)) : Cache :=
  calls.foldl (fun cache connStr => (parseConnectionString cache connStr).2) fun _ => none

/-! ## What a text says -/

/-- A pair as it is written: the text in front of the sign, and the value with its
quotes undone. -/
structure Pair where
  written : List Char
  value : List Char
  braced : Bool
  deriving DecidableEq, Repr

namespace Pair

def key (pair : Pair) : List Char := trim pair.written

/-- Braces keep the blanks of a value. -/
def given (pair : Pair) : List Char := if pair.braced then pair.value else trim pair.value

def Kept (pair : Pair) : Prop :=
  trim (pair.written.take (pair.written.length % keyLimit)) = pair.key

instance (pair : Pair) : Decidable pair.Kept := inferInstanceAs (Decidable (_ = _))

end Pair

def double (value : List Char) : List Char :=
  value.flatMap fun character => if character = '}' then ['}', '}'] else [character]

/-- How the value of a pair is written in front of a rest. -/
inductive WritesValue : Pair → List Char → List Char → Prop
  | plain {written value rest : List Char} (noEnd : ';' ∉ value)
      (start : StartsOff (fun character => isSpace character || character == '{') value)
      (ends : rest = [] ∨ rest.head? = some ';') :
      WritesValue ⟨written, value, false⟩ value rest
  | braced {written value rest : List Char} (closes : rest.head? ≠ some '}') :
      WritesValue ⟨written, value, true⟩ ('{' :: double value ++ ['}']) rest

structure IsWritten (written : List Char) : Prop where
  nonempty : written ≠ []
  start : StartsOff (fun character => isSpace character || character == ';') written
  noSign : '=' ∉ written

/-- A text says some pairs; the flag tells that it ends in blanks where a pair could
start. -/
inductive Reads : List Char → List Pair → Bool → Prop
  | done : Reads [] [] false
  | blanks {blanks : List Char} (nonempty : blanks ≠ []) (blank : Blank blanks) : Reads blanks [] true
  | empty {blanks text : List Char} {pairs : List Pair} {dangling : Bool} (blank : Blank blanks)
      (more : Reads text pairs dangling) : Reads (blanks ++ ';' :: text) pairs dangling
  | pair {blanks gap valueText rest : List Char} {pairs : List Pair} {dangling : Bool} {pair : Pair}
      (blank : Blank blanks) (written : IsWritten pair.written) (gapBlank : Blank gap)
      (value : WritesValue pair valueText rest) (more : Reads (behindPair rest) pairs dangling) :
      Reads (blanks ++ (pair.written ++ '=' :: (gap ++ (valueText ++ rest)))) (pair :: pairs) dangling

def lastPair (key : List Char) : List Pair → Option Pair
  | [] => none
  | pair :: pairs =>
      match lastPair key pairs with
      | some last => some last
      | none => if toUpper pair.key = toUpper key then some pair else none

def Complete (res : StringMap) (pairs : List Pair) : Prop :=
  ∀ key, res.lookup key = (lastPair key pairs).map Pair.given

/-! ## Reading back -/

theorem startsOff_nil (p : Char → Bool) : StartsOff p [] := by
  intro character member
  cases member

theorem startsOff_append {p : Char → Bool} {s rest : List Char} (off : StartsOff p s)
    (behind : s = [] → StartsOff p rest) : StartsOff p (s ++ rest) := by
  cases s with
  | nil => exact behind rfl
  | cons first tail => exact off

theorem startsOff_head {p : Char → Bool} {rest : List Char} {head : Char}
    (ends : rest = [] ∨ rest.head? = some head) (other : p head = false) : StartsOff p rest := by
  intro character member
  rcases ends with rfl | starts
  · cases member
  · rw [starts] at member
    cases member
    exact other

theorem startsOff_mono {p q : Char → Bool} {s : List Char}
    (weaker : ∀ character, q character = true → p character = true) (off : StartsOff p s) :
    StartsOff q s := by
  intro character member
  cases held : q character with
  | false => rfl
  | true =>
      have other := off character member
      rw [weaker character held] at other
      exact other

@[simp]
theorem double_nil : double [] = [] := rfl

@[simp]
theorem double_cons (character : Char) (value : List Char) :
    double (character :: value) =
      (if character = '}' then ['}', '}'] else [character]) ++ double value := rfl

theorem measureValue_plain {value rest : List Char} (noEnd : ';' ∉ value)
    (ends : rest = [] ∨ rest.head? = some ';') : measureValue ';' (value ++ rest) = (value, rest) := by
  induction value with
  | nil =>
      rcases rest with _ | ⟨first, _ | ⟨second, more⟩⟩
      · rfl
      · simp at ends
        simp [measureValue, ends]
      · simp at ends
        simp [measureValue, ends]
  | cons character value ih =>
      obtain ⟨here, later⟩ := not_or.mp (fun member => noEnd (List.mem_cons.mpr member))
      have tail := ih later
      cases joined : value ++ rest with
      | nil =>
          obtain ⟨rfl, rfl⟩ := List.append_eq_nil_iff.mp joined
          simp [measureValue, here]
      | cons next more =>
          rw [joined] at tail
          simp [measureValue, here, joined, tail]

theorem measureValue_braced {value rest : List Char} (closes : rest.head? ≠ some '}') :
    measureValue '}' (double value ++ '}' :: rest) = (value, '}' :: rest) := by
  induction value with
  | nil =>
      rcases rest with _ | ⟨first, more⟩
      · rfl
      · have other : first ≠ '}' := by simpa using closes
        simp [measureValue, other]
  | cons character value ih =>
      by_cases brace : character = '}'
      · simp [brace, measureValue, ih]
      · cases joined : double value ++ '}' :: rest with
        | nil => simp at joined
        | cons next more =>
            rw [joined] at ih
            simp [brace, measureValue, joined, ih, Ne.symm brace]

theorem WritesValue.startsOff {pair : Pair} {valueText rest : List Char}
    (value : WritesValue pair valueText rest) : StartsOff isSpace (valueText ++ rest) := by
  cases value with
  | plain noEnd start ends =>
      apply startsOff_append
      · exact startsOff_mono (fun character held => by simp [held]) start
      · intro _
        exact startsOff_head ends (by decide)
  | braced closes =>
      intro character member
      cases member
      decide

theorem parseValue_written {pair : Pair} {valueText rest : List Char}
    (value : WritesValue pair valueText rest) :
    parseValue (valueText ++ rest) = some (trim pair.value, rest) := by
  cases value with
  | plain noEnd start ends =>
      have unbraced : StartsOff (· == '{') (valueText ++ rest) := by
        apply startsOff_append
        · exact startsOff_mono (fun character held => by simp_all) start
        · intro _
          exact startsOff_head ends (by decide)
      have measured := measureValue_plain noEnd ends
      unfold parseValue
      split
      · rename_i inside same
        rw [same] at unbraced
        exact absurd (unbraced '{' rfl) (by decide)
      · simp [measured]
  | braced closes =>
      simp [parseValue, measureValue_braced closes]

theorem parsePair_written {pair : Pair} {gap valueText rest : List Char}
    (written : IsWritten pair.written) (gapBlank : Blank gap)
    (value : WritesValue pair valueText rest) :
    parsePair (pair.written ++ '=' :: (gap ++ (valueText ++ rest))) =
      if pair.written.length % keyLimit = 0 then none
      else some (trim (pair.written.take (pair.written.length % keyLimit)), trim pair.value, rest) := by
  have unsigned : ∀ character ∈ pair.written, decide (character ≠ '=') = true := by
    intro character member
    have other : character ≠ '=' := fun same => written.noSign (same ▸ member)
    simpa using other
  have counted : keyLength (pair.written ++ '=' :: (gap ++ (valueText ++ rest))) =
      pair.written.length % keyLimit := by
    rw [keyLength, List.takeWhile_append_of_pos unsigned]
    simp
  have signed : (pair.written ++ '=' :: (gap ++ (valueText ++ rest))).dropWhile (· ≠ '=') =
      '=' :: (gap ++ (valueText ++ rest)) := by
    rw [List.dropWhile_append_of_pos unsigned]
    simp
  have kept : pair.written.length % keyLimit ≤ pair.written.length := Nat.mod_le _ _
  rw [parsePair, signed, counted]
  simp only [skipSpace_blank gapBlank value.startsOff, parseValue_written value, Option.map_some,
    List.take_append_of_le_length kept]

theorem parseLoop_skip {currentPos rest : List Char} {res : StringMap}
    (found : skipSpace currentPos = ';' :: rest) : parseLoop currentPos res = parseLoop rest res := by
  rw [parseLoop]
  split
  · rename_i same
    rw [same] at found
    cases found
  · split
    · rename_i more same
      rw [same] at found
      cases found
      rfl
    · rename_i other
      exact absurd found (other rest)

theorem parseLoop_pair {currentPos : List Char} {res : StringMap} (nonempty : currentPos ≠ [])
    (off : StartsOff (· == ';') (skipSpace currentPos)) :
    parseLoop currentPos res =
      match parsePair (skipSpace currentPos) with
      | none => none
      | some (key, value, rest) => parseLoop (behindPair rest) (res.set key value) := by
  rw [parseLoop, if_neg nonempty]
  split
  · rename_i more same
    rw [same] at off
    exact absurd (off ';' rfl) (by decide)
  · rename_i other
    split <;> rename_i parsed <;> rw [parsed]

/-- The scan stores the pairs of a text with what the counter keeps of their keys. -/
def stored (pairs : List Pair) (res : StringMap) : StringMap :=
  pairs.foldl (fun res pair =>
    res.set (trim (pair.written.take (pair.written.length % keyLimit))) (trim pair.value)) res

theorem parseLoop_reads {text : List Char} {pairs : List Pair} {dangling : Bool}
    (reads : Reads text pairs dangling) (res : StringMap) :
    parseLoop text res =
      if dangling = true ∨ ∃ pair ∈ pairs, pair.written.length % keyLimit = 0 then none
      else some (stored pairs res) := by
  induction reads generalizing res with
  | done => rw [parseLoop]; simp [stored]
  | blanks nonempty blank =>
      have skipped := skipSpace_blank blank (startsOff_nil isSpace)
      rw [List.append_nil] at skipped
      rw [parseLoop_pair nonempty (by rw [skipped]; exact startsOff_nil _), skipped]
      simp [parsePair]
  | empty blank more ih =>
      rw [parseLoop_skip (skipSpace_blank blank (startsOff_head (.inr rfl) (by decide)))]
      exact ih res
  | @pair blanks gap valueText rest pairs dangling pair blank written gapBlank value more ih =>
      have plain : ∀ p : Char → Bool, (∀ character, p character = true →
          (isSpace character || character == ';') = true) →
          StartsOff p (pair.written ++ '=' :: (gap ++ (valueText ++ rest))) := by
        intro p weaker
        exact startsOff_append (startsOff_mono weaker written.start)
          (fun empty => absurd empty written.nonempty)
      have skipped := skipSpace_blank blank (plain isSpace (fun _ held => by simp [held]))
      have unended := plain (· == ';') (fun _ held => by simp_all)
      rw [parseLoop_pair (by simp) (by rw [skipped]; exact unended), skipped,
        parsePair_written written gapBlank value]
      by_cases lost : pair.written.length % keyLimit = 0
      · simp [lost]
      · simp only [lost, if_false]
        rw [ih]
        simp [lost, stored]

/-! ## What was read -/

theorem measureValue_semicolon {s value rest : List Char}
    (measured : measureValue ';' s = (value, rest)) :
    s = value ++ rest ∧ ';' ∉ value ∧ (rest = [] ∨ rest.head? = some ';') := by
  fun_induction measureValue ';' s generalizing value rest with
  | case1 => cases measured; simp
  | case2 => cases measured; simp
  | case3 character other => cases measured; simp [other]
  | case4 _ _ _ braces => simp at braces
  | case5 => cases measured; simp
  | case6 character next more _ other ih =>
      cases measured
      obtain ⟨whole, noEnd, ends⟩ := ih rfl
      refine ⟨?_, ?_, ends⟩
      · rw [List.cons_append, ← whole]
      · simp [other, noEnd]

theorem measureValue_brace {s value rest : List Char} {last : Char}
    (measured : measureValue '}' s = (value, last :: rest)) :
    last = '}' ∧ s = double value ++ '}' :: rest ∧ rest.head? ≠ some '}' := by
  fun_induction measureValue '}' s generalizing value with
  | case1 => cases measured
  | case2 => cases measured; simp_all
  | case3 => cases measured
  | case4 character next more braces ih =>
      obtain ⟨rfl, left⟩ := Prod.mk.inj measured
      obtain ⟨_, rfl, rfl⟩ := braces
      obtain ⟨closing, whole, closes⟩ := ih (Prod.ext rfl left)
      refine ⟨closing, ?_, closes⟩
      rw [double_cons, List.append_assoc, ← whole]
      simp
  | case5 => cases measured; simp_all
  | case6 character next more _ other ih =>
      obtain ⟨rfl, left⟩ := Prod.mk.inj measured
      obtain ⟨closing, whole, closes⟩ := ih (Prod.ext rfl left)
      refine ⟨closing, ?_, closes⟩
      rw [double_cons, List.append_assoc, ← whole]
      simp [Ne.symm other]

theorem parseValue_reads (written : List Char) {currentPos value rest : List Char}
    (start : StartsOff isSpace currentPos) (parsed : parseValue currentPos = some (value, rest)) :
    ∃ pair valueText, pair.written = written ∧ WritesValue pair valueText rest ∧
      currentPos = valueText ++ rest := by
  unfold parseValue at parsed
  split at parsed
  · rename_i inside
    split at parsed
    · cases parsed
    · rename_i decoded closing more measured
      obtain ⟨rfl, whole, closes⟩ := measureValue_brace measured
      cases parsed
      exact ⟨⟨written, decoded, true⟩, _, rfl, .braced closes, by simp [whole]⟩
  · rename_i unbraced
    cases measured : measureValue ';' currentPos with
    | mk decoded more =>
        rw [measured] at parsed
        obtain ⟨whole, noEnd, ends⟩ := measureValue_semicolon measured
        cases parsed
        refine ⟨⟨written, decoded, false⟩, decoded, rfl, .plain noEnd ?_ ends, whole⟩
        intro character member
        cases decoded with
        | nil => cases member
        | cons first others =>
            cases member
            have spaceless := start character (by rw [whole]; rfl)
            have other : character ≠ '{' := by
              rintro rfl
              exact unbraced _ whole
            simp [spaceless, other]

theorem parsePair_reads {keyIndex key value rest : List Char}
    (start : StartsOff (fun character => isSpace character || character == ';') keyIndex)
    (parsed : parsePair keyIndex = some (key, value, rest)) :
    ∃ (pair : Pair) (gap valueText : List Char), IsWritten pair.written ∧ Blank gap ∧
      WritesValue pair valueText rest ∧
      keyIndex = pair.written ++ '=' :: (gap ++ (valueText ++ rest)) := by
  unfold parsePair at parsed
  split at parsed
  · cases parsed
  · rename_i sign behind found
    have whole := List.takeWhile_append_dropWhile (p := (· ≠ '=')) (l := keyIndex)
    have isSign : sign = '=' := by
      have stops := List.head?_dropWhile_not (· ≠ '=') keyIndex
      rw [found] at stops
      simpa using stops
    rw [found, isSign] at whole
    split at parsed
    · cases parsed
    · rename_i counted
      obtain ⟨⟨taken, more⟩, read, same⟩ := Option.map_eq_some_iff.mp parsed
      obtain ⟨gap, gapBlank, split, off⟩ := skipSpace_split behind
      obtain ⟨pair, valueText, named, writes, text⟩ :=
        parseValue_reads (keyIndex.takeWhile (· ≠ '=')) off read
      have nonempty : pair.written ≠ [] := by
        intro empty
        rw [named] at empty
        exact counted (by rw [keyLength, empty]; rfl)
      cases same
      refine ⟨pair, gap, valueText, ⟨nonempty, ?_, ?_⟩, gapBlank, writes, ?_⟩
      · intro character member
        obtain ⟨first, tail, cut⟩ := List.exists_cons_of_ne_nil nonempty
        rw [cut] at member
        rw [named] at cut
        exact start character (by rw [← whole, cut]; exact member)
      · intro member
        rw [named] at member
        simpa using List.mem_takeWhile_imp member
      · rw [named, ← text, ← split, whole]

theorem reads_of_parseLoop {text : List Char} {res map : StringMap}
    (parsed : parseLoop text res = some map) : ∃ pairs, Reads text pairs false := by
  fun_induction parseLoop text res with
  | case1 => exact ⟨[], .done⟩
  | case2 currentPos res nonempty rest found ih =>
      obtain ⟨pairs, more⟩ := ih parsed
      obtain ⟨blanks, blank, whole, _⟩ := skipSpace_split currentPos
      rw [found] at whole
      exact ⟨pairs, whole ▸ .empty blank more⟩
  | case3 => cases parsed
  | case4 currentPos res nonempty key value rest unended read ih =>
      obtain ⟨pairs, more⟩ := ih parsed
      obtain ⟨blanks, blank, whole, off⟩ := skipSpace_split currentPos
      have start : StartsOff (fun character => isSpace character || character == ';')
          (skipSpace currentPos) := by
        intro character member
        have other : character ≠ ';' := by
          rintro rfl
          obtain ⟨tail, cut⟩ := List.head?_eq_some_iff.mp member
          exact unended tail cut
        simp [off character member, other]
      obtain ⟨pair, gap, valueText, written, gapBlank, writes, text⟩ := parsePair_reads start read
      rw [text] at whole
      exact ⟨pair :: pairs, whole ▸ .pair blank written gapBlank writes more⟩

end RedshiftOdbc.Connect

import RedshiftOdbc.Connect.ConnectionString

/-!
# Well formed connection strings

Semicolons divide a text into items, and an item is empty or a pair.  A key holds no
semicolon, and behind a closing brace only blanks stand in front of the next
semicolon.  A lenient reading lets a key hold semicolons and a pair follow a closing
brace at once: the scan accepts the texts with a lenient reading.
-/

namespace RedshiftOdbc.Connect

open RedshiftOdbc.Scanf RedshiftOdbc.Convert

/-! ## The grammar -/

/-- What stands between two semicolons. -/
inductive Item
  | empty (blanks : List Char)
  | pair (pair : Pair)

def Item.toPair : Item → Option Pair
  | .empty _ => none
  | .pair given => some given

def pairsOf (items : List Item) : List Pair := items.filterMap Item.toPair

structure KeyText (lenient : Bool) (written : List Char) : Prop where
  nonempty : written ≠ []
  start : StartsOff (fun character => isSpace character || character == ';') written
  noSign : '=' ∉ written
  noEnd : lenient = false → ';' ∉ written

inductive ValueText : Pair → List Char → Prop
  | plain {written value : List Char} (noEnd : ';' ∉ value)
      (start : StartsOff (fun character => isSpace character || character == '{') value) :
      ValueText ⟨written, value, false⟩ value
  | braced {written value behind : List Char} (blank : Blank behind) :
      ValueText ⟨written, value, true⟩ ('{' :: double value ++ '}' :: behind)

inductive ItemText (lenient : Bool) : List Char → Item → Prop
  | empty {blanks : List Char} (blank : Blank blanks) : ItemText lenient blanks (.empty blanks)
  | pair {blanks gap valueText : List Char} {pair : Pair} (blank : Blank blanks)
      (key : KeyText lenient pair.written) (gapBlank : Blank gap) (value : ValueText pair valueText) :
      ItemText lenient (blanks ++ (pair.written ++ '=' :: (gap ++ valueText))) (.pair pair)

/-- A text is items with semicolons between them. -/
inductive Says (lenient : Bool) : List Char → List Item → Prop
  | last {text : List Char} {given : Item} (item : ItemText lenient text given) :
      Says lenient text [given]
  | more {text rest : List Char} {given : Item} {items : List Item}
      (item : ItemText lenient text given) (more : Says lenient rest items) :
      Says lenient (text ++ ';' :: rest) (given :: items)
  | joined {text rest : List Char} {pair : Pair} {items : List Item} (leniently : lenient = true)
      (item : ItemText lenient text (.pair pair)) (braced : pair.braced = true)
      (closes : text.getLast? = some '}' → rest.head? ≠ some '}')
      (start : StartsOff (fun character => isSpace character || character == ';') rest)
      (more : Says lenient rest items) : Says lenient (text ++ rest) (.pair pair :: items)

/-- The last item is blanks, and the item in front of it is empty. -/
def EndsInBlanks (items : List Item) : Prop :=
  ∃ front blanks last, items = front ++ [.empty blanks, .empty last] ∧ last ≠ []

@[simp]
theorem pairsOf_nil : pairsOf [] = [] := rfl

@[simp]
theorem pairsOf_empty (blanks : List Char) (items : List Item) :
    pairsOf (.empty blanks :: items) = pairsOf items := rfl

@[simp]
theorem pairsOf_pair (pair : Pair) (items : List Item) :
    pairsOf (.pair pair :: items) = pair :: pairsOf items := rfl

theorem Says.ne_nil {lenient : Bool} {text : List Char} {items : List Item}
    (reading : Says lenient text items) : items ≠ [] := by
  cases reading <;> simp

/-- Without a pair a lenient reading is a strict one. -/
theorem Says.strict {text : List Char} {items : List Item} (reading : Says true text items)
    (none : pairsOf items = []) : Says false text items := by
  induction reading with
  | last item =>
      cases item with
      | empty blank => exact .last (.empty blank)
      | pair => simp at none
  | more item more ih =>
      cases item with
      | empty blank => exact .more (.empty blank) (ih none)
      | pair => simp at none
  | joined => simp at none

theorem isSpace_other {character other : Char} (blank : isSpace character = true)
    (plain : isSpace other = false) : character ≠ other := by
  rintro rfl
  rw [blank] at plain
  cases plain

/-- Unless only blanks stand in front of them, the first sign comes before the first semicolon. -/
theorem Says.sign_first {text : List Char} {items : List Item} (reading : Says false text items) :
    Blank (text.takeWhile fun character => character != '=' && character != ';') ∨
      (text.dropWhile fun character => character != '=' && character != ';').head? = some '=' := by
  have item {text tail : List Char} {given : Item} (item : ItemText false text given)
      (ends : tail = [] ∨ tail.head? = some ';') :
      Blank ((text ++ tail).takeWhile fun character => character != '=' && character != ';') ∨
        ((text ++ tail).dropWhile fun character => character != '=' && character != ';').head? =
          some '=' := by
    have unmarked {blanks : List Char} (blank : Blank blanks) :
        ∀ character ∈ blanks, (character != '=' && character != ';') = true := by
      intro character member
      have sign : character ≠ '=' := isSpace_other (blank character member) (by decide)
      have stop : character ≠ ';' := isSpace_other (blank character member) (by decide)
      simp [sign, stop]
    cases item with
    | empty blank =>
        have stops : tail.takeWhile (fun character => character != '=' && character != ';') = [] := by
          rcases ends with rfl | starts
          · rfl
          · obtain ⟨more, rfl⟩ := List.head?_eq_some_iff.mp starts
            simp
        rw [List.takeWhile_append_of_pos (unmarked blank), stops, List.append_nil]
        exact .inl blank
    | @pair blanks gap valueText pair blank key gapBlank value =>
        have named : ∀ character ∈ pair.written, (character != '=' && character != ';') = true := by
          intro character member
          have sign : character ≠ '=' := fun same => key.noSign (same ▸ member)
          have stop : character ≠ ';' := fun same => key.noEnd rfl (same ▸ member)
          simp [sign, stop]
        right
        rw [List.append_assoc, List.dropWhile_append_of_pos (unmarked blank), List.append_assoc,
          List.dropWhile_append_of_pos named]
        simp
  cases reading with
  | last only => simpa using item only (.inl rfl)
  | more first more => exact item first (.inr rfl)
  | joined leniently => cases leniently

/-! ## Blanks at the end -/

/-- The scan fails at the end of these items; `fresh` tells that no pair stands right in front. -/
def dangling : Bool → List Item → Bool
  | _, [] => false
  | fresh, [.empty blanks] => fresh && !blanks.isEmpty
  | _, .empty _ :: items => dangling true items
  | _, .pair _ :: items => dangling false items

@[simp]
theorem dangling_pair (fresh : Bool) (pair : Pair) (items : List Item) :
    dangling fresh (.pair pair :: items) = dangling false items := by
  cases items <;> rfl

theorem dangling_empty (fresh : Bool) (blanks : List Char) {items : List Item}
    (nonempty : items ≠ []) : dangling fresh (.empty blanks :: items) = dangling true items := by
  cases items with
  | nil => exact absurd rfl nonempty
  | cons item items => rfl

theorem endsInBlanks_cons (item : Item) (items : List Item) :
    EndsInBlanks (item :: items) ↔
      EndsInBlanks items ∨ ∃ blanks last, item = .empty blanks ∧ items = [.empty last] ∧ last ≠ [] := by
  constructor
  · rintro ⟨front, blanks, last, whole, nonempty⟩
    cases front with
    | nil =>
        obtain ⟨rfl, rfl⟩ := List.cons.inj whole
        exact .inr ⟨blanks, last, rfl, rfl, nonempty⟩
    | cons first front => exact .inl ⟨front, blanks, last, (List.cons.inj whole).2, nonempty⟩
  · rintro (⟨front, blanks, last, rfl, nonempty⟩ | ⟨blanks, last, rfl, rfl, nonempty⟩)
    · exact ⟨item :: front, blanks, last, rfl, nonempty⟩
    · exact ⟨[], blanks, last, rfl, nonempty⟩

theorem dangling_iff (fresh : Bool) (items : List Item) :
    dangling fresh items = true ↔
      EndsInBlanks items ∨ fresh = true ∧ ∃ last, items = [.empty last] ∧ last ≠ [] := by
  fun_induction dangling fresh items with
  | case1 => simp [EndsInBlanks]
  | case2 fresh blanks =>
      have single : ¬EndsInBlanks [.empty blanks] := by
        rintro ⟨front, first, last, whole, _⟩
        have two := congrArg List.length whole
        simp at two
      simp [single]
  | case3 fresh blanks items nonempty ih =>
      have several : items ≠ [] := fun empty => nonempty empty
      simp [endsInBlanks_cons, ih, several]
  | case4 fresh pair items ih => simp [endsInBlanks_cons, ih]

theorem dangling_iff_of_pair {items : List Item} (paired : pairsOf items ≠ []) :
    dangling true items = true ↔ EndsInBlanks items := by
  rw [dangling_iff, or_iff_left]
  rintro ⟨_, last, rfl, _⟩
  exact paired rfl

/-! ## A lenient reading is the scan's -/

theorem skipSpace_self {s : List Char} (off : StartsOff isSpace s) : skipSpace s = s :=
  dropWhile_startsOff off

theorem skipSpace_of_blank {blanks : List Char} (blank : Blank blanks) : skipSpace blanks = [] := by
  have skipped := skipSpace_blank blank (startsOff_nil isSpace)
  rwa [List.append_nil] at skipped

theorem blank_append {first second : List Char} (before : Blank first) (behind : Blank second) :
    Blank (first ++ second) := by
  intro character member
  exact (List.mem_append.mp member).elim (before character) (behind character)

theorem behindPair_blank {blanks : List Char} (blank : Blank blanks) : behindPair blanks = [] := by
  rw [behindPair, skipSpace_of_blank blank]
  rfl

theorem behindPair_semicolon {blanks : List Char} (blank : Blank blanks) (rest : List Char) :
    behindPair (blanks ++ ';' :: rest) = skipSpace rest := by
  rw [behindPair, skipSpace_blank blank (startsOff_head (.inr rfl) (by decide))]
  rfl

theorem behindPair_other {blanks rest : List Char} (blank : Blank blanks)
    (start : StartsOff (fun character => isSpace character || character == ';') rest) :
    behindPair (blanks ++ rest) = rest := by
  have off := startsOff_mono (q := isSpace) (fun _ held => by simp [held]) start
  rw [behindPair, skipSpace_blank blank off]
  split
  · exact absurd (start ';' rfl) (by decide)
  · exact skipSpace_self off

/-- What may stand behind the text of a pair. -/
def Follows (pair : Pair) (text tail : List Char) : Prop :=
  tail = [] ∨ tail.head? = some ';' ∨
    pair.braced = true ∧ (text.getLast? = some '}' → tail.head? ≠ some '}')

theorem getLast?_item (blanks written gap : List Char) {valueText : List Char}
    (nonempty : valueText ≠ []) :
    (blanks ++ (written ++ '=' :: (gap ++ valueText))).getLast? = valueText.getLast? := by
  have whole : blanks ++ (written ++ '=' :: (gap ++ valueText)) =
      (blanks ++ written ++ '=' :: gap) ++ valueText := by simp
  rw [whole, List.getLast?_append_of_ne_nil _ nonempty]

theorem ValueText.writes {pair : Pair} {valueText tail : List Char}
    (value : ValueText pair valueText) (follows : Follows pair valueText tail) :
    ∃ quoted behind, Blank behind ∧ valueText = quoted ++ behind ∧
      WritesValue pair quoted (behind ++ tail) := by
  cases value with
  | plain noEnd start =>
      refine ⟨valueText, [], blank_nil, by simp, .plain noEnd start ?_⟩
      rcases follows with ends | ends | ⟨braced, _⟩
      · exact .inl ends
      · exact .inr ends
      · cases braced
  | @braced written value behind blank =>
      refine ⟨'{' :: double value ++ ['}'], behind, blank, by simp, .braced ?_⟩
      cases behind with
      | cons first more =>
          intro brace
          cases brace
          exact isSpace_other (blank '}' (by simp)) (by decide) rfl
      | nil =>
          rcases follows with rfl | ends | ⟨_, closes⟩
          · simp
          · simp [ends]
          · exact closes List.getLast?_concat

theorem reads_item {lenient : Bool} {text tail : List Char} {pair : Pair} {pairs : List Pair}
    {ends : Bool} (item : ItemText lenient text (.pair pair)) (follows : Follows pair text tail)
    (more : ∀ behind, Blank behind → Reads (behindPair (behind ++ tail)) pairs ends) :
    Reads (text ++ tail) (pair :: pairs) ends ∧
      Reads (skipSpace (text ++ tail)) (pair :: pairs) ends := by
  cases item with
  | @pair blanks gap valueText _ blank key gapBlank value =>
      have isWritten : IsWritten pair.written := ⟨key.nonempty, key.start, key.noSign⟩
      have follows : Follows pair valueText tail := by
        refine follows.imp_right (Or.imp_right fun ⟨braced, closes⟩ => ⟨braced, fun last => closes ?_⟩)
        have nonempty : valueText ≠ [] := by
          rintro rfl
          cases last
        rw [getLast?_item blanks pair.written gap nonempty]
        exact last
      obtain ⟨quoted, behind, behindBlank, rfl, writes⟩ := value.writes follows
      have read {blanks : List Char} (blank : Blank blanks) :=
        Reads.pair blank isWritten gapBlank writes (more behind behindBlank)
      have off : StartsOff isSpace (pair.written ++ '=' :: (gap ++ (quoted ++ (behind ++ tail)))) :=
        startsOff_append (startsOff_mono (fun _ held => by simp [held]) key.start)
          (fun empty => absurd empty key.nonempty)
      have joined : blanks ++ (pair.written ++ '=' :: (gap ++ (quoted ++ behind))) ++ tail =
          blanks ++ (pair.written ++ '=' :: (gap ++ (quoted ++ (behind ++ tail)))) := by simp
      rw [joined, skipSpace_blank blank off]
      exact ⟨read blank, read blank_nil⟩

/-- The scan reads the items from the start of a text and from behind a pair. -/
theorem Says.reads {lenient : Bool} {text : List Char} {items : List Item}
    (reading : Says lenient text items) :
    Reads text (pairsOf items) (dangling true items) ∧
      Reads (skipSpace text) (pairsOf items) (dangling false items) := by
  induction reading with
  | @last text given item =>
      cases item with
      | empty blank =>
          rw [skipSpace_of_blank blank]
          refine ⟨?_, .done⟩
          cases text with
          | nil => exact .done
          | cons first more => exact .blanks (by simp) blank
      | @pair blanks gap valueText pair blank key gapBlank value =>
          have read := reads_item (.pair blank key gapBlank value) (.inl rfl)
            fun behind behindBlank => by
              rw [List.append_nil, behindPair_blank behindBlank]
              exact .done
          simpa [dangling] using read
  | @more text rest given items item more ih =>
      cases item with
      | empty blank =>
          rw [skipSpace_blank blank (startsOff_head (.inr rfl) (by decide)),
            dangling_empty true text more.ne_nil, dangling_empty false text more.ne_nil]
          have alone : Reads ([] ++ ';' :: rest) (pairsOf items) (dangling true items) :=
            .empty blank_nil ih.1
          exact ⟨.empty blank ih.1, alone⟩
      | @pair blanks gap valueText pair blank key gapBlank value =>
          rw [pairsOf_pair, dangling_pair, dangling_pair]
          refine reads_item (.pair blank key gapBlank value) (.inr (.inl rfl)) ?_
          intro behind behindBlank
          rw [behindPair_semicolon behindBlank]
          exact ih.2
  | @joined text rest pair items leniently item braced closes start more ih =>
      have off := startsOff_mono (q := isSpace) (fun _ held => by simp [held]) start
      rw [pairsOf_pair, dangling_pair, dangling_pair]
      refine reads_item item (.inr (.inr ⟨braced, closes⟩)) ?_
      intro behind behindBlank
      rw [behindPair_other behindBlank start, ← skipSpace_self off]
      exact ih.2

/-! ## The scan's reading is lenient -/

/-- Blanks in front of a text belong to its first item. -/
theorem Says.blanks_append {lenient : Bool} {blanks text : List Char} {items : List Item}
    (blank : Blank blanks) (reading : Says lenient text items) :
    ∃ others, Says lenient (blanks ++ text) others ∧ pairsOf others = pairsOf items ∧
      dangling false others = dangling false items := by
  have item {text : List Char} {given : Item} (item : ItemText lenient text given) :
      ∃ other, ItemText lenient (blanks ++ text) other ∧
        ∀ items, pairsOf (other :: items) = pairsOf (given :: items) ∧
          dangling false (other :: items) = dangling false (given :: items) := by
    cases item with
    | empty after =>
        refine ⟨_, .empty (blank_append blank after), fun items => ⟨rfl, ?_⟩⟩
        cases items <;> rfl
    | @pair before gap valueText pair after key gapBlank value =>
        refine ⟨.pair pair, ?_, fun items => ⟨rfl, rfl⟩⟩
        rw [← List.append_assoc]
        exact .pair (blank_append blank after) key gapBlank value
  cases reading with
  | last only =>
      obtain ⟨other, written, same⟩ := item only
      exact ⟨_, .last written, same []⟩
  | @more first rest given items only more =>
      obtain ⟨other, written, same⟩ := item only
      rw [← List.append_assoc]
      exact ⟨_, .more written more, same items⟩
  | @joined first rest pair items leniently only braced closes start more =>
      cases only with
      | @pair before gap valueText _ after key gapBlank value =>
          refine ⟨.pair pair :: items, ?_, rfl, rfl⟩
          rw [← List.append_assoc, ← List.append_assoc]
          refine .joined leniently (.pair (blank_append blank after) key gapBlank value) braced ?_
            start more
          rw [List.getLast?_append_of_ne_nil _ (by simp)] at closes ⊢
          exact closes

/-- Where a text starts with something else than a blank, nothing in front matters. -/
theorem Says.dangling_off {lenient : Bool} {text : List Char} {items : List Item}
    (reading : Says lenient text items) (off : StartsOff isSpace text) :
    dangling false items = dangling true items := by
  cases reading with
  | last item =>
      cases item with
      | empty blank =>
          cases text with
          | nil => rfl
          | cons first more =>
              have here := off first rfl
              rw [blank first (by simp)] at here
              cases here
      | pair => rfl
  | more item more =>
      cases item with
      | empty blank => rw [dangling_empty _ _ more.ne_nil, dangling_empty _ _ more.ne_nil]
      | pair => rw [dangling_pair, dangling_pair]
  | joined => rw [dangling_pair, dangling_pair]

theorem reads_nil {pairs : List Pair} {ends : Bool} (reads : Reads [] pairs ends) :
    pairs = [] ∧ ends = false := by
  generalize same : ([] : List Char) = text at reads
  cases reads with
  | done => exact ⟨rfl, rfl⟩
  | blanks nonempty => exact absurd same.symm nonempty
  | empty => simp at same
  | pair => simp at same

theorem WritesValue.valueText {pair : Pair} {quoted behind tail : List Char}
    (value : WritesValue pair quoted (behind ++ tail)) (blank : Blank behind) :
    ValueText pair (quoted ++ behind) ∧ Follows pair (quoted ++ behind) tail := by
  cases value with
  | plain noEnd start ends =>
      cases behind with
      | nil =>
          rw [List.append_nil]
          exact ⟨.plain noEnd start, ends.imp_right Or.inl⟩
      | cons first others =>
          rcases ends with ends | ends
          · cases ends
          · cases ends
            exact absurd rfl (isSpace_other (blank ';' (by simp)) (by decide))
  | @braced written value rest closes =>
      refine ⟨by simpa using ValueText.braced blank, .inr (.inr ⟨rfl, ?_⟩)⟩
      intro last
      cases behind with
      | nil => exact closes
      | cons first others =>
          rw [List.getLast?_append_of_ne_nil _ (by simp)] at last
          exact absurd rfl (isSpace_other (blank '}' (List.mem_of_getLast? last)) (by decide))

/-- A pair in front of a text whose items are known. -/
theorem says_pair {blanks gap valueText behind tail : List Char} {pair : Pair} {items : List Item}
    (item : ItemText true (blanks ++ (pair.written ++ '=' :: (gap ++ valueText))) (.pair pair))
    (follows : Follows pair valueText tail) (nonempty : pair.braced = true → valueText ≠ [])
    (behindBlank : Blank behind) (off : StartsOff isSpace tail)
    (reading : Says true (behindPair (behind ++ tail)) items) :
    ∃ others, Says true (blanks ++ (pair.written ++ '=' :: (gap ++ valueText)) ++ tail) others ∧
      pairsOf others = pair :: pairsOf items ∧ dangling true others = dangling true items := by
  rcases tail with _ | ⟨first, tail⟩
  · rw [List.append_nil, behindPair_blank behindBlank] at reading
    obtain ⟨none, last⟩ := reads_nil reading.reads.1
    refine ⟨[.pair pair], by simpa using Says.last item, ?_, last.symm⟩
    rw [none]
    rfl
  by_cases stop : first = ';'
  · subst stop
    rw [behindPair_semicolon behindBlank] at reading
    obtain ⟨gapAfter, afterBlank, split, offAfter⟩ := skipSpace_split tail
    obtain ⟨others, read, same, ends⟩ := reading.blanks_append afterBlank
    rw [← split] at read
    refine ⟨.pair pair :: others, .more item read, by rw [pairsOf_pair, same], ?_⟩
    rw [dangling_pair, ends, reading.dangling_off offAfter]
  · have start : StartsOff (fun character => isSpace character || character == ';')
        (first :: tail) := by
      intro character member
      cases member
      simp [off first rfl, stop]
    rw [behindPair_other behindBlank start] at reading
    obtain ⟨braced, closes⟩ : pair.braced = true ∧
        (valueText.getLast? = some '}' → (first :: tail).head? ≠ some '}') := by
      rcases follows with ends | ends | last
      · cases ends
      · simp [stop] at ends
      · exact last
    rw [← getLast?_item blanks pair.written gap (nonempty braced)] at closes
    refine ⟨.pair pair :: items, .joined rfl item braced closes start reading, rfl, ?_⟩
    rw [dangling_pair, reading.dangling_off off]

theorem Reads.says {text : List Char} {pairs : List Pair} {ends : Bool}
    (reads : Reads text pairs ends) :
    ∃ items, Says true text items ∧ pairsOf items = pairs ∧ dangling true items = ends := by
  induction reads with
  | done => exact ⟨_, .last (.empty blank_nil), rfl, rfl⟩
  | @blanks blanks nonempty blank =>
      exact ⟨_, .last (.empty blank), rfl, by simpa [dangling] using nonempty⟩
  | @empty blanks text pairs ends blank more ih =>
      obtain ⟨items, reading, rfl, rfl⟩ := ih
      exact ⟨_, .more (.empty blank) reading, rfl, dangling_empty true blanks reading.ne_nil⟩
  | @pair blanks gap quoted rest pairs ends pair blank written gapBlank value more ih =>
      have key : KeyText true pair.written :=
        ⟨written.nonempty, written.start, written.noSign, fun strict => by cases strict⟩
      obtain ⟨items, reading, rfl, rfl⟩ := ih
      obtain ⟨behind, behindBlank, whole, off⟩ := skipSpace_split rest
      generalize skipSpace rest = tail at whole off
      subst whole
      obtain ⟨valueText, follows⟩ := value.valueText behindBlank
      have nonempty : pair.braced = true → quoted ++ behind ≠ [] := by
        intro braced
        cases value with
        | plain => cases braced
        | braced => simp
      obtain ⟨others, read, same, last⟩ :=
        says_pair (.pair blank key gapBlank valueText) follows nonempty behindBlank off reading
      exact ⟨others, by simpa using read, same, last⟩

end RedshiftOdbc.Connect

import RedshiftOdbc.Escape.Markers

/-!
# Names in the literals of a metadata query

`escapedFilter` doubles the quotes of a name, and the name is then put between two
quotes.  The scanners of the driver do not let a quote behind a backslash close a
literal.
-/

namespace RedshiftOdbc.Metadata

open RedshiftOdbc.Escape

def escapedFilter : List Char → List Char
  | [] => []
  | c :: input =>
      if c = '\'' then '\'' :: '\'' :: escapedFilter input else c :: escapedFilter input

/-! ## Literals -/

/-- A character in front of what is read. -/
def push (c : Char) (read : Option (List Char × List Char)) : Option (List Char × List Char) :=
  read.map fun whole => (c :: whole.1, whole.2)

/--
The literal inside of which the text begins, and what stands behind it.  A quote
behind a backslash does not close the literal, and neither do two quotes, which
stand for one.
-/
def readLiteral (before : Option Char) : List Char → Option (List Char × List Char)
  | [] => none
  | c :: text =>
      if c ≠ '\'' ∨ before = some '\\' then push c (readLiteral (some c) text)
      else
        match text with
        | [] => some ([], [])
        | next :: rest =>
            if next = '\'' then push '\'' (readLiteral (some '\'') rest) else some ([], text)

def readString : List Char → Option (List Char × List Char)
  | '\'' :: text => readLiteral (some '\'') text
  | _ => none

theorem readLiteral_inside {before : Option Char} {c : Char} (text : List Char)
    (inside : c ≠ '\'' ∨ before = some '\\') :
    readLiteral before (c :: text) = push c (readLiteral (some c) text) := by
  rw [readLiteral.eq_def before (c :: text)]
  exact if_pos inside

section
variable {before : Option Char} (bare : before ≠ some '\\')

include bare in
theorem readLiteral_doubled (text : List Char) :
    readLiteral before ('\'' :: '\'' :: text) = push '\'' (readLiteral (some '\'') text) := by
  rw [readLiteral.eq_def before]
  exact (if_neg (by simp [bare])).trans (if_pos rfl)

include bare in
theorem readLiteral_closes {text : List Char} (single : text.head? ≠ some '\'') :
    readLiteral before ('\'' :: text) = some ([], text) := by
  rw [readLiteral.eq_def before]
  refine (if_neg (by simp [bare])).trans ?_
  cases text with
  | nil => rfl
  | cons next text => exact if_neg fun same => single (by rw [same, List.head?_cons])

end

theorem push_eq_some {c : Char} {read : Option (List Char × List Char)}
    {content rest : List Char} (pushed : push c read = some (content, rest)) :
    ∃ inner, read = some (inner, rest) ∧ content = c :: inner := by
  obtain ⟨whole, known, same⟩ := Option.map_eq_some_iff.mp pushed
  simp only [Prod.mk.injEq] at same
  exact ⟨whole.1, by rw [known, ← same.2], same.1.symm⟩

/-- What stands behind a literal is shorter than the text. -/
theorem readLiteral_length {before : Option Char} {text content rest : List Char}
    (read : readLiteral before text = some (content, rest)) : rest.length < text.length := by
  fun_induction readLiteral before text generalizing content rest with
  | case1 => simp only [reduceCtorEq] at read
  | case2 before c text inside ih =>
      obtain ⟨inner, known, -⟩ := push_eq_some read
      exact Nat.lt_succ_of_lt (ih known)
  | case3 =>
      simp only [Option.some.injEq, Prod.mk.injEq] at read
      rw [← read.2]
      exact Nat.zero_lt_one
  | case4 before c inside text ih =>
      obtain ⟨inner, known, -⟩ := push_eq_some read
      exact Nat.lt_succ_of_lt (Nat.lt_succ_of_lt (ih known))
  | case5 before c inside next text notQuote =>
      simp only [Option.some.injEq, Prod.mk.injEq] at read
      rw [← read.2, List.length_cons, List.length_cons, List.length_cons]
      exact Nat.lt_succ_self _

/-! ## The scanner and the literal -/

theorem previous_append (front rest : List Char) :
    previous (front ++ rest) front.length = front.getLast? := by
  rw [previous]
  split
  case isTrue empty => rw [List.eq_nil_of_length_eq_zero empty, List.getLast?_nil]
  case isFalse some =>
    rw [List.getLast?_eq_getElem?, List.getElem?_append_left (by omega)]

/-- `iQuote` behind the first characters of a text. -/
def quoteAt (text : List Char) (place : Nat) : Nat := (scanParamMarkers text place).iQuote

theorem quoteAt_succ (front : List Char) (c : Char) (rest : List Char) :
    quoteAt (front ++ c :: rest) (front.length + 1) =
      if some c = some '\'' ∧ front.getLast? ≠ some '\\' then
        if quoteAt (front ++ c :: rest) front.length ≠ 0 then
          quoteAt (front ++ c :: rest) front.length - 1
        else quoteAt (front ++ c :: rest) front.length + 1
      else quoteAt (front ++ c :: rest) front.length := by
  have here : (front ++ c :: rest)[front.length]? = some c := by
    rw [List.getElem?_append_right (Nat.le_refl _), Nat.sub_self]
    rfl
  rw [quoteAt, scanParamMarkers, MarkerScan.step_iQuote, previous_append]
  simp only [here]
  rfl

section
variable {front : List Char} {c : Char} (rest : List Char)

theorem quoteAt_inside (within : c ≠ '\'' ∨ front.getLast? = some '\\') :
    quoteAt (front ++ c :: rest) (front ++ [c]).length =
      quoteAt (front ++ c :: rest) front.length := by
  rw [List.length_append, List.length_singleton, quoteAt_succ, if_neg]
  rw [Option.some.injEq]
  tauto

theorem quoteAt_quote (within : ¬ (c ≠ '\'' ∨ front.getLast? = some '\\')) :
    quoteAt (front ++ c :: rest) (front ++ [c]).length =
      if quoteAt (front ++ c :: rest) front.length ≠ 0 then
        quoteAt (front ++ c :: rest) front.length - 1
      else quoteAt (front ++ c :: rest) front.length + 1 := by
  rw [List.length_append, List.length_singleton, quoteAt_succ, if_pos]
  rw [Option.some.injEq]
  tauto

end

/-- The counter of the quotes falls back to zero where a literal ends. -/
theorem quoteAt_literal {before : Option Char} {text content rest front : List Char}
    (read : readLiteral before text = some (content, rest)) (last : front.getLast? = before)
    (inside : quoteAt (front ++ text) front.length = 1) :
    quoteAt (front ++ text) ((front ++ text).length - rest.length) = 0 := by
  have behind (front rest : List Char) : (front ++ rest).length - rest.length = front.length := by
    rw [List.length_append, Nat.add_sub_cancel]
  fun_induction readLiteral before text generalizing content rest front with
  | case1 => simp only [reduceCtorEq] at read
  | case2 before c text within ih =>
      obtain ⟨inner, known, -⟩ := push_eq_some read
      subst last
      have further := quoteAt_inside text within
      rw [inside, List.append_cons] at further
      rw [List.append_cons]
      exact ih known List.getLast?_concat further
  | case3 before c within =>
      simp only [Option.some.injEq, Prod.mk.injEq] at read
      subst last
      have further := quoteAt_quote [] within
      rw [inside] at further
      rw [← read.2, List.length_nil, Nat.sub_zero]
      exact further
  | case4 before c within text ih =>
      obtain ⟨inner, known, -⟩ := push_eq_some read
      subst last
      have first := quoteAt_quote ('\'' :: text) within
      have bare : ¬ ('\'' ≠ '\'' ∨ (front ++ [c]).getLast? = some '\\') := by
        rw [List.getLast?_concat, Option.some.injEq]
        rintro (other | same)
        · exact other rfl
        · exact within (.inl (by rw [same]; decide))
      have second := quoteAt_quote text bare
      rw [inside, List.append_cons] at first
      rw [first, List.append_cons] at second
      rw [List.append_cons, List.append_cons]
      exact ih known List.getLast?_concat second
  | case5 before c within next text notQuote =>
      simp only [Option.some.injEq, Prod.mk.injEq] at read
      subst last
      have further := quoteAt_quote (next :: text) within
      rw [inside] at further
      rw [← read.2]
      rw [List.append_cons] at further ⊢
      rw [behind]
      exact further

/-- Reading a literal at the beginning of a text and scanning the text agree on its end. -/
theorem quoteAt_readString {text content rest : List Char}
    (read : readString text = some (content, rest)) :
    quoteAt text (text.length - rest.length) = 0 := by
  unfold readString at read
  split at read
  case h_1 text =>
    have opened : quoteAt (['\''] ++ text) ['\''].length = 1 := quoteAt_succ [] '\'' text
    exact quoteAt_literal read rfl opened
  case h_2 => simp only [reduceCtorEq] at read

/-! ## Names as literals -/

/-- Behind every backslash of the name stands a character that is no quote. -/
def Unbroken (input : List Char) : Prop :=
  ∀ front back, input = front ++ '\\' :: back → ∃ next rest, back = next :: rest ∧ next ≠ '\''

def quotedFilter (input : List Char) : List Char := '\'' :: (escapedFilter input ++ ['\''])

theorem unbroken_cons {c : Char} {input : List Char} :
    Unbroken (c :: input) ↔
      (c = '\\' → ∃ next rest, input = next :: rest ∧ next ≠ '\'') ∧ Unbroken input := by
  constructor
  · intro unbroken
    refine ⟨?_, fun front back split => unbroken (c :: front) back (by rw [split]; rfl)⟩
    rintro rfl
    exact unbroken [] input rfl
  · rintro ⟨first, later⟩ front back split
    cases front with
    | nil =>
        obtain ⟨rfl, rfl⟩ := List.cons.inj split
        exact first rfl
    | cons other front => exact later front back (List.cons.inj split).2

theorem unbroken_nil : Unbroken [] := by
  intro front back split
  exact absurd split.symm (List.append_ne_nil_of_right_ne_nil front (List.cons_ne_nil _ _))

variable {tail : List Char}

/-- Out of step by one quote, no reading ends in front of the tail. -/
theorem readLiteral_shifted (input : List Char) (content : List Char) :
    readLiteral (some '\'') ('\'' :: (escapedFilter input ++ '\'' :: tail)) ≠
      some (content, tail) := by
  intro read
  induction input generalizing content with
  | nil =>
      rw [escapedFilter, List.nil_append, readLiteral_doubled (by decide)] at read
      obtain ⟨inner, known, -⟩ := push_eq_some read
      exact absurd (readLiteral_length known) (Nat.lt_irrefl _)
  | cons c input ih =>
      rw [escapedFilter] at read
      by_cases quote : c = '\''
      · rw [if_pos quote, List.cons_append, List.cons_append, readLiteral_doubled (by decide)]
          at read
        obtain ⟨inner, known, -⟩ := push_eq_some read
        exact ih inner known
      · have single : (c :: (escapedFilter input ++ '\'' :: tail)).head? ≠ some '\'' :=
          fun same => quote (Option.some.inj same)
        rw [if_neg quote, List.cons_append, readLiteral_closes (by decide) single,
          Option.some.injEq, Prod.mk.injEq] at read
        have length := congrArg List.length read.2
        rw [List.length_cons, List.length_append, List.length_cons] at length
        omega

/-- A reading that ends in front of the tail has met no backslash before a quote. -/
theorem unbroken_of_read {input content : List Char} {before : Option Char}
    (read : readLiteral before (escapedFilter input ++ '\'' :: tail) = some (content, tail)) :
    (before = some '\\' → ∃ next rest, input = next :: rest ∧ next ≠ '\'') ∧
      Unbroken input := by
  induction input generalizing before content with
  | nil =>
      refine ⟨?_, unbroken_nil⟩
      rintro rfl
      rw [escapedFilter, List.nil_append, readLiteral_inside _ (.inr rfl)] at read
      obtain ⟨inner, known, -⟩ := push_eq_some read
      exact absurd (readLiteral_length known) (Nat.lt_irrefl _)
  | cons c input ih =>
      rw [escapedFilter] at read
      by_cases quote : c = '\''
      · subst quote
        rw [if_pos rfl, List.cons_append, List.cons_append] at read
        by_cases escaped : before = some '\\'
        · rw [readLiteral_inside _ (.inr escaped)] at read
          obtain ⟨inner, known, -⟩ := push_eq_some read
          exact absurd known (readLiteral_shifted input inner)
        · rw [readLiteral_doubled escaped] at read
          obtain ⟨inner, known, -⟩ := push_eq_some read
          exact ⟨fun same => absurd same escaped,
            unbroken_cons.mpr ⟨fun same => absurd same (by decide), (ih known).2⟩⟩
      · rw [if_neg quote, List.cons_append, readLiteral_inside _ (.inl quote)] at read
        obtain ⟨inner, known, -⟩ := push_eq_some read
        have later := ih known
        exact ⟨fun _ => ⟨c, input, rfl, quote⟩,
          unbroken_cons.mpr ⟨fun same => later.1 (by rw [same]), later.2⟩⟩

theorem read_of_unbroken {input : List Char} {before : Option Char}
    (single : tail.head? ≠ some '\'') (unbroken : Unbroken input)
    (first : before = some '\\' → ∃ next rest, input = next :: rest ∧ next ≠ '\'') :
    readLiteral before (escapedFilter input ++ '\'' :: tail) = some (input, tail) := by
  induction input generalizing before with
  | nil =>
      have bare : before ≠ some '\\' := by
        intro escaped
        obtain ⟨next, rest, none, -⟩ := first escaped
        exact List.cons_ne_nil _ _ none.symm
      exact readLiteral_closes bare single
  | cons c input ih =>
      obtain ⟨here, later⟩ := unbroken_cons.mp unbroken
      rw [escapedFilter]
      by_cases quote : c = '\''
      · subst quote
        have bare : before ≠ some '\\' := by
          intro escaped
          obtain ⟨next, rest, same, other⟩ := first escaped
          exact other (List.cons.inj same).1.symm
        rw [if_pos rfl, List.cons_append, List.cons_append, readLiteral_doubled bare,
          ih later fun same => absurd same (by decide)]
        rfl
      · rw [if_neg quote, List.cons_append, readLiteral_inside _ (.inl quote),
          ih later fun same => here (Option.some.inj same)]
        rfl

/-- What stands behind the literal begins with no further quote. -/
theorem readString_quotedFilter (input tail : List Char) (single : tail.head? ≠ some '\'') :
    readString (quotedFilter input ++ tail) = some (input, tail) ↔ Unbroken input := by
  have spelled : quotedFilter input ++ tail =
      '\'' :: (escapedFilter input ++ '\'' :: tail) := by
    rw [quotedFilter, List.cons_append, List.append_assoc]
    rfl
  rw [spelled, readString]
  exact ⟨fun read => (unbroken_of_read read).2,
    fun unbroken => read_of_unbroken single unbroken fun same => absurd same (by decide)⟩

/-- A name with quotes and backslashes that stays one literal before another condition. -/
theorem readString_quotedFilter_name :
    readString (quotedFilter ['\'', 'a', '\\', 'b', '\'', '\''] ++ [' ', 'A', 'N', 'D']) =
      some (['\'', 'a', '\\', 'b', '\'', '\''], [' ', 'A', 'N', 'D']) :=
  (readString_quotedFilter _ _ (by decide)).mpr (by
    simp [unbroken_cons, unbroken_nil])

/-- The name `\' OR 1=1` closes the literal it is put into. -/
theorem readString_quotedFilter_wrong :
    readString (quotedFilter ['\\', '\'', ' ', 'O', 'R', ' ', '1', '=', '1']) =
      some (['\\', '\''], [' ', 'O', 'R', ' ', '1', '=', '1', '\'']) := by
  decide

end RedshiftOdbc.Metadata

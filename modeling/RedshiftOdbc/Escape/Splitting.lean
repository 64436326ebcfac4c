import RedshiftOdbc.Escape.Arguments

/-!
# Splitting and joining arguments

Argument texts that are joined with commas come back from
`parseFunctionArguments` one by one.  The other way around an argument that
comes back is always balanced in parentheses.  It is balanced in braces exactly
when none is open at the closing parenthesis of the list, which nothing checks.
-/

namespace RedshiftOdbc.Escape

open RedshiftOdbc.Scanf

/-- A text balanced in parentheses and in braces outside of its quotes. -/
structure Balanced (text : List Char) : Prop where
  parentheses : Nested '(' ')' (regions false .bare text)
  braces : Nested '{' '}' (regions false .bare text)

/-- A trimmed argument text without comments whose quotes are closed and whose commas are inner. -/
structure Argument (text : List Char) : Prop where
  nonempty : text ≠ []
  trimmed : trim text = text
  closed : Mode.bare.after true text = .bare
  uncommented : ∀ character ∈ regions true .bare text, character.2 ≠ .comment
  parentheses : Nested '(' ')' (regions true .bare text)
  braces : Nested '{' '}' (regions true .bare text)
  commas : ∀ before behind, regions true .bare text = before ++ (',', .bare) :: behind →
    surplus '(' ')' before ≠ 0 ∨ surplus '{' '}' before ≠ 0

/-- The commas of an argument are inner when its front before any comma leaves something open. -/
theorem inner_commas_iff (list : List (Char × Region)) :
    (∀ front ∈ list.inits, front ++ [(',', .bare)] ∈ list.inits →
        surplus '(' ')' front ≠ 0 ∨ surplus '{' '}' front ≠ 0) ↔
      ∀ before behind, list = before ++ (',', .bare) :: behind →
        surplus '(' ')' before ≠ 0 ∨ surplus '{' '}' before ≠ 0 := by
  simp only [List.mem_inits]
  constructor
  · intro inner before behind isList
    exact inner before ⟨_, isList.symm⟩ ⟨behind, by simp [isList]⟩
  · rintro inner front - ⟨behind, isList⟩
    exact inner front behind (by simp [← isList])

instance (text : List Char) : Decidable (Argument text) :=
  decidable_of_iff
    ((text ≠ [] ∧ trim text = text ∧ Mode.bare.after true text = .bare ∧
        ∀ character ∈ regions true .bare text, character.2 ≠ .comment) ∧
      (Nested '(' ')' (regions true .bare text) ∧ Nested '{' '}' (regions true .bare text)) ∧
      ∀ front ∈ (regions true .bare text).inits,
        front ++ [(',', .bare)] ∈ (regions true .bare text).inits →
          surplus '(' ')' front ≠ 0 ∨ surplus '{' '}' front ≠ 0)
    (by
      rw [inner_commas_iff]
      constructor
      · rintro ⟨⟨nonempty, trimmed, closed, uncommented⟩, ⟨parentheses, braces⟩, commas⟩
        exact ⟨nonempty, trimmed, closed, uncommented, parentheses, braces, commas⟩
      · rintro ⟨nonempty, trimmed, closed, uncommented, parentheses, braces, commas⟩
        exact ⟨⟨nonempty, trimmed, closed, uncommented⟩, ⟨parentheses, braces⟩, commas⟩)

/-- A stretch in which nothing ends a piece belongs to the piece. -/
theorem cut_within {stretch : List (Char × Region)} (parentheses braces : Int)
    (closesNone : ∀ front, front <+: stretch → 0 ≤ parentheses + surplus '(' ')' front)
    (bracesOpened : ∀ front, front <+: stretch → 0 ≤ braces + surplus '{' '}' front)
    (commas : ∀ before behind, stretch = before ++ (',', .bare) :: behind →
      parentheses + surplus '(' ')' before ≠ 0 ∨ braces + surplus '{' '}' before ≠ 0)
    (piece rest : List (Char × Region)) :
    cut parentheses braces piece (stretch ++ rest) =
      cut (parentheses + surplus '(' ')' stretch) (braces + surplus '{' '}' stretch)
        (piece ++ stretch) rest := by
  induction stretch generalizing parentheses braces piece with
  | nil => simp
  | cons character stretch ih =>
      have one : cut parentheses braces piece (character :: (stretch ++ rest)) =
          cut (parentheses + weight '(' ')' character) (braces + weight '{' '}' character)
            (piece ++ [character]) (stretch ++ rest) := by
        have parenthesis := closesNone [character] (by simp)
        have brace := bracesOpened [character] (by simp)
        have comma := commas [] stretch
        simp only [surplus_cons, surplus_nil, Int.add_zero] at parenthesis brace
        rw [cut]
        by_cases opensParenthesis : character = ('(', .bare)
        · simp [opensParenthesis, weight]
        by_cases opensBrace : character = ('{', .bare)
        · simp [opensBrace, weight]
        by_cases closesParenthesis : character = (')', .bare)
        · have inner : parentheses ≠ 0 := by
            simp [closesParenthesis, weight] at parenthesis
            omega
          simp [closesParenthesis, weight, inner, Int.sub_eq_add_neg]
        by_cases closesBrace : character = ('}', .bare)
        · have inner : ¬ braces ≤ 0 := by
            simp [closesBrace, weight] at brace
            omega
          simp [closesBrace, weight, inner, Int.sub_eq_add_neg]
        · have inner : ¬ (character = (',', .bare) ∧ parentheses = 0 ∧ braces = 0) := by
            rintro ⟨rfl, noParenthesis, noBrace⟩
            simpa [noParenthesis, noBrace] using comma rfl
          simp [opensParenthesis, opensBrace, closesParenthesis, closesBrace, weight, inner]
      have longer {front : List (Char × Region)} (isFront : front <+: stretch) :
          character :: front <+: character :: stretch := List.cons_prefix_cons.mpr ⟨rfl, isFront⟩
      rw [List.cons_append, one, ih]
      · simp [Int.add_assoc]
      · intro front isFront
        have bound := closesNone _ (longer isFront)
        rw [surplus_cons] at bound
        omega
      · intro front isFront
        have bound := bracesOpened _ (longer isFront)
        rw [surplus_cons] at bound
        omega
      · rintro before behind rfl
        have inner := commas (character :: before) behind rfl
        simp only [surplus_cons] at inner
        omega

/-! ## Joined arguments -/

theorem Argument.cut {text : List Char} (argument : Argument text)
    (piece rest : List (Char × Region)) :
    cut 0 0 piece (regions true .bare text ++ rest) =
      Escape.cut 0 0 (piece ++ regions true .bare text) rest := by
  have within := cut_within 0 0
    (by simpa [Opened] using argument.parentheses.opened)
    (by simpa [Opened] using argument.braces.opened)
    (by simpa using argument.commas) piece rest
  simpa [argument.parentheses.closed, argument.braces.closed] using within

theorem Argument.uncommented_regions {text : List Char} (argument : Argument text) :
    Escape.uncommented (regions true .bare text) = text := by
  have all : (regions true .bare text).filter (fun character => character.2 ≠ .comment) =
      regions true .bare text := by
    simpa [List.filter_eq_self] using argument.uncommented
  rw [Escape.uncommented, all, regions_map_fst]

theorem trim_cons_space (text : List Char) : trim (' ' :: text) = trim text := by
  simp [trim, isSpace]

/-- The blank before an argument does not stay. -/
theorem Argument.returned {text : List Char} (argument : Argument text)
    {blank : List (Char × Region)} (isBlank : blank = [] ∨ blank = [(' ', .bare)])
    (others : List (List (Char × Region))) :
    returned ((blank ++ regions true .bare text) :: others) = text :: Escape.returned others := by
  have same : trim (Escape.uncommented (blank ++ regions true .bare text)) = text := by
    rw [uncommented_append, argument.uncommented_regions]
    rcases isBlank with rfl | rfl
    · exact argument.trimmed
    · rw [uncommented_cons (by simp), uncommented_nil, List.singleton_append, trim_cons_space]
      exact argument.trimmed
  rw [returned_cons, same, if_neg argument.nonempty, List.singleton_append]

theorem cut_join (arguments : List (List Char)) (nonempty : arguments ≠ [])
    (each : ∀ argument ∈ arguments, Argument argument) (rest : List Char)
    {blank : List (Char × Region)} (isBlank : blank = [] ∨ blank = [(' ', .bare)]) :
    ∃ pieces,
      cut 0 0 blank (regions true .bare (List.intercalate [',', ' '] arguments ++ ')' :: rest)) =
        some (pieces, regions true .bare rest) ∧
      returned pieces = arguments := by
  induction arguments generalizing blank with
  | nil => exact absurd rfl nonempty
  | cons argument others ih =>
      have isArgument := each argument (by simp)
      cases others with
      | nil =>
          refine ⟨[blank ++ regions true .bare argument], ?_, isArgument.returned isBlank []⟩
          have behind : regions true .bare (')' :: rest) =
              (')', .bare) :: regions true .bare rest := by
            simp [regions, Mode.read]
          rw [List.intercalate_singleton, regions_append true .bare argument (by simp) (by simp),
            isArgument.closed, isArgument.cut, behind]
          simp [cut]
      | cons next others =>
          obtain ⟨pieces, isCut, isReturned⟩ :=
            ih (by simp) (fun other within => each other (by simp [within]))
              (Or.inr rfl : [(' ', Region.bare)] = [] ∨ _)
          refine ⟨(blank ++ regions true .bare argument) :: pieces, ?_, ?_⟩
          · have text : List.intercalate [',', ' '] (argument :: next :: others) ++ ')' :: rest =
                argument ++ (',' :: ' ' ::
                  (List.intercalate [',', ' '] (next :: others) ++ ')' :: rest)) := by
              simp [List.intercalate]
            have behind (text : List Char) : regions true .bare (',' :: ' ' :: text) =
                (',', .bare) :: (' ', .bare) :: regions true .bare text := by
              simp [regions, Mode.read]
            have separator (piece list : List (Char × Region)) :
                cut 0 0 piece ((',', .bare) :: (' ', .bare) :: list) =
                  (cut 0 0 [(' ', .bare)] list).map fun result =>
                    (piece :: result.1, result.2) := by
              simp [cut]
            rw [text, regions_append true .bare argument (by simp) (by simp),
              isArgument.closed, isArgument.cut, behind, separator, isCut]
            rfl
          · rw [isArgument.returned isBlank, isReturned]

/-- Joined arguments come back as they are, and the position is behind the list. -/
theorem parse_join (arguments : List (List Char))
    (each : ∀ argument ∈ arguments, Argument argument) (rest : List Char) (effects : Effects) :
    parseFunctionArguments ('(' :: (List.intercalate [',', ' '] arguments ++ ')' :: rest)) 0 []
        none 0 effects =
      (some ((List.intercalate [',', ' '] arguments).length + 2, arguments), effects) := by
  have isList : listText ('(' :: (List.intercalate [',', ' '] arguments ++ ')' :: rest)) 0 =
      some (List.intercalate [',', ' '] arguments ++ ')' :: rest) := by
    simp [listText, isSpace]
  have isCut : ∃ pieces,
      cut 0 0 [] (regions true .bare (List.intercalate [',', ' '] arguments ++ ')' :: rest)) =
        some (pieces, regions true .bare rest) ∧ returned pieces = arguments := by
    cases arguments with
    | nil => exact ⟨[[]], by simp [List.intercalate, regions, Mode.read, cut], by rfl⟩
    | cons first others => exact cut_join _ (by simp) each rest (Or.inl rfl)
  obtain ⟨pieces, isCut, isReturned⟩ := isCut
  have left : (regions true .bare rest).length = rest.length := by
    rw [← List.length_map (f := Prod.fst), regions_map_fst]
  rw [parseFunctionArguments_eq, Escape.pieces, isList, Option.bind_some, isCut, Option.map_some,
    isReturned, left]
  simp only [List.length_cons, List.length_append, Option.some.injEq, Prod.mk.injEq, and_true]
  omega

/-! ## The pieces of a successful cut -/

theorem weight_covered {opening closing : Char} {character : Char × Region}
    (covered : character.2 ≠ .bare) : weight opening closing character = 0 := by
  have differs : ∀ bare : Char, character ≠ (bare, .bare) := by
    rintro bare rfl
    exact covered rfl
  simp [weight, differs]

theorem surplus_uncommented (opening closing : Char) (list : List (Char × Region)) :
    surplus opening closing (list.filter fun character => character.2 ≠ .comment) =
      surplus opening closing list := by
  induction list with
  | nil => rfl
  | cons character list ih =>
      by_cases isComment : character.2 = .comment
      · have light : weight opening closing character = 0 :=
          weight_covered (by simp [isComment])
        simp only [ne_eq, decide_not] at ih
        simp [isComment, light, ih]
      · simp only [ne_eq, decide_not] at ih
        simp [isComment, ih]

/-- Comments do not count for balance. -/
theorem nested_uncommented (opening closing : Char) (list : List (Char × Region)) :
    Nested opening closing (list.filter fun character => character.2 ≠ .comment) ↔
      Nested opening closing list := by
  constructor
  · intro nested
    constructor
    · intro front isFront
      have bound := nested.opened _ (isFront.filter _)
      rwa [surplus_uncommented] at bound
    · rw [← surplus_uncommented]
      exact nested.closed
  · intro nested
    constructor
    · intro front isFront
      obtain ⟨whole, isWhole, rfl⟩ := List.prefix_filter_iff.mp isFront
      rw [surplus_uncommented]
      exact nested.opened whole isWhole
    · rw [surplus_uncommented]
      exact nested.closed

/-- The place of the bare closing parenthesis that has no opening one. -/
structure ClosesAt (list : List (Char × Region)) (place : Nat) : Prop where
  closing : list[place]? = some (')', .bare)
  opened : Opened '(' ')' (list.take place)
  closed : surplus '(' ')' (list.take place) = 0

/-- A piece begun, with so many parentheses and braces open. -/
structure Begun (parentheses braces : Int) (piece : List (Char × Region)) : Prop where
  parenthesesOpened : Opened '(' ')' piece
  bracesOpened : Opened '{' '}' piece
  parentheses : surplus '(' ')' piece = parentheses
  braces : surplus '{' '}' piece = braces

/-- What a cut leaves when one begun piece is there. -/
structure CutInto (parentheses braces : Int) (list : List (Char × Region))
    (pieces : List (List (Char × Region))) (consumed left : List (Char × Region)) : Prop where
  whole : list = consumed ++ (')', .bare) :: left
  opened : ∀ front, front <+: consumed → 0 ≤ parentheses + surplus '(' ')' front
  closed : parentheses + surplus '(' ')' consumed = 0
  last : ∃ earlier last, pieces = earlier ++ [last] ∧
    (∀ piece ∈ earlier, Nested '(' ')' piece ∧ Nested '{' '}' piece) ∧
    Nested '(' ')' last ∧ Opened '{' '}' last ∧
    surplus '{' '}' last = braces + surplus '{' '}' consumed

/-- What one character does to a cut that is successful. -/
theorem cut_cases {parentheses braces : Int} (nonneg : 0 ≤ parentheses) (braced : 0 ≤ braces)
    {piece list left : List (Char × Region)} {character : Char × Region}
    {pieces : List (List (Char × Region))}
    (isCut : cut parentheses braces piece (character :: list) = some (pieces, left)) :
    (0 ≤ parentheses + weight '(' ')' character ∧ 0 ≤ braces + weight '{' '}' character ∧
      cut (parentheses + weight '(' ')' character) (braces + weight '{' '}' character)
        (piece ++ [character]) list = some (pieces, left)) ∨
    (character = (')', .bare) ∧ parentheses = 0 ∧ pieces = [piece] ∧ left = list) ∨
    (character = (',', .bare) ∧ parentheses = 0 ∧ braces = 0 ∧
      ∃ others, cut 0 0 [] list = some (others, left) ∧ pieces = piece :: others) := by
  rw [cut] at isCut
  by_cases opensParenthesis : character = ('(', .bare)
  · left
    subst opensParenthesis
    exact ⟨by simp [weight]; omega, by simpa [weight] using braced, by simpa [weight] using isCut⟩
  by_cases opensBrace : character = ('{', .bare)
  · left
    subst opensBrace
    exact ⟨by simpa [weight] using nonneg, by simp [weight]; omega, by simpa [weight] using isCut⟩
  by_cases closesParenthesis : character = (')', .bare)
  · subst closesParenthesis
    by_cases ends : parentheses = 0
    · right; left
      have whole : piece :: [] = pieces ∧ list = left := by simpa [ends] using isCut
      exact ⟨rfl, ends, whole.1.symm, whole.2.symm⟩
    · left
      refine ⟨by simp [weight]; omega, by simpa [weight] using braced, ?_⟩
      simpa [ends, weight, Int.sub_eq_add_neg] using isCut
  by_cases closesBrace : character = ('}', .bare)
  · left
    subst closesBrace
    by_cases unmatched : braces ≤ 0
    · simp [unmatched] at isCut
    · refine ⟨by simpa [weight] using nonneg, by simp [weight]; omega, ?_⟩
      simpa [unmatched, weight, Int.sub_eq_add_neg] using isCut
  have light (opening closing : Char) (isOpening : opening = '(' ∨ opening = '{')
      (isClosing : closing = ')' ∨ closing = '}') : weight opening closing character = 0 := by
    rcases isOpening with rfl | rfl <;> rcases isClosing with rfl | rfl <;>
      simp [weight, opensParenthesis, opensBrace, closesParenthesis, closesBrace]
  simp only [if_neg opensParenthesis, if_neg opensBrace, if_neg closesParenthesis,
    if_neg closesBrace] at isCut
  by_cases separates : character = (',', .bare) ∧ parentheses = 0 ∧ braces = 0
  · right; right
    rw [if_pos separates] at isCut
    obtain ⟨⟨others, behind⟩, isOthers, same⟩ := Option.map_eq_some_iff.mp isCut
    obtain ⟨rfl, rfl⟩ := Prod.mk.inj same
    exact ⟨separates.1, separates.2.1, separates.2.2, others, isOthers, rfl⟩
  · left
    rw [light '(' ')' (Or.inl rfl) (Or.inl rfl), light '{' '}' (Or.inr rfl) (Or.inr rfl)]
    rw [if_neg separates] at isCut
    exact ⟨by simpa using nonneg, by simpa using braced, by simpa using isCut⟩

theorem cut_spec {list : List (Char × Region)} {parentheses braces : Int}
    {piece : List (Char × Region)} (begun : Begun parentheses braces piece)
    {pieces : List (List (Char × Region))} {left : List (Char × Region)}
    (isCut : cut parentheses braces piece list = some (pieces, left)) :
    ∃ consumed, CutInto parentheses braces list pieces consumed left := by
  induction list generalizing parentheses braces piece pieces with
  | nil => simp [cut] at isCut
  | cons character list ih =>
      have nonneg : 0 ≤ parentheses := begun.parentheses ▸ begun.parenthesesOpened.surplus_nonneg
      have braced : 0 ≤ braces := begun.braces ▸ begun.bracesOpened.surplus_nonneg
      rcases cut_cases nonneg braced isCut with
        ⟨within, bracesWithin, rest⟩ | ⟨rfl, rfl, rfl, rfl⟩ | ⟨rfl, rfl, rfl, others, rest, rfl⟩
      · have longer : Begun (parentheses + weight '(' ')' character)
            (braces + weight '{' '}' character) (piece ++ [character]) := by
          refine ⟨begun.parenthesesOpened.concat ?_, begun.bracesOpened.concat ?_, ?_, ?_⟩
          · rwa [begun.parentheses]
          · rwa [begun.braces]
          · simp [begun.parentheses]
          · simp [begun.braces]
        obtain ⟨consumed, into⟩ := ih longer rest
        obtain ⟨earlier, last, same, nested, lastNested, lastOpened, total⟩ := into.last
        refine ⟨character :: consumed, by rw [into.whole]; rfl, ?_, ?_,
          earlier, last, same, nested, lastNested, lastOpened, ?_⟩
        · intro front isFront
          cases front with
          | nil => simpa using nonneg
          | cons first front =>
              obtain ⟨rfl, shorter⟩ := List.cons_prefix_cons.mp isFront
              have bound := into.opened front shorter
              rw [surplus_cons]
              omega
        · have closed := into.closed
          rw [surplus_cons]
          omega
        · rw [total, surplus_cons]
          omega
      · refine ⟨[], rfl, ?_, rfl, [], piece, rfl, by simp, ?_, begun.bracesOpened, ?_⟩
        · intro front isFront
          simp [List.prefix_nil.mp isFront]
        · exact ⟨begun.parenthesesOpened, begun.parentheses⟩
        · simpa using begun.braces
      · have empty : Begun 0 0 [] := ⟨opened_nil _ _, opened_nil _ _, rfl, rfl⟩
        obtain ⟨consumed, into⟩ := ih empty rest
        obtain ⟨earlier, last, same, nested, lastNested, lastOpened, total⟩ := into.last
        have light (opening closing : Char) (isOpening : opening = '(' ∨ opening = '{')
            (isClosing : closing = ')' ∨ closing = '}') :
            weight opening closing (',', .bare) = 0 := by
          rcases isOpening with rfl | rfl <;> rcases isClosing with rfl | rfl <;> decide
        refine ⟨(',', .bare) :: consumed, by rw [into.whole]; rfl, ?_, ?_,
          piece :: earlier, last, by rw [same]; rfl, ?_, lastNested, lastOpened, ?_⟩
        · intro front isFront
          cases front with
          | nil => simp
          | cons first front =>
              obtain ⟨rfl, shorter⟩ := List.cons_prefix_cons.mp isFront
              have bound := into.opened front shorter
              rwa [surplus_cons, light '(' ')' (Or.inl rfl) (Or.inl rfl), Int.zero_add]
        · have closed := into.closed
          rwa [surplus_cons, light '(' ')' (Or.inl rfl) (Or.inl rfl), Int.zero_add]
        · intro other within
          rcases List.mem_cons.mp within with rfl | isEarlier
          · exact ⟨⟨begun.parenthesesOpened, begun.parentheses⟩,
              begun.bracesOpened, begun.braces⟩
          · exact nested other isEarlier
        · rw [total, surplus_cons, light '{' '}' (Or.inr rfl) (Or.inr rfl)]
          omega

/-- The pieces of a list are themselves read from outside to outside. -/
theorem cut_follow {list : List (Char × Region)} {parentheses braces : Int}
    {piece : List (Char × Region)} (nonneg : 0 ≤ parentheses) (braced : 0 ≤ braces)
    {mode final : Mode} (begun : Mode.bare.follow piece = some mode)
    (follows : mode.follow list = some final)
    {pieces : List (List (Char × Region))} {left : List (Char × Region)}
    (isCut : cut parentheses braces piece list = some (pieces, left)) :
    ∀ piece ∈ pieces, Mode.bare.follow piece = some .bare := by
  induction list generalizing parentheses braces piece pieces mode with
  | nil => simp [cut] at isCut
  | cons character list ih =>
      rw [← List.singleton_append, Mode.follow_append] at follows
      obtain ⟨next, isNext, rest⟩ := Option.bind_eq_some_iff.mp follows
      have bareBefore (separator : Char) (same : character = (separator, .bare)) :
          mode = .bare ∧ next = .bare := by
        subst same
        have isBare : (mode.read false separator none).1 = .bare := by
          by_contra other
          simp [Mode.follow, other] at isNext
        obtain ⟨outside, same⟩ := Mode.read_of_bare isBare
        exact ⟨outside, by simpa [Mode.follow, same] using isNext.symm⟩
      rcases cut_cases nonneg braced isCut with
        ⟨within, bracesWithin, onward⟩ | ⟨rfl, rfl, rfl, rfl⟩ | ⟨rfl, rfl, rfl, others, onward, rfl⟩
      · refine ih within bracesWithin ?_ rest onward
        rw [Mode.follow_append, begun, Option.bind_some, isNext]
      · intro other isOther
        obtain rfl := List.mem_singleton.mp isOther
        rw [begun, (bareBefore ')' rfl).1]
      · obtain ⟨rfl, rfl⟩ := bareBefore ',' rfl
        intro other isOther
        rcases List.mem_cons.mp isOther with rfl | isLater
        · exact begun
        · exact ih (le_refl 0) (le_refl 0) (Mode.follow_nil .bare) rest onward other isLater

/-! ## Returned arguments -/

theorem blank_weightless {opening closing : Char} (openingSolid : isSpace opening = false)
    (closingSolid : isSpace closing = false) (mode : Mode) {blank : List Char}
    (isBlank : ∀ character ∈ blank, isSpace character) :
    ∀ character ∈ regions false mode blank, weight opening closing character = 0 := by
  intro character within
  have space : isSpace character.1 := by
    refine isBlank character.1 ?_
    have isFirst := List.mem_map_of_mem (f := Prod.fst) within
    rwa [regions_map_fst] at isFirst
  have opens : character ≠ (opening, .bare) := by
    rintro rfl
    simp [openingSolid] at space
  have closes : character ≠ (closing, .bare) := by
    rintro rfl
    simp [closingSolid] at space
  simp [weight, opens, closes]

theorem after_blank {blank : List Char} (isBlank : ∀ character ∈ blank, isSpace character) :
    Mode.bare.after false blank = .bare := by
  induction blank with
  | nil => rfl
  | cons character blank ih =>
      have space := isBlank character (by simp)
      have single : character ≠ '\'' := by rintro rfl; simp [isSpace] at space
      have double : character ≠ '"' := by rintro rfl; simp [isSpace] at space
      have stays : Mode.bare.read false character blank.head? = (.bare, .bare) := by
        simp [Mode.read, single, double]
      rw [Mode.after, stays]
      exact ih fun other within => isBlank other (by simp [within])

/-- White space around an argument. -/
theorem trim_spec (text : List Char) :
    ∃ before behind, text = before ++ trim text ++ behind ∧
      (∀ character ∈ before, isSpace character) ∧ ∀ character ∈ behind, isSpace character := by
  refine ⟨text.takeWhile isSpace, (text.dropWhile isSpace).rtakeWhile isSpace, ?_, ?_, ?_⟩
  · rw [trim, List.append_assoc, List.rdropWhile_append_rtakeWhile,
      List.takeWhile_append_dropWhile]
  · intro character within
    exact List.mem_takeWhile_imp within
  · intro character within
    exact List.mem_rtakeWhile_imp within

theorem nested_trim {opening closing : Char} (openingSolid : isSpace opening = false)
    (closingSolid : isSpace closing = false) (text : List Char) :
    Nested opening closing (regions false .bare (trim text)) ↔
      Nested opening closing (regions false .bare text) := by
  obtain ⟨before, behind, whole, isBefore, isBehind⟩ := trim_spec text
  have parted : regions false .bare text =
      regions false .bare before ++ regions false .bare (trim text) ++
        regions false (Mode.bare.after false (before ++ trim text)) behind := by
    conv_lhs => rw [whole]
    rw [regions_false_append, regions_false_append, after_blank isBefore]
  rw [parted]
  exact (nested_surround (blank_weightless openingSolid closingSolid _ isBefore)
    (blank_weightless openingSolid closingSolid _ isBehind)).symm

/-- A piece as it is returned is balanced as the piece is. -/
theorem nested_returned {opening closing : Char} (openingSolid : isSpace opening = false)
    (closingSolid : isSpace closing = false) {piece : List (Char × Region)}
    (follows : Mode.bare.follow piece = some .bare) :
    Nested opening closing (regions false .bare (trim (uncommented piece))) ↔
      Nested opening closing piece := by
  rw [nested_trim openingSolid closingSolid, regions_uncommented follows, nested_uncommented]

theorem mem_returned {pieces : List (List (Char × Region))} {argument : List Char} :
    argument ∈ returned pieces ↔
      argument ≠ [] ∧ ∃ piece ∈ pieces, trim (uncommented piece) = argument := by
  simp [returned, and_comm]

/-- A piece that leaves a brace open is not dropped as a blank one. -/
theorem surplus_of_blank {piece : List (Char × Region)}
    (follows : Mode.bare.follow piece = some .bare) (blank : trim (uncommented piece) = []) :
    surplus '{' '}' piece = 0 := by
  obtain ⟨before, behind, whole, isBefore, isBehind⟩ := trim_spec (uncommented piece)
  have allBlank : ∀ character ∈ uncommented piece, isSpace character := by
    intro character within
    rw [whole, blank, List.append_nil] at within
    rcases List.mem_append.mp within with early | late
    · exact isBefore character early
    · exact isBehind character late
  have light := blank_weightless (by decide : isSpace '{' = false) (by decide : isSpace '}' = false)
    .bare allBlank
  rw [regions_uncommented follows] at light
  rw [← surplus_uncommented]
  exact surplus_eq_zero light

theorem CutInto.balanced_iff {list consumed left : List (Char × Region)}
    {pieces : List (List (Char × Region))} (into : CutInto 0 0 list pieces consumed left)
    (follows : ∀ piece ∈ pieces, Mode.bare.follow piece = some .bare) :
    (∀ argument ∈ returned pieces, Balanced argument) ↔ surplus '{' '}' consumed = 0 := by
  obtain ⟨earlier, last, same, nested, lastNested, lastOpened, total⟩ := into.last
  rw [Int.zero_add] at total
  have isLast : last ∈ pieces := by simp [same]
  have solid : isSpace '(' = false ∧ isSpace ')' = false ∧
      isSpace '{' = false ∧ isSpace '}' = false := by decide
  constructor
  · intro balanced
    rw [← total]
    by_cases blank : trim (uncommented last) = []
    · exact surplus_of_blank (follows last isLast) blank
    · have isReturned := balanced _ (mem_returned.mpr ⟨blank, last, isLast, rfl⟩)
      exact ((nested_returned solid.2.2.1 solid.2.2.2 (follows last isLast)).mp
        isReturned.braces).closed
  · intro closed argument isReturned
    obtain ⟨_, piece, within, rfl⟩ := mem_returned.mp isReturned
    have both : Nested '(' ')' piece ∧ Nested '{' '}' piece := by
      rw [same] at within
      rcases List.mem_append.mp within with isEarlier | isFinal
      · exact nested piece isEarlier
      · obtain rfl := List.mem_singleton.mp isFinal
        exact ⟨lastNested, lastOpened, by rw [total, closed]⟩
    exact ⟨(nested_returned solid.1 solid.2.1 (follows piece within)).mpr both.1,
      (nested_returned solid.2.2.1 solid.2.2.2 (follows piece within)).mpr both.2⟩

/-! ## The closing parenthesis -/

theorem ClosesAt.unique {list : List (Char × Region)} {place other : Nat}
    (here : ClosesAt list place) (there : ClosesAt list other) : place = other := by
  have first {early late : Nat} (isEarly : ClosesAt list early) (isLate : ClosesAt list late) :
      ¬ early < late := by
    intro before
    have within : early < list.length := (List.getElem?_eq_some_iff.mp isEarly.closing).1
    have isFront : list.take early ++ [(')', .bare)] <+: list.take late := by
      have next : list.take early ++ [(')', .bare)] = list.take (early + 1) := by
        rw [List.take_add_one, isEarly.closing]
        rfl
      rw [next]
      exact List.take_prefix_take_left (by omega)
    have bound := isLate.opened _ isFront
    rw [surplus_append, isEarly.closed] at bound
    exact absurd bound (by decide)
  exact Nat.le_antisymm (Nat.le_of_not_lt (first there here)) (Nat.le_of_not_lt (first here there))

/-- The closing parenthesis of the list at the position stands where no brace is open. -/
def BracesClosed (sql : List Char) (i : Nat) : Prop :=
  ∀ text ∈ listText sql i, ∀ place, ClosesAt (regions true .bare text) place →
    surplus '{' '}' ((regions true .bare text).take place) = 0

theorem returned_balanced_iff {sql : List Char} {i : Nat} {effects : Effects} {position : Nat}
    {arguments : List (List Char)}
    (parsed : (parseFunctionArguments sql i [] none 0 effects).1 = some (position, arguments)) :
    (∀ argument ∈ arguments, Balanced argument) ↔ BracesClosed sql i := by
  rw [parseFunctionArguments_eq] at parsed
  obtain ⟨⟨pieces, left⟩, isPieces, same⟩ := Option.map_eq_some_iff.mp parsed
  obtain ⟨rfl⟩ : returned pieces = arguments := (Prod.mk.inj same).2
  obtain ⟨text, isText, isCut⟩ := Option.bind_eq_some_iff.mp isPieces
  have begun : Begun 0 0 [] := ⟨opened_nil _ _, opened_nil _ _, rfl, rfl⟩
  obtain ⟨consumed, into⟩ := cut_spec begun isCut
  have follows := cut_follow (le_refl 0) (le_refl 0) (Mode.follow_nil .bare)
    (follow_regions .bare text) isCut
  have front : (regions true .bare text).take consumed.length = consumed := by
    rw [into.whole, List.take_left' rfl]
  have closes : ClosesAt (regions true .bare text) consumed.length := by
    refine ⟨by rw [into.whole]; simp, ?_, ?_⟩
    · rw [front]
      simpa [Opened] using into.opened
    · rw [front]
      simpa using into.closed
  rw [into.balanced_iff follows, BracesClosed, isText]
  constructor
  · intro closed other isOther place isPlace
    obtain rfl := Option.some.inj isOther
    rw [isPlace.unique closes, front, closed]
  · intro closed
    rw [← front]
    exact closed text rfl _ closes

/--
Joined arguments come back as they are.  What comes back from any list is
balanced exactly when the list ends where no brace is open.
-/
theorem parseFunctionArguments_inverse_iff (effects : Effects) :
    (∀ (arguments : List (List Char)) (rest : List Char),
      (∀ argument ∈ arguments, Argument argument) →
        parseFunctionArguments
            ('(' :: (List.intercalate [',', ' '] arguments ++ ')' :: rest)) 0 [] none 0
            effects =
          (some ((List.intercalate [',', ' '] arguments).length + 2, arguments), effects)) ∧
    ∀ (sql : List Char) (i position : Nat) (arguments : List (List Char)),
      (parseFunctionArguments sql i [] none 0 effects).1 = some (position, arguments) →
        ((∀ argument ∈ arguments, Balanced argument) ↔ BracesClosed sql i) :=
  ⟨fun arguments rest each => parse_join arguments each rest effects,
    fun _ _ _ _ parsed => returned_balanced_iff parsed⟩

unseal parseLoop in
/-- `({)` is read as the list of one argument, which is not balanced. -/
theorem parseFunctionArguments_open_brace :
    (parseFunctionArguments ['(', '{', ')'] 0 [] none 0 ⟨0, false, [], []⟩).1 =
        some (3, [['{']]) ∧
      ¬ Balanced ['{'] := by
  refine ⟨by decide, fun balanced => ?_⟩
  exact absurd balanced.braces.closed (by decide)

unseal parseLoop in
/-- `(f(a, b), 'x,y') z` gives `f(a, b)` and `'x,y'` and leaves ` z`. -/
theorem parseFunctionArguments_inverse_call :
    parseFunctionArguments "(f(a, b), 'x,y') z".toList 0 [] none 0 ⟨0, false, [], []⟩ =
        (some (16, ["f(a, b)".toList, "'x,y'".toList]), ⟨0, false, [], []⟩) ∧
      ((∀ argument ∈ ["f(a, b)".toList, "'x,y'".toList], Balanced argument) ↔
        BracesClosed "(f(a, b), 'x,y') z".toList 0) :=
  ⟨(parseFunctionArguments_inverse_iff _).1 ["f(a, b)".toList, "'x,y'".toList] " z".toList
      (by decide),
    (parseFunctionArguments_inverse_iff ⟨0, false, [], []⟩).2 "(f(a, b), 'x,y') z".toList 0 16
      ["f(a, b)".toList, "'x,y'".toList] (by decide)⟩

end RedshiftOdbc.Escape

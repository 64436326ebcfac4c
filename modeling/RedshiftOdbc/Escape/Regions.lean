import Mathlib.Data.List.Infix
import Mathlib.Data.List.TakeWhile

/-!
# The regions of an argument text

The lexical rules of the driver's argument parser, apart from the parser: a text
is divided character by character into string literals, quoted identifiers,
comments and the bare rest.  Inside a literal a quote is kept from closing it by
a backslash before it; a doubled quote closes a literal and opens the next one.
-/

namespace RedshiftOdbc.Escape

inductive Region where
  | bare
  | literal
  | identifier
  | comment
  deriving DecidableEq, Repr

/-- What is open behind a prefix.  Of a comment's opener the second character is still to come. -/
inductive Mode where
  | bare
  | literal
  | backslash
  | identifier
  | openLine
  | line
  | openBlock
  | block
  | star
  deriving DecidableEq, Repr

/-- The region of a character, and what is open behind it.  Comments need not be looked for. -/
def Mode.read (comments : Bool) (mode : Mode) (character : Char) (following : Option Char) :
    Region × Mode :=
  match mode with
  | .bare =>
      if character = '\'' then (.literal, .literal)
      else if character = '"' then (.identifier, .identifier)
      else if comments ∧ character = '-' ∧ following = some '-' then (.comment, .openLine)
      else if comments ∧ character = '/' ∧ following = some '*' then (.comment, .openBlock)
      else (.bare, .bare)
  | .literal =>
      (.literal,
        if character = '\'' then .bare else if character = '\\' then .backslash else .literal)
  | .backslash => (.literal, if character = '\\' then .backslash else .literal)
  | .identifier => (.identifier, if character = '"' then .bare else .identifier)
  | .openLine => (.comment, .line)
  | .line => (.comment, if character = '\n' ∨ character = '\r' then .bare else .line)
  | .openBlock => (.comment, .block)
  | .block => (.comment, if character = '*' then .star else .block)
  | .star =>
      (.comment,
        if character = '/' then .bare else if character = '*' then .star else .block)

def regions (comments : Bool) : Mode → List Char → List (Char × Region)
  | _, [] => []
  | mode, character :: rest =>
      (character, (mode.read comments character rest.head?).1) ::
        regions comments (mode.read comments character rest.head?).2 rest

/-- What is open behind a text. -/
def Mode.after (comments : Bool) : Mode → List Char → Mode
  | mode, [] => mode
  | mode, character :: rest => (mode.read comments character rest.head?).2.after comments rest

@[simp] theorem regions_nil (comments : Bool) (mode : Mode) : regions comments mode [] = [] := rfl

@[simp] theorem Mode.after_nil (comments : Bool) (mode : Mode) :
    mode.after comments [] = mode := rfl

/-- A character behind a text that ends no comment's opener changes nothing before it. -/
theorem Mode.read_none (comments : Bool) (mode : Mode) (character : Char) {following : Option Char}
    (dash : following ≠ some '-') (star : following ≠ some '*') :
    mode.read comments character following = mode.read comments character none := by
  cases mode <;> simp [Mode.read, dash, star]

/-- A bare character is read outside of everything, and nothing is open behind it. -/
theorem Mode.read_of_bare {comments : Bool} {mode : Mode} {character : Char}
    {following : Option Char} (bare : (mode.read comments character following).1 = .bare) :
    mode = .bare ∧ mode.read comments character following = (.bare, .bare) := by
  cases mode with
  | bare =>
      refine ⟨rfl, ?_⟩
      simp only [Mode.read] at bare ⊢
      split_ifs at bare ⊢
      rfl
  | _ => simp [Mode.read] at bare

theorem regions_append (comments : Bool) (mode : Mode) (text : List Char) {behind : List Char}
    (dash : behind.head? ≠ some '-') (star : behind.head? ≠ some '*') :
    regions comments mode (text ++ behind) =
      regions comments mode text ++ regions comments (mode.after comments text) behind := by
  induction text generalizing mode with
  | nil => rfl
  | cons character rest ih =>
      have same : mode.read comments character (rest ++ behind).head? =
          mode.read comments character rest.head? := by
        cases rest with
        | nil => exact mode.read_none comments character dash star
        | cons next rest => rfl
      simp only [List.cons_append, regions, Mode.after, same, ih]

@[simp] theorem regions_map_fst (comments : Bool) (mode : Mode) (text : List Char) :
    (regions comments mode text).map Prod.fst = text := by
  induction text generalizing mode with
  | nil => rfl
  | cons character rest ih => simp [regions, ih]

def uncommented (list : List (Char × Region)) : List Char :=
  (list.filter fun character => character.2 ≠ .comment).map Prod.fst

@[simp] theorem uncommented_nil : uncommented [] = [] := rfl

@[simp] theorem uncommented_append (first rest : List (Char × Region)) :
    uncommented (first ++ rest) = uncommented first ++ uncommented rest := by
  simp [uncommented]

theorem uncommented_comment (character : Char) (rest : List (Char × Region)) :
    uncommented ((character, .comment) :: rest) = uncommented rest := by
  simp [uncommented]

theorem uncommented_cons {character : Char × Region} (other : character.2 ≠ .comment)
    (rest : List (Char × Region)) :
    uncommented (character :: rest) = character.1 :: uncommented rest := by
  simp [uncommented, other]

/-! ## Without comments -/

/-- Where no comments are looked for, the character behind does not matter. -/
theorem Mode.read_false (mode : Mode) (character : Char) (following : Option Char) :
    mode.read false character following = mode.read false character none := by
  cases mode <;> simp [Mode.read]

theorem regions_false_append (mode : Mode) (text behind : List Char) :
    regions false mode (text ++ behind) =
      regions false mode text ++ regions false (mode.after false text) behind := by
  induction text generalizing mode with
  | nil => rfl
  | cons character text ih =>
      rw [List.cons_append, regions, regions, Mode.after, mode.read_false character text.head?,
        mode.read_false character (text ++ behind).head?, ih, List.cons_append]

theorem Mode.after_false_append (mode : Mode) (text behind : List Char) :
    mode.after false (text ++ behind) = (mode.after false text).after false behind := by
  induction text generalizing mode with
  | nil => rfl
  | cons character text ih =>
      rw [List.cons_append, Mode.after, Mode.after, mode.read_false character text.head?,
        mode.read_false character (text ++ behind).head?, ih]

/-- What is open behind a character when comments are passed over. -/
def Mode.quote (mode : Mode) : Mode :=
  match mode with
  | .openLine | .line | .openBlock | .block | .star => .bare
  | _ => mode

/--
What is open behind a list whose regions are those of the characters without the
comments, when every comment stands outside of literals and identifiers.
-/
def Mode.follow : Mode → List (Char × Region) → Option Mode
  | mode, [] => some mode
  | mode, (character, region) :: rest =>
      if region = .comment then if mode = .bare then Mode.follow .bare rest else none
      else if (mode.read false character none).1 = region then
        Mode.follow (mode.read false character none).2 rest
      else none

@[simp] theorem Mode.follow_nil (mode : Mode) : mode.follow [] = some mode := rfl

theorem Mode.follow_append (mode : Mode) (first rest : List (Char × Region)) :
    mode.follow (first ++ rest) = (mode.follow first).bind fun mode => mode.follow rest := by
  induction first generalizing mode with
  | nil => rfl
  | cons character first ih =>
      obtain ⟨character, region⟩ := character
      simp only [List.cons_append, Mode.follow]
      split_ifs <;> simp [ih]

theorem Mode.read_quote (mode : Mode) (character : Char) (following : Option Char) :
    (mode.quote.follow [(character, (mode.read true character following).1)]) =
      some (mode.read true character following).2.quote := by
  cases mode with
  | openLine => rfl
  | openBlock => rfl
  | _ =>
      simp only [Mode.read, Mode.quote]
      split_ifs <;> simp_all [Mode.follow, Mode.read]

theorem follow_regions (mode : Mode) (text : List Char) :
    mode.quote.follow (regions true mode text) = some (mode.after true text).quote := by
  induction text generalizing mode with
  | nil => rfl
  | cons character rest ih =>
      rw [regions, ← List.singleton_append, Mode.follow_append, Mode.read_quote,
        Option.bind_some, ih, Mode.after]

/-- Read once more without looking for comments, the characters have the same regions. -/
theorem regions_uncommented {mode mode' : Mode} {list : List (Char × Region)}
    (follows : mode.follow list = some mode') :
    regions false mode (uncommented list) =
      list.filter fun character => character.2 ≠ .comment := by
  induction list generalizing mode with
  | nil => rfl
  | cons character list ih =>
      obtain ⟨character, region⟩ := character
      rw [Mode.follow] at follows
      split_ifs at follows with isComment isBare same
      · subst isComment isBare
        rw [uncommented_comment, ih follows]
        simp
      · rw [uncommented_cons (by exact isComment), regions, Mode.read_false, same, ih follows]
        simp [isComment]

theorem after_uncommented {mode mode' : Mode} {list : List (Char × Region)}
    (follows : mode.follow list = some mode') :
    mode.after false (uncommented list) = mode' := by
  induction list generalizing mode with
  | nil => exact Option.some.inj follows
  | cons character list ih =>
      obtain ⟨character, region⟩ := character
      rw [Mode.follow] at follows
      split_ifs at follows with isComment isBare same
      · subst isComment isBare
        rw [uncommented_comment, ih follows]
      · rw [uncommented_cons (by exact isComment), Mode.after, Mode.read_false, ih follows]

/-! ## Surplus -/

/-- A bare opening character counts one up, a bare closing one counts one down. -/
def weight (opening closing : Char) (character : Char × Region) : Int :=
  if character = (opening, .bare) then 1 else if character = (closing, .bare) then -1 else 0

/-- The opening characters of a list that its closing ones leave open. -/
def surplus (opening closing : Char) : List (Char × Region) → Int
  | [] => 0
  | character :: rest => weight opening closing character + surplus opening closing rest

@[simp] theorem surplus_nil (opening closing : Char) : surplus opening closing [] = 0 := rfl

@[simp] theorem surplus_cons (opening closing : Char) (first : Char × Region)
    (rest : List (Char × Region)) :
    surplus opening closing (first :: rest) =
      weight opening closing first + surplus opening closing rest := rfl

@[simp] theorem surplus_append (opening closing : Char) (first rest : List (Char × Region)) :
    surplus opening closing (first ++ rest) =
      surplus opening closing first + surplus opening closing rest := by
  induction first with
  | nil => simp
  | cons character first ih => simp [ih, Int.add_assoc]

theorem surplus_eq_zero {opening closing : Char} {list : List (Char × Region)}
    (light : ∀ character ∈ list, weight opening closing character = 0) :
    surplus opening closing list = 0 := by
  induction list with
  | nil => rfl
  | cons character list ih =>
      rw [surplus_cons, light character (by simp),
        ih fun other within => light other (by simp [within]), Int.add_zero]

/-- No closing character comes before its opening one. -/
def Opened (opening closing : Char) (list : List (Char × Region)) : Prop :=
  ∀ front, front <+: list → 0 ≤ surplus opening closing front

/-- Every opening character has its closing one. -/
structure Nested (opening closing : Char) (list : List (Char × Region)) : Prop where
  opened : Opened opening closing list
  closed : surplus opening closing list = 0

instance (opening closing : Char) (list : List (Char × Region)) :
    Decidable (Opened opening closing list) :=
  decidable_of_iff (∀ front ∈ list.inits, 0 ≤ surplus opening closing front) (by simp [Opened])

instance (opening closing : Char) (list : List (Char × Region)) :
    Decidable (Nested opening closing list) :=
  decidable_of_iff (Opened opening closing list ∧ surplus opening closing list = 0)
    ⟨fun both => ⟨both.1, both.2⟩, fun nested => ⟨nested.opened, nested.closed⟩⟩

theorem opened_nil (opening closing : Char) : Opened opening closing [] := by
  intro front isFront
  simp [List.prefix_nil.mp isFront]

theorem Opened.surplus_nonneg {opening closing : Char} {list : List (Char × Region)}
    (opened : Opened opening closing list) : 0 ≤ surplus opening closing list :=
  opened list (List.prefix_refl list)

theorem Opened.concat {opening closing : Char} {list : List (Char × Region)}
    {character : Char × Region} (opened : Opened opening closing list)
    (within : 0 ≤ surplus opening closing list + weight opening closing character) :
    Opened opening closing (list ++ [character]) := by
  intro front isFront
  rcases List.prefix_concat_iff.mp isFront with same | earlier
  · rw [same]
    simpa using within
  · exact opened front earlier

/-- A prefix of two lists put together ends in the first one or in the second one. -/
theorem prefix_append_cases {α : Type} {front first second : List α}
    (isFront : front <+: first ++ second) :
    front <+: first ∨ ∃ rest, front = first ++ rest ∧ rest <+: second := by
  rcases List.prefix_or_prefix_of_prefix isFront (List.prefix_append first second) with
    early | ⟨rest, rfl⟩
  · exact Or.inl early
  · exact Or.inr ⟨rest, rfl, (List.prefix_append_right_inj first).mp isFront⟩

/-- Characters without weight at both ends do not matter. -/
theorem nested_surround {opening closing : Char} {before list behind : List (Char × Region)}
    (lightBefore : ∀ character ∈ before, weight opening closing character = 0)
    (lightBehind : ∀ character ∈ behind, weight opening closing character = 0) :
    Nested opening closing (before ++ list ++ behind) ↔ Nested opening closing list := by
  have light : ∀ {part : List (Char × Region)},
      (∀ character ∈ part, weight opening closing character = 0) →
        ∀ front, front <+: part → surplus opening closing front = 0 := by
    intro part weightless front isFront
    exact surplus_eq_zero fun character within => weightless character (isFront.subset within)
  have zeroBefore := light lightBefore before (List.prefix_refl before)
  have zeroBehind := light lightBehind behind (List.prefix_refl behind)
  constructor
  · intro nested
    constructor
    · intro front isFront
      have longer : before ++ front <+: before ++ list ++ behind := by
        rw [List.append_assoc]
        exact (List.prefix_append_right_inj before).mpr
          (isFront.trans (List.prefix_append list behind))
      have bound := nested.opened _ longer
      rw [surplus_append] at bound
      omega
    · have total := nested.closed
      rw [surplus_append, surplus_append] at total
      omega
  · intro nested
    constructor
    · intro front isFront
      rcases prefix_append_cases isFront with inside | ⟨rest, rfl, isRest⟩
      · rcases prefix_append_cases inside with early | ⟨rest, rfl, isRest⟩
        · exact Int.le_of_eq (light lightBefore front early).symm
        · have bound := nested.opened rest isRest
          rw [surplus_append]
          omega
      · have bound := nested.closed
        have none := light lightBehind rest isRest
        rw [surplus_append, surplus_append]
        omega
    · have total := nested.closed
      rw [surplus_append, surplus_append]
      omega

end RedshiftOdbc.Escape

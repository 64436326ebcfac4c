import Mathlib.Data.List.Basic

/-!
# Replacing what a pattern matches

Patterns of single elements and greedy repetitions with one group, matched with
backtracking, and the replacement of every match from left to right.
-/

namespace RedshiftOdbc.Replace

variable {α : Type*}

/-- One element of a class, or as many as possible. -/
inductive Item (α : Type*) where
  | one (admits : α → Bool)
  | many (admits : α → Bool)

/-- What the first items match, of which more than the group may be left out. -/
abbrev Found (α : Type*) := List (List α) × List α

/-- A repetition takes all it can and gives back one element at a time. -/
def matchMany (admits : α → Bool) (behind : List α → Option (Found α)) :
    List α → Option (List α × Found α)
  | [] => (behind []).map fun found => ([], found)
  | first :: text =>
      match if admits first then matchMany admits behind text else none with
      | some (stretch, found) => some (first :: stretch, found)
      | none => (behind (first :: text)).map fun found => ([], found)

/-- The stretch of every item at the beginning of a text, and the rest of the text. -/
def matchItems : List (Item α) → List α → Option (Found α)
  | [], text => some ([], text)
  | .one _ :: _, [] => none
  | .one admits :: items, first :: text =>
      if admits first then (matchItems items text).map fun found => ([first] :: found.1, found.2)
      else none
  | .many admits :: items, text =>
      (matchMany admits (matchItems items) text).map fun found =>
        (found.1 :: found.2.1, found.2.2)

/-- A group and what is behind it. -/
structure Pattern (α : Type*) where
  group : List (Item α)
  behind : List (Item α)

/-- The group and the rest of the text, where the pattern matches at its beginning. -/
def Pattern.match? (pattern : Pattern α) (text : List α) : Option (List α × List α) :=
  (matchItems (pattern.group ++ pattern.behind) text).map fun found =>
    ((found.1.take pattern.group.length).flatten, found.2)

/-- Matches are replaced from left to right; a pattern takes at least one element. -/
def replaceFrom (pattern : Pattern α) (format : List α → List α) : Nat → List α → List α
  | _, [] => []
  | 0, text => text
  | turns + 1, first :: text =>
      match pattern.match? (first :: text) with
      | some (group, rest) => format group ++ replaceFrom pattern format turns rest
      | none => first :: replaceFrom pattern format turns text

def replaceAll (pattern : Pattern α) (format : List α → List α) (text : List α) : List α :=
  replaceFrom pattern format text.length text

def literal [DecidableEq α] (text : List α) : List (Item α) :=
  text.map fun element => .one fun other => other = element

/-! ## Matching -/

/-- In front of what does not begin with its class a repetition takes the whole stretch. -/
theorem matchMany_eq {admits : α → Bool} {behind : List α → Option (Found α)}
    (apart : ∀ first rest, admits first = true → behind (first :: rest) = none) (text : List α) :
    matchMany admits behind text =
      (behind (text.dropWhile admits)).map fun found => (text.takeWhile admits, found) := by
  induction text with
  | nil => rfl
  | cons first text ih =>
      rw [matchMany]
      cases admitted : admits first with
      | false =>
          rw [if_neg Bool.false_ne_true, List.dropWhile_cons_of_neg (by simp [admitted]),
            List.takeWhile_cons_of_neg (by simp [admitted])]
      | true =>
          rw [if_pos rfl, ih, List.dropWhile_cons_of_pos admitted,
            List.takeWhile_cons_of_pos admitted, apart first text admitted]
          cases behind (text.dropWhile admits) <;> rfl

section

variable [DecidableEq α] {items : List (Item α)} {text whole : List α}

theorem matchItems_literal (text : List α) (items : List (Item α)) (rest : List α) :
    matchItems (literal text ++ items) (text ++ rest) =
      (matchItems items rest).map fun found => (text.map (fun element => [element]) ++ found.1,
        found.2) := by
  induction text with
  | nil => simp [literal]
  | cons first text ih =>
      rw [literal, List.map_cons, List.cons_append, List.cons_append, matchItems,
        if_pos (decide_eq_true rfl), ← literal, ih]
      cases matchItems items rest <;> rfl

/-- A text that does not begin with the literal is not matched. -/
theorem literal_prefix {found : Found α}
    (matched : matchItems (literal text ++ items) whole = some found) :
    ∃ rest, whole = text ++ rest ∧ (matchItems items rest).isSome = true := by
  induction text generalizing whole found with
  | nil => exact ⟨whole, rfl, Option.isSome_of_eq_some matched⟩
  | cons first text ih =>
      cases whole with
      | nil => simp [literal, matchItems] at matched
      | cons other whole =>
          rw [literal, List.map_cons, List.cons_append, matchItems] at matched
          split_ifs at matched with same
          obtain ⟨later, behind, -⟩ := Option.map_eq_some_iff.mp matched
          obtain ⟨rest, split, goes⟩ := ih behind
          exact ⟨rest, by rw [split, of_decide_eq_true same]; rfl, goes⟩

/-- A literal behind a repetition of a class that its first element is not in. -/
theorem matchItems_many {admits : α → Bool} {first : α} (apart : admits first = false)
    (whole : List α) :
    matchItems (.many admits :: (literal (first :: text) ++ items)) whole =
      (matchItems (literal (first :: text) ++ items) (whole.dropWhile admits)).map fun found =>
        (whole.takeWhile admits :: found.1, found.2) := by
  rw [matchItems, matchMany_eq]
  · cases matchItems (literal (first :: text) ++ items) (whole.dropWhile admits) <;> rfl
  · intro other rest admitted
    refine if_neg fun same => ?_
    rw [of_decide_eq_true same, apart] at admitted
    cases admitted

end

/-! ## Replacing -/

section

variable {pattern : Pattern α} {format : List α → List α}

theorem replaceFrom_enough
    (shrinks : ∀ text group rest, pattern.match? text = some (group, rest) →
      rest.length < text.length)
    {turns more : Nat} {text : List α} (enough : text.length ≤ turns)
    (enough' : text.length ≤ more) :
    replaceFrom pattern format turns text = replaceFrom pattern format more text := by
  induction turns generalizing more text with
  | zero =>
      rw [List.length_eq_zero_iff.mp (Nat.le_zero.mp enough)]
      cases more <;> rfl
  | succ turns ih =>
      cases text with
      | nil => cases more <;> rfl
      | cons first text =>
          rw [List.length_cons] at enough enough'
          obtain ⟨more, rfl⟩ : ∃ less, more = less + 1 := ⟨more - 1, by omega⟩
          rw [replaceFrom, replaceFrom]
          cases found : pattern.match? (first :: text) with
          | none =>
              dsimp only
              rw [@ih more text (by omega) (by omega)]
          | some result =>
              have shorter := shrinks _ result.1 result.2 found
              rw [List.length_cons] at shorter
              dsimp only
              rw [@ih more result.2 (by omega) (by omega)]

/-- Without a match the first element is kept. -/
theorem replaceAll_pass {first : α} {text : List α}
    (unmatched : pattern.match? (first :: text) = none) :
    replaceAll pattern format (first :: text) = first :: replaceAll pattern format text := by
  rw [replaceAll, List.length_cons, replaceFrom, unmatched]
  rfl

/-- A match is replaced. -/
theorem replaceAll_match
    (shrinks : ∀ text group rest, pattern.match? text = some (group, rest) →
      rest.length < text.length)
    {text group rest : List α} (matched : pattern.match? text = some (group, rest)) :
    replaceAll pattern format text = format group ++ replaceAll pattern format rest := by
  have shorter := shrinks text group rest matched
  cases text with
  | nil => exact absurd shorter (Nat.not_lt_zero _)
  | cons first text =>
      rw [List.length_cons] at shorter
      rw [replaceAll, List.length_cons, replaceFrom, matched]
      dsimp only
      rw [replaceAll, replaceFrom_enough shrinks (Nat.le_of_lt_succ shorter) (Nat.le_refl _)]

end

end RedshiftOdbc.Replace

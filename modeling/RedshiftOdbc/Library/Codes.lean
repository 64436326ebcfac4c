import Mathlib.Data.List.Basic

/-!
# Texts in units of a code

A code writes each character as some units.  A text is cut to a number of units at
the end of its longest run of whole characters that fits.
-/

namespace RedshiftOdbc.Codes

variable {χ α : Type}

def encode (code : χ → List α) (text : List χ) : List α := text.flatMap code

section

variable (code : χ → List α)

@[simp]
theorem encode_nil : encode code [] = [] := rfl

@[simp]
theorem encode_cons (character : χ) (text : List χ) :
    encode code (character :: text) = code character ++ encode code text := rfl

@[simp]
theorem encode_append (text more : List χ) :
    encode code (text ++ more) = encode code text ++ encode code more := List.flatMap_append

end

/-- The longest run of whole characters at the front of a text that fits. -/
structure IsLongest (code : χ → List α) (room : Nat) (text kept : List χ) : Prop where
  isPrefix : kept <+: text
  fits : (encode code kept).length ≤ room
  longest : ∀ other, other <+: text → (encode code other).length ≤ room → other <+: kept

/-- A text that is too long is cut in front of a character that does not fit. -/
theorem exists_cut {code : χ → List α} {room : Nat} {text : List χ}
    (long : room < (encode code text).length) :
    ∃ before character after, text = before ++ character :: after ∧
      (encode code before).length ≤ room ∧
      room < (encode code before).length + (code character).length := by
  induction text generalizing room with
  | nil => simp at long
  | cons character text ih =>
      by_cases fits : (code character).length ≤ room
      · simp only [encode_cons, List.length_append] at long
        have rest : room - (code character).length < (encode code text).length := by omega
        obtain ⟨before, next, after, rfl, low, high⟩ := ih rest
        refine ⟨character :: before, next, after, rfl, ?_, ?_⟩
        · simp only [encode_cons, List.length_append]
          omega
        · simp only [encode_cons, List.length_append]
          omega
      · exact ⟨[], character, text, rfl, Nat.zero_le _, by simpa using fits⟩

theorem isLongest_whole {code : χ → List α} {room : Nat} {text : List χ}
    (fits : (encode code text).length ≤ room) : IsLongest code room text text :=
  ⟨List.prefix_rfl, fits, fun _ isPrefix _ => isPrefix⟩

theorem isLongest_cut {code : χ → List α} {room : Nat} {before after : List χ} {character : χ}
    (low : (encode code before).length ≤ room)
    (high : room < (encode code before).length + (code character).length) :
    IsLongest code room (before ++ character :: after) before := by
  refine ⟨List.prefix_append _ _, low, ?_⟩
  intro other isPrefix fits
  rcases List.prefix_or_prefix_of_prefix isPrefix (List.prefix_append before _) with
    inside | ⟨tail, rfl⟩
  · exact inside
  · rw [List.prefix_append_right_inj] at isPrefix
    cases tail with
    | nil => simp
    | cons first more =>
        have same : first = character := (List.cons_prefix_cons.mp isPrefix).1
        simp only [encode_append, encode_cons, List.length_append, same] at fits
        omega

end RedshiftOdbc.Codes

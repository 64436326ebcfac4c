import Mathlib.Data.List.Basic

/-!
# Regular expressions over bytes

The regular expressions of ECMAScript without groups, alternatives, counted
quantifiers and named classes.  A text outside of this part, as one that is no
regular expression at all, does not parse.
-/

namespace RedshiftOdbc.Regex

inductive ClassEscape where
  | space
  | notSpace
  deriving DecidableEq, Repr

def isSpace (byte : UInt8) : Bool := byte = 32 || (9 ≤ byte && byte ≤ 13)

def isLineTerminator (byte : UInt8) : Bool := byte = 10 || byte = 13

namespace ClassEscape

def admits : ClassEscape → UInt8 → Bool
  | space, byte => isSpace byte
  | notSpace, byte => !isSpace byte

end ClassEscape

inductive Atom where
  | char (byte : UInt8)
  | dot
  | oneOf (escapes : List ClassEscape)
  deriving DecidableEq, Repr

def Atom.admits : Atom → UInt8 → Bool
  | char expected, byte => expected = byte
  | dot, byte => !isLineTerminator byte
  | oneOf escapes, byte => escapes.any (·.admits byte)

/-- The assertions `^` and `$`, and an atom with or without `*`. -/
inductive Term where
  | begins
  | ends
  | atom (atom : Atom) (starred : Bool)
  deriving DecidableEq, Repr

/-- The characters that do not stand for themselves. -/
def isSyntax (byte : UInt8) : Bool :=
  [94, 36, 92, 46, 42, 43, 63, 40, 41, 91, 93, 123, 125, 124].contains byte

def isAlphanumeric (byte : UInt8) : Bool :=
  (48 ≤ byte && byte ≤ 57) || (65 ≤ byte && byte ≤ 90) || (97 ≤ byte && byte ≤ 122)

/-- The rest of a class and what stands behind it. -/
def parseClass : List UInt8 → Option (List ClassEscape × List UInt8)
  | 93 :: rest => some ([], rest)
  | 92 :: 115 :: rest => (parseClass rest).map fun (escapes, rest) => (.space :: escapes, rest)
  | 92 :: 83 :: rest => (parseClass rest).map fun (escapes, rest) => (.notSpace :: escapes, rest)
  | _ => none

/-- The atom at the beginning of a text and what stands behind it. -/
def parseAtom : List UInt8 → Option (Atom × List UInt8)
  | 46 :: rest => some (.dot, rest)
  | 91 :: rest => (parseClass rest).map fun (escapes, rest) => (.oneOf escapes, rest)
  | 92 :: byte :: rest => if isAlphanumeric byte then none else some (.char byte, rest)
  | byte :: rest => if isSyntax byte then none else some (.char byte, rest)
  | [] => none

/-- The terms of a text, each of which takes at least a byte of it. -/
def parseTerms : Nat → List UInt8 → Option (List Term)
  | _, [] => some []
  | 0, _ => none
  | turns + 1, 94 :: rest => (parseTerms turns rest).map (.begins :: ·)
  | turns + 1, 36 :: rest => (parseTerms turns rest).map (.ends :: ·)
  | turns + 1, text =>
      match parseAtom text with
      | none => none
      | some (atom, 42 :: rest) => (parseTerms turns rest).map (.atom atom true :: ·)
      | some (atom, rest) => (parseTerms turns rest).map (.atom atom false :: ·)

def parse (text : List UInt8) : Option (List Term) := parseTerms text.length text

theorem parseAtom_plain {byte : UInt8} {rest : List UInt8} (plain : isSyntax byte = false) :
    parseAtom (byte :: rest) = some (.char byte, rest) := by
  have other : byte ≠ 46 ∧ byte ≠ 91 ∧ byte ≠ 92 := by
    refine ⟨?_, ?_, ?_⟩ <;> rintro rfl <;> exact absurd plain (by decide)
  unfold parseAtom
  split
  case h_1 same => exact absurd (List.cons.inj same).1 other.1
  case h_2 same => exact absurd (List.cons.inj same).1 other.2.1
  case h_3 same => exact absurd (List.cons.inj same).1 other.2.2
  case h_4 same =>
    obtain ⟨rfl, rfl⟩ := List.cons.inj same
    rw [if_neg (by rw [plain]; exact Bool.false_ne_true)]
  case h_5 same => exact absurd same (List.cons_ne_nil _ _)

section
variable {turns : Nat} {text rest : List UInt8} {atom : Atom} (first : text.head? ≠ some 94)
  (other : text.head? ≠ some 36)

include first other in
/-- What a text that starts with an atom parses to. -/
theorem parseTerms_starred (parsed : parseAtom text = some (atom, 42 :: rest)) :
    parseTerms (turns + 1) text = (parseTerms turns rest).map (.atom atom true :: ·) := by
  cases text with
  | nil => simp only [parseAtom, reduceCtorEq] at parsed
  | cons byte text =>
      rw [parseTerms]
      · simp only [parsed]
      · exact fun same => List.cons_ne_nil _ _ same
      · rintro rest same
        exact first (by rw [same]; rfl)
      · rintro rest same
        exact other (by rw [same]; rfl)

include first other in
theorem parseTerms_single (parsed : parseAtom text = some (atom, rest))
    (notStar : rest.head? ≠ some 42) :
    parseTerms (turns + 1) text = (parseTerms turns rest).map (.atom atom false :: ·) := by
  cases text with
  | nil => simp only [parseAtom, reduceCtorEq] at parsed
  | cons byte text =>
      rw [parseTerms]
      · rw [parsed]
        split
        case h_1 none => simp only [reduceCtorEq] at none
        case h_2 star =>
          simp only [Option.some.injEq, Prod.mk.injEq] at star
          exact absurd (by rw [star.2]; rfl) notStar
        case h_3 plain =>
          simp only [Option.some.injEq, Prod.mk.injEq] at plain
          rw [plain.1, plain.2]
      · exact fun same => List.cons_ne_nil _ _ same
      · rintro rest same
        exact first (by rw [same]; rfl)
      · rintro rest same
        exact other (by rw [same]; rfl)

end

/-- All of a string is matched, of which `start` tells whether nothing stands before it. -/
def matchTerms : List Term → Bool → List UInt8 → Bool
  | [], _, string => string.isEmpty
  | .begins :: terms, start, string => start && matchTerms terms start string
  | .ends :: terms, start, string => string.isEmpty && matchTerms terms start string
  | .atom _ false :: _, _, [] => false
  | .atom atom false :: terms, _, byte :: string => atom.admits byte && matchTerms terms false string
  | .atom _ true :: terms, start, [] => matchTerms terms start []
  | .atom atom true :: terms, start, byte :: string =>
      matchTerms terms start (byte :: string) ||
        (atom.admits byte && matchTerms (.atom atom true :: terms) false string)
termination_by terms _ string => terms.length + string.length

/-- The constructor, which throws when the text does not parse, and `regex_match`. -/
def regexMatch (text string : List UInt8) : Option Bool :=
  (parse text).map fun terms => matchTerms terms true string

end RedshiftOdbc.Regex

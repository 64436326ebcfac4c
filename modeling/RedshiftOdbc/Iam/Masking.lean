import RedshiftOdbc.Library.CText
import RedshiftOdbc.Library.Replace

/-!
# Masking the credentials of a response

Four regular expressions, one for each name, mask the string values of a JSON text.  Such
a text is taken as a sequence of strings and of the bytes between them.
-/

namespace RedshiftOdbc.Iam

open RedshiftOdbc.CText
open RedshiftOdbc.Replace

/-- The group ends with the quote that opens the value. -/
def getRegexForJsonKey (keyName : List UInt8) : Pattern UInt8 where
  group := literal (34 :: (keyName ++ [34])) ++
    .many isSpace :: (literal [58] ++ .many isSpace :: literal [34])
  behind := .many (fun byte => byte ≠ 34) :: literal [34]

def masked : List UInt8 := bytes "***masked***"

/-- `regex_replace` for one name. -/
def maskName (content tokenName : List UInt8) : List UInt8 :=
  replaceAll (getRegexForJsonKey tokenName) (fun group => group ++ (masked ++ [34])) content

def tokenNames : List (List UInt8) :=
  [bytes "access_token", bytes "id_token", bytes "refresh_token", bytes "sessionToken"]

def maskCredentials (content : List UInt8) : List UInt8 :=
  if content = [] then content else tokenNames.foldl maskName content

/-! ## JSON texts -/

/-- A string with its escapes as they are written, or a byte outside of strings. -/
inductive Token where
  | text (raw : List UInt8)
  | mark (byte : UInt8)
  deriving DecidableEq, Repr

def Token.render : Token → List UInt8
  | text raw => 34 :: (raw ++ [34])
  | mark byte => [byte]

def render (tokens : List Token) : List UInt8 := tokens.flatMap Token.render

/-- Brackets, separators, white space, and what numbers and literal names are made of. -/
def isMark (byte : UInt8) : Bool :=
  (bytes "{}[]:,+-.0123456789eEtrufalsn \t\n\r").contains byte

def isBlank (byte : UInt8) : Bool := byte = 32 || byte = 9 || byte = 10 || byte = 13

/-- A quote is escaped, and so is a backslash. -/
def isContent : List UInt8 → Bool
  | [] => true
  | 92 :: [] => false
  | 92 :: _ :: rest => isContent rest
  | byte :: rest => byte ≠ 34 && isContent rest

def Token.IsValid : Token → Bool
  | text raw => isContent raw
  | mark byte => isMark byte

def hexValue (byte : UInt8) : Nat :=
  if byte ≤ 57 then byte.toNat - 48 else if byte ≤ 70 then byte.toNat - 55 else byte.toNat - 87

/-- The code units of a string; bytes that are not escaped stand for themselves. -/
def decode : List UInt8 → List Nat
  | 92 :: 117 :: a :: b :: c :: d :: rest =>
      (((hexValue a * 16 + hexValue b) * 16 + hexValue c) * 16 + hexValue d) :: decode rest
  | 92 :: 98 :: rest => 8 :: decode rest
  | 92 :: 102 :: rest => 12 :: decode rest
  | 92 :: 110 :: rest => 10 :: decode rest
  | 92 :: 114 :: rest => 13 :: decode rest
  | 92 :: 116 :: rest => 9 :: decode rest
  | 92 :: byte :: rest => byte.toNat :: decode rest
  | byte :: rest => byte.toNat :: decode rest
  | [] => []

/-- Outside, behind a name, and behind its colon. -/
inductive Place where
  | outside
  | name
  | colon
  deriving DecidableEq, Repr

def Place.after : Place → UInt8 → Place
  | outside, _ => outside
  | name, byte => if isBlank byte then name else if byte = 58 then colon else outside
  | colon, byte => if isBlank byte then colon else outside

/-- The string values of the members with such a name are masked. -/
def maskMember (sensitive : List UInt8 → Bool) : Place → List Token → List Token
  | _, [] => []
  | .colon, .text _ :: rest => .text masked :: maskMember sensitive .outside rest
  | _, .text raw :: rest =>
      .text raw :: maskMember sensitive (if sensitive raw then .name else .outside) rest
  | place, .mark byte :: rest => .mark byte :: maskMember sensitive (place.after byte) rest

/-- A name is compared as it reads without escapes. -/
def isNamed (tokenName raw : List UInt8) : Bool := decode raw = tokenName.map UInt8.toNat

/-- The text in which the string value of every member with one of the names is masked. -/
def maskMembers (tokens : List Token) : List Token :=
  tokenNames.foldl (fun tokens tokenName => maskMember (isNamed tokenName) .outside tokens) tokens

/-- The string value that follows a name, and what is behind it. -/
def valueBehind : Place → List Token → Option (List UInt8 × List Token)
  | .outside, _ => none
  | _, [] => none
  | .colon, .text value :: rest => some (value, rest)
  | .name, .text _ :: _ => none
  | place, .mark byte :: rest => valueBehind (place.after byte) rest

/--
A name that reads as one of the four is spelled without escapes and its value has no
escaped quote; no other name ends with an escaped quote and one of the four.
-/
def SpelledOut (raw value : List UInt8) : Prop :=
  ((∃ tokenName ∈ tokenNames, isNamed tokenName raw = true) →
    raw ∈ tokenNames ∧ (34 : UInt8) ∉ value) ∧
  ∀ tokenName ∈ tokenNames, ¬(34 :: tokenName) <:+ raw

instance (raw value : List UInt8) : Decidable (SpelledOut raw value) :=
  decidable_of_iff
    ((!tokenNames.any (fun tokenName => isNamed tokenName raw) ||
      (tokenNames.contains raw && !value.contains 34)) &&
        tokenNames.all (fun tokenName => !(34 :: tokenName).isSuffixOf raw))
    (by
      have ends (tokenName : List UInt8) :
          (34 :: tokenName).isSuffixOf raw = false ↔ ¬(34 :: tokenName) <:+ raw := by
        rw [← List.isSuffixOf_iff_suffix, Bool.not_eq_true]
      simp [SpelledOut, ends, imp_iff_not_or])

/-- Every member with a string value is spelled out. -/
def Legible : List Token → Prop
  | [] => True
  | .mark _ :: rest => Legible rest
  | .text raw :: rest =>
      (∀ found ∈ valueBehind .name rest, SpelledOut raw found.1) ∧ Legible rest

instance decidableLegible : (tokens : List Token) → Decidable (Legible tokens)
  | [] => isTrue trivial
  | .mark _ :: rest => decidableLegible rest
  | .text raw :: rest =>
      have := decidableLegible rest
      inferInstanceAs (Decidable
        ((∀ found ∈ valueBehind .name rest, SpelledOut raw found.1) ∧ Legible rest))

/-! ## Where the expression matches -/

def opening (tokenName before after : List UInt8) : List UInt8 :=
  (34 :: (tokenName ++ [34])) ++ (before ++ ([58] ++ (after ++ [34])))

section

variable {tokenName : List UInt8}

theorem items_eq (tokenName : List UInt8) :
    (getRegexForJsonKey tokenName).group ++ (getRegexForJsonKey tokenName).behind =
      literal (34 :: (tokenName ++ [34])) ++ (.many isSpace :: (literal [58] ++
        (.many isSpace :: (literal [34] ++
          (.many (fun byte => decide (byte ≠ 34)) :: (literal [34] ++ [])))))) := by
  simp [getRegexForJsonKey]

theorem dropWhile_stretch {admits : UInt8 → Bool} {front : List UInt8} {first : UInt8}
    {rest : List UInt8} (all : ∀ byte ∈ front, admits byte = true) (stops : admits first = false) :
    (front ++ first :: rest).dropWhile admits = first :: rest ∧
      (front ++ first :: rest).takeWhile admits = front := by
  rw [List.dropWhile_append_of_pos all, List.takeWhile_append_of_pos all,
    List.dropWhile_cons_of_neg (by simp [stops]), List.takeWhile_cons_of_neg (by simp [stops]),
    List.append_nil]
  exact ⟨rfl, rfl⟩

theorem match_of_shape {before after value : List UInt8}
    (blanks : ∀ byte ∈ before, isSpace byte = true) (blanks' : ∀ byte ∈ after, isSpace byte = true)
    (noQuote : (34 : UInt8) ∉ value) (rest : List UInt8) :
    (getRegexForJsonKey tokenName).match?
        (opening tokenName before after ++ (value ++ 34 :: rest)) =
      some (opening tokenName before after, rest) := by
  have plain : ∀ byte ∈ value, decide (byte ≠ 34) = true := fun byte member =>
    decide_eq_true fun same => noQuote (same ▸ member)
  have text : opening tokenName before after ++ (value ++ 34 :: rest) =
      (34 :: (tokenName ++ [34])) ++ (before ++ 58 :: (after ++ 34 :: (value ++ 34 :: rest))) := by
    simp [opening]
  obtain ⟨drop, take⟩ := @dropWhile_stretch isSpace before 58
    (after ++ 34 :: (value ++ 34 :: rest)) blanks (by decide)
  obtain ⟨drop', take'⟩ := @dropWhile_stretch isSpace after 34 (value ++ 34 :: rest) blanks'
    (by decide)
  obtain ⟨drop'', take''⟩ := @dropWhile_stretch (fun byte => decide (byte ≠ 34)) value 34 rest
    plain (by decide)
  have colon := matchItems_literal [58] (.many isSpace :: (literal [34] ++
    (.many (fun byte => decide (byte ≠ 34)) :: (literal [34] ++ []))))
      (after ++ 34 :: (value ++ 34 :: rest))
  have quote := matchItems_literal [34]
    (.many (fun byte => decide (byte ≠ 34)) :: (literal [34] ++ [])) (value ++ 34 :: rest)
  have closing := matchItems_literal [34] [] rest
  have whole : ((tokenName.map fun byte => [byte]).take (tokenName.length + 5)).flatten =
      tokenName := by
    rw [List.take_of_length_le (by simp), ← List.flatMap_def, List.flatMap_singleton']
  rw [List.singleton_append] at colon quote closing
  rw [Pattern.match?, items_eq, text, matchItems_literal, matchItems_many (by decide), drop, take,
    colon, matchItems_many (by decide), drop', take', quote, matchItems_many (by decide), drop'',
    take'', closing]
  simp [matchItems, getRegexForJsonKey, opening, literal, List.take_append, whole]

theorem stretch_of_dropWhile {admits : UInt8 → Bool} {content rest : List UInt8}
    (drops : content.dropWhile admits = rest) :
    ∃ front, (∀ byte ∈ front, admits byte = true) ∧ content = front ++ rest :=
  ⟨content.takeWhile admits, fun _ member => List.mem_takeWhile_imp member,
    by rw [← drops, List.takeWhile_append_dropWhile]⟩

/-- Nothing else is matched. -/
theorem shape_of_match {content : List UInt8} {found : List UInt8 × List UInt8}
    (matched : (getRegexForJsonKey tokenName).match? content = some found) :
    ∃ before after value, (∀ byte ∈ before, isSpace byte = true) ∧
      (∀ byte ∈ after, isSpace byte = true) ∧ (34 : UInt8) ∉ value ∧
      content = opening tokenName before after ++ (value ++ 34 :: found.2) ∧
      found.1 = opening tokenName before after := by
  have items := matched
  rw [Pattern.match?, items_eq] at items
  obtain ⟨_, goes, -⟩ := Option.map_eq_some_iff.mp items
  obtain ⟨text, split, named⟩ := literal_prefix goes
  rw [matchItems_many (by decide), Option.isSome_map] at named
  obtain ⟨_, named⟩ := Option.isSome_iff_exists.mp named
  obtain ⟨behind, drops, colon⟩ := literal_prefix named
  rw [matchItems_many (by decide), Option.isSome_map] at colon
  obtain ⟨_, colon⟩ := Option.isSome_iff_exists.mp colon
  obtain ⟨quoted, drops', opened⟩ := literal_prefix colon
  rw [matchItems_many (by decide), Option.isSome_map] at opened
  obtain ⟨_, opened⟩ := Option.isSome_iff_exists.mp opened
  obtain ⟨rest, drops_value, -⟩ := literal_prefix opened
  obtain ⟨before, blanks, rfl⟩ := stretch_of_dropWhile drops
  obtain ⟨after, blanks', rfl⟩ := stretch_of_dropWhile drops'
  obtain ⟨value, plain, rfl⟩ := stretch_of_dropWhile drops_value
  have noQuote : (34 : UInt8) ∉ value := fun member => absurd (plain 34 member) (by decide)
  have whole : content = opening tokenName before after ++ (value ++ 34 :: rest) := by
    rw [split]
    simp [opening]
  have same := @match_of_shape tokenName _ _ _ blanks blanks' noQuote rest
  rw [← whole, matched] at same
  obtain rfl := Option.some.inj same
  exact ⟨before, after, value, blanks, blanks', noQuote, whole, rfl⟩

theorem match_shrinks (content group rest : List UInt8)
    (matched : (getRegexForJsonKey tokenName).match? content = some (group, rest)) :
    rest.length < content.length := by
  obtain ⟨before, after, value, -, -, -, whole, -⟩ := shape_of_match matched
  rw [whole]
  simp only [opening, List.length_append, List.length_cons]
  omega

end

/-! ## What follows a string -/

theorem render_cons (token : Token) (tokens : List Token) :
    render (token :: tokens) = token.render ++ render tokens := rfl

/-- Quotes inside of a string are escaped. -/
theorem quote_escaped {raw front back : List UInt8} (content : isContent raw = true)
    (split : raw = front ++ 34 :: back) : front.getLast? = some 92 := by
  induction raw using isContent.induct generalizing front with
  | case1 => simp at split
  | case2 => simp [isContent] at content
  | case3 escaped rest ih =>
      rw [isContent] at content
      cases front with
      | nil => simp at split
      | cons first front =>
          cases front with
          | nil => simp_all
          | cons second front =>
              have later := ih content (List.cons.inj (List.cons.inj split).2).2
              cases front with
              | nil => simp at later
              | cons third front => simpa using later
  | case4 byte rest not_end not_escape ih =>
      rw [isContent] at content
      · rw [Bool.and_eq_true, decide_eq_true_eq] at content
        cases front with
        | nil => exact absurd (List.cons.inj split).1 content.1
        | cons first front =>
            have later := ih content.2 (List.cons.inj split).2
            cases front with
            | nil => simp at later
            | cons second front => simpa using later
      · exact not_end
      · exact not_escape

theorem valueBehind_outside (tokens : List Token) : valueBehind .outside tokens = none := by
  cases tokens <;> rfl

theorem valueBehind_suffix {place : Place} {tokens rest : List Token} {value : List UInt8}
    (found : valueBehind place tokens = some (value, rest)) : (.text value :: rest) <:+ tokens := by
  induction tokens generalizing place with
  | nil => cases place <;> simp [valueBehind] at found
  | cons token tokens ih =>
      cases token with
      | mark byte =>
          have later : valueBehind (place.after byte) tokens = some (value, rest) := by
            cases place with
            | outside => simp [valueBehind] at found
            | name => exact found
            | colon => exact found
          exact (ih later).trans (List.suffix_cons _ _)
      | text raw =>
          cases place with
          | outside => simp [valueBehind] at found
          | name => simp [valueBehind] at found
          | colon =>
              rw [valueBehind] at found
              cases found
              exact List.suffix_rfl

/-- Without a value behind it a name makes no difference. -/
theorem maskMember_unread {sensitive : List UInt8 → Bool} {place : Place} {tokens : List Token}
    (missing : valueBehind place tokens = none) :
    maskMember sensitive place tokens = maskMember sensitive .outside tokens := by
  induction tokens generalizing place with
  | nil => cases place <;> rfl
  | cons token tokens ih =>
      cases token with
      | mark byte =>
          have later : valueBehind (place.after byte) tokens = none := by
            cases place with
            | outside => exact valueBehind_outside tokens
            | name => exact missing
            | colon => exact missing
          have same := congrArg (List.cons (Token.mark byte)) (ih later)
          cases place <;> exact same
      | text raw =>
          cases place with
          | outside => rfl
          | name => rfl
          | colon => simp [valueBehind] at missing

theorem isSpace_of_isBlank {byte : UInt8} (blank : isBlank byte = true) :
    isSpace byte = true := by
  simp only [isBlank, Bool.or_eq_true, decide_eq_true_eq] at blank
  rcases blank with ((rfl | rfl) | rfl) | rfl <;> decide

/-- A value behind a colon, as it is written and as it is masked. -/
theorem valueBehind_colon {tokens rest : List Token} {value : List UInt8}
    (found : valueBehind .colon tokens = some (value, rest)) :
    ∃ after, (∀ byte ∈ after, isSpace byte = true) ∧
      render tokens = after ++ 34 :: (value ++ 34 :: render rest) ∧
      ∀ sensitive, render (maskMember sensitive .colon tokens) =
        after ++ 34 :: (masked ++ 34 :: render (maskMember sensitive .outside rest)) := by
  induction tokens with
  | nil => simp [valueBehind] at found
  | cons token tokens ih =>
      cases token with
      | text raw =>
          rw [valueBehind] at found
          cases found
          refine ⟨[], fun _ member => absurd member List.not_mem_nil, ?_, fun sensitive => ?_⟩
          · simp [render_cons, Token.render]
          · simp [render_cons, Token.render, maskMember]
      | mark byte =>
          change valueBehind (Place.colon.after byte) tokens = _ at found
          rw [Place.after] at found
          split_ifs at found with blank
          · obtain ⟨after, blanks, written, changed⟩ := ih found
            refine ⟨byte :: after, List.forall_mem_cons.mpr ⟨isSpace_of_isBlank blank, blanks⟩,
              ?_, fun sensitive => ?_⟩
            · rw [render_cons, written]
              rfl
            · have kept := changed sensitive
              rw [maskMember, Place.after, if_pos blank, render_cons, kept]
              rfl
          · rw [valueBehind_outside] at found
            cases found

theorem valueBehind_name {tokens rest : List Token} {value : List UInt8}
    (found : valueBehind .name tokens = some (value, rest)) :
    ∃ before after, (∀ byte ∈ before, isSpace byte = true) ∧
      (∀ byte ∈ after, isSpace byte = true) ∧
      render tokens = before ++ 58 :: (after ++ 34 :: (value ++ 34 :: render rest)) ∧
      ∀ sensitive, render (maskMember sensitive .name tokens) =
        before ++ 58 :: (after ++ 34 :: (masked ++ 34 ::
          render (maskMember sensitive .outside rest))) := by
  induction tokens with
  | nil => simp [valueBehind] at found
  | cons token tokens ih =>
      cases token with
      | text raw => simp [valueBehind] at found
      | mark byte =>
          change valueBehind (Place.name.after byte) tokens = _ at found
          rw [Place.after] at found
          split_ifs at found with blank colon
          · obtain ⟨before, after, blanks, blanks', written, changed⟩ := ih found
            refine ⟨byte :: before, after,
              List.forall_mem_cons.mpr ⟨isSpace_of_isBlank blank, blanks⟩, blanks', ?_,
              fun sensitive => ?_⟩
            · rw [render_cons, written]
              rfl
            · have kept := changed sensitive
              rw [maskMember, Place.after, if_pos blank, render_cons, kept]
              rfl
          · obtain ⟨after, blanks, written, changed⟩ := valueBehind_colon found
            refine ⟨[], after, fun _ member => absurd member List.not_mem_nil, blanks, ?_,
              fun sensitive => ?_⟩
            · rw [render_cons, written, colon]
              rfl
            · have kept := changed sensitive
              rw [maskMember, Place.after, if_neg blank, if_pos colon, render_cons, kept, colon]
              rfl
          · rw [valueBehind_outside] at found
            cases found

/-- What is rendered behind a quote begins with a mark. -/
theorem mark_of_render {tokens : List Token} {byte : UInt8} {rest : List UInt8}
    (split : render tokens = byte :: rest) (notQuote : byte ≠ 34) :
    ∃ tokens', tokens = .mark byte :: tokens' ∧ render tokens' = rest := by
  cases tokens with
  | nil => cases split
  | cons token tokens =>
      rw [render_cons] at split
      cases token with
      | text raw => exact absurd (List.cons.inj split).1.symm notQuote
      | mark other =>
          obtain ⟨rfl, same⟩ := List.cons.inj split
          exact ⟨tokens, rfl, same⟩

theorem isBlank_of_isMark {byte : UInt8} (mark : isMark byte = true) (space : isSpace byte = true) :
    isBlank byte = true := by
  simp only [isSpace, Bool.or_eq_true, Bool.and_eq_true, decide_eq_true_eq] at space
  by_cases vertical : byte = 11 ∨ byte = 12
  · rcases vertical with rfl | rfl <;> exact absurd mark (by decide)
  · simp only [isBlank, Bool.or_eq_true, decide_eq_true_eq, ← UInt8.toNat_inj,
      UInt8.le_iff_toNat_le, not_or, UInt8.reduceToNat] at *
    omega

theorem valueBehind_of_colon {tokens : List Token} (valid : ∀ token ∈ tokens, token.IsValid = true)
    {after rest : List UInt8} (blanks : ∀ byte ∈ after, isSpace byte = true)
    (split : render tokens = after ++ 34 :: rest) : (valueBehind .colon tokens).isSome = true := by
  induction after generalizing tokens with
  | nil =>
      cases tokens with
      | nil => cases split
      | cons token tokens =>
          cases token with
          | text raw => rfl
          | mark byte =>
              have quote : byte = 34 := (List.cons.inj split).1
              have mark := valid (.mark byte) List.mem_cons_self
              rw [quote] at mark
              exact absurd mark (by decide)
  | cons byte after ih =>
      obtain ⟨space, blanks⟩ := List.forall_mem_cons.mp blanks
      have notQuote : byte ≠ 34 := by
        rintro rfl
        exact absurd space (by decide)
      obtain ⟨tokens', rfl, same⟩ := mark_of_render split notQuote
      obtain ⟨mark, valid⟩ := List.forall_mem_cons.mp valid
      change (valueBehind (Place.colon.after byte) tokens').isSome = true
      rw [Place.after, if_pos (isBlank_of_isMark mark space)]
      exact ih valid blanks same

/-- Where a name, a colon and a quote are written there is a value. -/
theorem valueBehind_of_render {tokens : List Token}
    (valid : ∀ token ∈ tokens, token.IsValid = true) {before after rest : List UInt8}
    (blanks : ∀ byte ∈ before, isSpace byte = true) (blanks' : ∀ byte ∈ after, isSpace byte = true)
    (split : render tokens = before ++ 58 :: (after ++ 34 :: rest)) :
    (valueBehind .name tokens).isSome = true := by
  induction before generalizing tokens with
  | nil =>
      obtain ⟨tokens', rfl, same⟩ := mark_of_render split (by decide)
      exact valueBehind_of_colon (List.forall_mem_cons.mp valid).2 blanks' same
  | cons byte before ih =>
      obtain ⟨space, blanks⟩ := List.forall_mem_cons.mp blanks
      have notQuote : byte ≠ 34 := by
        rintro rfl
        exact absurd space (by decide)
      obtain ⟨tokens', rfl, same⟩ := mark_of_render split notQuote
      obtain ⟨mark, valid⟩ := List.forall_mem_cons.mp valid
      change (valueBehind (Place.name.after byte) tokens').isSome = true
      rw [Place.after, if_pos (isBlank_of_isMark mark space)]
      exact ih valid blanks same

/-- Between strings there are no words like the names. -/
theorem render_ne_word {tokens : List Token} (valid : ∀ token ∈ tokens, token.IsValid = true)
    {word : List UInt8} (noQuote : (34 : UInt8) ∉ word) {letter : UInt8} (member : letter ∈ word)
    (noMark : isMark letter = false) (rest : List UInt8) : render tokens ≠ word ++ rest := by
  induction word generalizing tokens with
  | nil => cases member
  | cons byte word ih =>
      intro text
      rw [List.mem_cons, not_or] at noQuote
      obtain ⟨tokens', rfl, same⟩ := mark_of_render text (Ne.symm noQuote.1)
      obtain ⟨mark, valid⟩ := List.forall_mem_cons.mp valid
      rcases List.mem_cons.mp member with rfl | member
      · rw [Token.IsValid, noMark] at mark
        cases mark
      · exact ih valid noQuote.2 member same

/-! ## One name -/

/-- A name that is a word without quotes and escapes. -/
structure IsWord (tokenName : List UInt8) : Prop where
  noQuote : (34 : UInt8) ∉ tokenName
  last : ∃ byte ∈ tokenName.getLast?, byte ≠ 92
  letter : ∃ byte ∈ tokenName, isMark byte = false

section

variable {tokenName : List UInt8} (word : IsWord tokenName)

include word

/-- A quote in front of the name and one behind it. -/
theorem split_at_name {raw behind rest : List UInt8}
    (same : raw ++ 34 :: behind = tokenName ++ 34 :: rest)
    (escaped : ∀ more, raw ≠ tokenName ++ 34 :: more) : raw = tokenName ∧ behind = rest := by
  rcases List.append_eq_append_iff.mp same with ⟨more, whole, split⟩ | ⟨more, whole, split⟩
  · cases more with
    | nil => exact ⟨by rw [whole, List.append_nil], (List.cons.inj split).2⟩
    | cons byte more =>
        obtain ⟨rfl, -⟩ := List.cons.inj split
        exact absurd (by rw [whole]; simp) word.noQuote
  · cases more with
    | nil => exact ⟨by rw [whole, List.append_nil], (List.cons.inj split).2.symm⟩
    | cons byte more =>
        obtain ⟨rfl, -⟩ := List.cons.inj split
        exact absurd whole (escaped more)

theorem not_escaped {raw front : List UInt8} (content : isContent raw = true)
    (more : List UInt8) : raw ≠ front ++ (tokenName ++ 34 :: more) := by
  intro split
  rw [← List.append_assoc] at split
  obtain ⟨byte, last, plain⟩ := word.last
  have escape := quote_escaped content split
  have some_name : tokenName ≠ [] := by
    rintro rfl
    cases last
  rw [List.getLast?_append_of_ne_nil _ some_name, Option.mem_def.mp last] at escape
  exact plain (Option.some.inj escape)

/-- The expression matches at a quote only where the name follows it with a value behind. -/
theorem no_match {raw : List UInt8} {tokens : List Token}
    (valid : ∀ token ∈ tokens, token.IsValid = true)
    (escaped : ∀ more, raw ≠ tokenName ++ 34 :: more)
    (differs : raw = tokenName → valueBehind .name tokens = none) :
    (getRegexForJsonKey tokenName).match? (34 :: (raw ++ 34 :: render tokens)) = none := by
  rw [Option.eq_none_iff_forall_ne_some]
  intro found matched
  obtain ⟨before, after, value, blanks, blanks', -, whole, -⟩ := shape_of_match matched
  have text : raw ++ 34 :: render tokens =
      tokenName ++ 34 :: (before ++ 58 :: (after ++ 34 :: (value ++ 34 :: found.2))) := by
    have same := (List.cons.inj whole).2
    simpa using same
  obtain ⟨same, behind⟩ := split_at_name word text escaped
  have some_value := valueBehind_of_render valid blanks blanks' behind
  rw [differs same] at some_value
  cases some_value

/-- Nor does it at the quote that closes a string. -/
theorem no_match_closing {tokens : List Token} (valid : ∀ token ∈ tokens, token.IsValid = true) :
    (getRegexForJsonKey tokenName).match? (34 :: render tokens) = none := by
  rw [Option.eq_none_iff_forall_ne_some]
  intro found matched
  obtain ⟨before, after, value, -, -, -, whole, -⟩ := shape_of_match matched
  obtain ⟨letter, member, noMark⟩ := word.letter
  refine render_ne_word valid word.noQuote member noMark
    (34 :: (before ++ 58 :: (after ++ 34 :: (value ++ 34 :: found.2)))) ?_
  have same := (List.cons.inj whole).2
  simpa using same

/-- The rest of a string is kept, and so is the quote that closes it. -/
theorem replace_content {raw : List UInt8} {tokens : List Token}
    (valid : ∀ token ∈ tokens, token.IsValid = true) (content : isContent raw = true)
    (differs : ∀ found ∈ valueBehind .name tokens, ¬(34 :: tokenName) <:+ raw)
    {front back : List UInt8} (split : raw = front ++ back) :
    maskName (back ++ 34 :: render tokens) tokenName =
      back ++ 34 :: maskName (render tokens) tokenName := by
  induction back generalizing front with
  | nil => exact replaceAll_pass (no_match_closing word valid)
  | cons byte back ih =>
      have later := @ih (front ++ [byte]) (by simpa using split)
      have passes : (getRegexForJsonKey tokenName).match?
          (byte :: (back ++ 34 :: render tokens)) = none := by
        by_cases quote : byte = 34
        · subst quote
          refine no_match word valid (fun more same => ?_) fun same => ?_
          · exact @not_escaped tokenName word raw (front ++ [34]) content more
              (by simp [split, same])
          · rw [Option.eq_none_iff_forall_not_mem]
            intro found given
            exact differs found given ⟨front, by rw [split, same]⟩
        · rw [Option.eq_none_iff_forall_ne_some]
          intro found matched
          obtain ⟨before, after, value, -, -, -, whole, -⟩ := shape_of_match matched
          exact quote (List.cons.inj whole).1
      rw [List.cons_append, maskName, replaceAll_pass passes, ← maskName, later]
      rfl

/-- What one expression does to a text whose members are spelled out. -/
theorem maskName_render {tokens : List Token} (valid : ∀ token ∈ tokens, token.IsValid = true)
    (plain : ∀ raw rest, (Token.text raw :: rest) <:+ tokens →
      ∀ found ∈ valueBehind .name rest,
        ¬(34 :: tokenName) <:+ raw ∧ (raw = tokenName → (34 : UInt8) ∉ found.1)) :
    maskName (render tokens) tokenName =
      render (maskMember (fun raw => raw = tokenName) .outside tokens) := by
  obtain ⟨length, short⟩ : ∃ length, tokens.length ≤ length := ⟨_, le_rfl⟩
  induction length generalizing tokens with
  | zero =>
      rw [List.length_eq_zero_iff.mp (Nat.le_zero.mp short)]
      rfl
  | succ length ih =>
      cases tokens with
      | nil => rfl
      | cons token tokens =>
          obtain ⟨first_valid, valid_later⟩ := List.forall_mem_cons.mp valid
          rw [List.length_cons] at short
          have plain_later : ∀ raw rest, (Token.text raw :: rest) <:+ tokens →
              ∀ found ∈ valueBehind .name rest,
                ¬(34 :: tokenName) <:+ raw ∧ (raw = tokenName → (34 : UInt8) ∉ found.1) :=
            fun raw rest suffix => plain raw rest (suffix.trans (List.suffix_cons _ _))
          have later := ih valid_later plain_later (by omega)
          cases token with
          | mark byte =>
              have passes :
                  (getRegexForJsonKey tokenName).match? (byte :: render tokens) = none := by
                rw [Option.eq_none_iff_forall_ne_some]
                intro found matched
                obtain ⟨before, after, value, -, -, -, whole, -⟩ := shape_of_match matched
                have quote : byte = 34 := (List.cons.inj whole).1
                rw [quote] at first_valid
                exact absurd first_valid (by decide)
              change maskName (byte :: render tokens) tokenName =
                byte :: render (maskMember _ .outside tokens)
              rw [maskName, replaceAll_pass passes, ← maskName, later]
          | text raw =>
              have here := plain raw tokens List.suffix_rfl
              have text : render (.text raw :: tokens) = 34 :: (raw ++ 34 :: render tokens) := by
                simp [render_cons, Token.render]
              by_cases named : raw = tokenName ∧ (valueBehind .name tokens).isSome = true
              · obtain ⟨same, some_value⟩ := named
                obtain ⟨⟨value, rest⟩, found⟩ := Option.isSome_iff_exists.mp some_value
                obtain ⟨before, after, blanks, blanks', written, changed⟩ := valueBehind_name found
                have suffix := valueBehind_suffix found
                have shorter := suffix.length_le
                rw [List.length_cons] at shorter
                have behind := ih (fun other member => valid_later other
                    (suffix.subset (List.mem_cons_of_mem _ member)))
                  (fun other rest' part => plain_later other rest'
                    (part.trans ((List.suffix_cons _ _).trans suffix))) (by omega)
                have whole : render (.text raw :: tokens) =
                    opening tokenName before after ++ (value ++ 34 :: render rest) := by
                  rw [text, written, same]
                  simp [opening]
                have matched := @match_of_shape tokenName _ _ _ blanks blanks'
                  ((here _ found).2 same) (render rest)
                rw [whole, maskName, replaceAll_match match_shrinks matched, ← maskName, behind,
                  maskMember, if_pos (decide_eq_true same), render_cons, changed, same]
                · simp [opening, Token.render]
                · exact fun same => by cases same
              · have unread : valueBehind .name tokens = none ∨ raw ≠ tokenName := by
                  by_contra both
                  rw [not_or, not_not, ← ne_eq, Option.ne_none_iff_isSome] at both
                  exact named ⟨both.2, both.1⟩
                have unmatched := no_match word valid_later
                  (fun more same => @not_escaped tokenName word raw [] first_valid more same)
                  (fun same => unread.resolve_right (not_not_intro same))
                have kept := replace_content word valid_later first_valid
                  (fun found given => (here found given).1) (List.nil_append raw).symm
                have unchanged : maskMember (fun raw => raw = tokenName)
                    (if decide (raw = tokenName) then .name else .outside) tokens =
                      maskMember (fun raw => raw = tokenName) .outside tokens := by
                  split_ifs with same
                  · exact maskMember_unread
                      (unread.resolve_right (not_not_intro (of_decide_eq_true same)))
                  · rfl
                rw [text, maskName, replaceAll_pass unmatched, ← maskName, kept, later, maskMember,
                  unchanged, render_cons]
                · simp [Token.render]
                · exact fun same => by cases same

end

/-! ## All names -/

theorem legible_suffix {tokens rest : List Token} {raw : List UInt8} (legible : Legible tokens)
    (suffix : (.text raw :: rest) <:+ tokens) :
    ∀ found ∈ valueBehind .name rest, SpelledOut raw found.1 := by
  induction tokens with
  | nil => exact absurd (List.suffix_nil.mp suffix) (List.cons_ne_nil _ _)
  | cons token tokens ih =>
      rcases List.suffix_cons_iff.mp suffix with same | suffix
      · obtain ⟨rfl, rfl⟩ := List.cons.inj same
        exact legible.1
      · refine ih ?_ suffix
        cases token with
        | mark byte => exact legible
        | text other => exact legible.2

/-- Only the names in front of values matter. -/
theorem maskMember_congr {sensitive other : List UInt8 → Bool} {place : Place} {tokens : List Token}
    (same : ∀ raw rest, (.text raw :: rest) <:+ tokens →
      (valueBehind .name rest).isSome = true → sensitive raw = other raw) :
    maskMember sensitive place tokens = maskMember other place tokens := by
  induction tokens generalizing place with
  | nil => cases place <;> rfl
  | cons token tokens ih =>
      have later := fun place => @ih place fun raw rest suffix =>
        same raw rest (suffix.trans (List.suffix_cons _ _))
      cases token with
      | mark byte =>
          have kept := congrArg (List.cons (Token.mark byte)) (later (place.after byte))
          cases place <;> exact kept
      | text raw =>
          have armed : maskMember sensitive (if sensitive raw then .name else .outside) tokens =
              maskMember other (if other raw then .name else .outside) tokens := by
            cases found : valueBehind .name tokens with
            | some value =>
                rw [same raw tokens List.suffix_rfl (by rw [found]; rfl), later]
            | none =>
                have unread := fun sensitive => @maskMember_unread sensitive _ _ found
                split_ifs <;> simp [unread, later]
          have kept := congrArg (List.cons (Token.text raw)) armed
          cases place with
          | outside => exact kept
          | name => exact kept
          | colon => exact congrArg (List.cons (Token.text masked)) (later .outside)

theorem valueBehind_masked {sensitive : List UInt8 → Bool} {place masking : Place}
    {tokens rest : List Token} {value : List UInt8}
    (found : valueBehind place (maskMember sensitive masking tokens) = some (value, rest)) :
    ∃ before, before ∈ valueBehind place tokens ∧ (value = before.1 ∨ value = masked) := by
  induction tokens generalizing place masking with
  | nil => cases masking <;> cases place <;> simp [maskMember, valueBehind] at found
  | cons token tokens ih =>
      cases token with
      | mark byte =>
          have shape : maskMember sensitive masking (.mark byte :: tokens) =
              .mark byte :: maskMember sensitive (masking.after byte) tokens := by
            cases masking <;> rfl
          rw [shape] at found
          cases place with
          | outside => simp [valueBehind] at found
          | name => exact @ih (Place.name.after byte) _ found
          | colon => exact @ih (Place.colon.after byte) _ found
      | text raw =>
          have shape : ∃ raw' tokens', maskMember sensitive masking (.text raw :: tokens) =
              .text raw' :: tokens' ∧ (raw' = raw ∨ raw' = masked) := by
            cases masking with
            | outside => exact ⟨raw, _, rfl, Or.inl rfl⟩
            | name => exact ⟨raw, _, rfl, Or.inl rfl⟩
            | colon => exact ⟨masked, _, rfl, Or.inr rfl⟩
          obtain ⟨raw', tokens', shape, either⟩ := shape
          rw [shape] at found
          cases place with
          | outside => simp [valueBehind] at found
          | name => simp [valueBehind] at found
          | colon =>
              rw [valueBehind] at found
              cases found
              exact ⟨(raw, tokens), rfl, either⟩

theorem SpelledOut.masked_value {raw value : List UInt8} (spelled : SpelledOut raw value) :
    SpelledOut raw masked :=
  ⟨fun named => ⟨(spelled.1 named).1, by decide⟩, spelled.2⟩

theorem SpelledOut.of_masked (value : List UInt8) : SpelledOut masked value := by
  refine ⟨fun named => ?_, by decide⟩
  have no_name : ¬∃ tokenName ∈ tokenNames, isNamed tokenName masked = true := by decide
  exact absurd named no_name

/-- Masking keeps what the expressions rely on. -/
theorem Legible.mask {sensitive : List UInt8 → Bool} {place : Place} {tokens : List Token}
    (legible : Legible tokens) : Legible (maskMember sensitive place tokens) := by
  induction tokens generalizing place with
  | nil => cases place <;> trivial
  | cons token tokens ih =>
      cases token with
      | mark byte =>
          have later := @ih (place.after byte) legible
          cases place <;> exact later
      | text raw =>
          have kept (masking : Place) :
              Legible (.text raw :: maskMember sensitive masking tokens) := by
            refine ⟨fun found given => ?_, ih legible.2⟩
            obtain ⟨before, given, same | same⟩ := valueBehind_masked given
            · rw [same]
              exact legible.1 before given
            · rw [same]
              exact (legible.1 before given).masked_value
          cases place with
          | outside => exact kept _
          | name => exact kept _
          | colon => exact ⟨fun found _ => SpelledOut.of_masked found.1, ih legible.2⟩

theorem valid_mask {sensitive : List UInt8 → Bool} {place : Place} {tokens : List Token}
    (valid : ∀ token ∈ tokens, token.IsValid = true) :
    ∀ token ∈ maskMember sensitive place tokens, token.IsValid = true := by
  induction tokens generalizing place with
  | nil => cases place <;> exact fun _ member => absurd member List.not_mem_nil
  | cons token tokens ih =>
      obtain ⟨first, later⟩ := List.forall_mem_cons.mp valid
      cases token with
      | mark byte =>
          have kept : ∀ token ∈ .mark byte :: maskMember sensitive (place.after byte) tokens,
              token.IsValid = true := List.forall_mem_cons.mpr ⟨first, ih later⟩
          cases place <;> exact kept
      | text raw =>
          cases place with
          | outside => exact List.forall_mem_cons.mpr ⟨first, ih later⟩
          | name => exact List.forall_mem_cons.mpr ⟨first, ih later⟩
          | colon =>
              have masked_valid : (Token.text masked).IsValid = true := by decide
              exact List.forall_mem_cons.mpr ⟨masked_valid, ih later⟩

theorem isWord_tokenNames : ∀ tokenName ∈ tokenNames, IsWord tokenName := by
  have words : ∀ tokenName ∈ tokenNames, (34 : UInt8) ∉ tokenName ∧
      (∃ byte ∈ tokenName.getLast?, byte ≠ 92) ∧ ∃ byte ∈ tokenName, isMark byte = false := by
    decide
  exact fun tokenName member =>
    ⟨(words tokenName member).1, (words tokenName member).2.1, (words tokenName member).2.2⟩

theorem isNamed_tokenNames : ∀ raw ∈ tokenNames, ∀ tokenName ∈ tokenNames,
    (isNamed tokenName raw = true ↔ raw = tokenName) := by
  decide

/-- One expression masks the members of its name. -/
theorem maskName_members {tokens : List Token} (valid : ∀ token ∈ tokens, token.IsValid = true)
    (legible : Legible tokens) {tokenName : List UInt8} (member : tokenName ∈ tokenNames) :
    maskName (render tokens) tokenName =
      render (maskMember (isNamed tokenName) .outside tokens) := by
  rw [maskName_render (isWord_tokenNames tokenName member) valid]
  · refine congrArg render (maskMember_congr fun raw rest suffix some_value => ?_)
    obtain ⟨found, given⟩ := Option.isSome_iff_exists.mp some_value
    have spelled := legible_suffix legible suffix found given
    rw [Bool.eq_iff_iff, decide_eq_true_eq]
    constructor
    · rintro rfl
      exact (isNamed_tokenNames raw member raw member).mpr rfl
    · intro named
      exact (isNamed_tokenNames raw (spelled.1 ⟨tokenName, member, named⟩).1 tokenName member).mp
        named
  · intro raw rest suffix found given
    have spelled := legible_suffix legible suffix found given
    refine ⟨spelled.2 tokenName member, ?_⟩
    rintro rfl
    exact (spelled.1 ⟨raw, member, (isNamed_tokenNames raw member raw member).mpr rfl⟩).2

theorem maskCredentials_render (tokens : List Token)
    (valid : ∀ token ∈ tokens, token.IsValid = true) (legible : Legible tokens) :
    maskCredentials (render tokens) = render (maskMembers tokens) := by
  have folded (names : List (List UInt8)) (among : ∀ name ∈ names, name ∈ tokenNames)
      (tokens : List Token) (valid : ∀ token ∈ tokens, token.IsValid = true)
      (legible : Legible tokens) :
      names.foldl maskName (render tokens) =
        render (names.foldl
          (fun tokens tokenName => maskMember (isNamed tokenName) .outside tokens) tokens) := by
    induction names generalizing tokens with
    | nil => rfl
    | cons name names ih =>
        obtain ⟨first, later⟩ := List.forall_mem_cons.mp among
        rw [List.foldl_cons, List.foldl_cons, maskName_members valid legible first]
        exact ih later _ (valid_mask valid) legible.mask
  rw [maskCredentials]
  split_ifs with empty
  · have nothing : tokens = [] := by
      cases tokens with
      | nil => rfl
      | cons token tokens =>
          rw [render_cons] at empty
          cases token <;> simp [Token.render] at empty
    rw [nothing]
    rfl
  · exact folded tokenNames (fun _ member => member) tokens valid legible

/-- The text with the values masked is what comes back. -/
def MasksMembers (tokens : List Token) : Prop :=
  maskCredentials (render tokens) = render (maskMembers tokens)

/--
The values of members that are spelled out are masked and nothing else changes, so that
texts which differ in those values only become the same.
-/
theorem masks_members (tokens : List Token) (valid : ∀ token ∈ tokens, token.IsValid = true)
    (legible : Legible tokens) :
    MasksMembers tokens ∧ ∀ other : List Token, (∀ token ∈ other, token.IsValid = true) →
      Legible other → maskMembers other = maskMembers tokens →
        maskCredentials (render other) = maskCredentials (render tokens) := by
  have here := maskCredentials_render tokens valid legible
  refine ⟨here, fun other valid' legible' same => ?_⟩
  rw [here, maskCredentials_render other valid' legible', same]

/-- The tokens of a name with a value, with blanks around the colon. -/
def member (name value : String) : List Token :=
  [.text (bytes name), .mark 32, .mark 58, .mark 32, .text (bytes value)]

/-- An object with a token and a value that has an escaped quote. -/
def response (token : String) : List Token :=
  .mark 123 :: member "id_token" token ++ .mark 44 :: member "x" "\\\"" ++ [.mark 125]

/-- Two responses with different tokens. -/
theorem masks_members_two :
    MasksMembers (response "abc") ∧
      maskCredentials (render (response "")) = maskCredentials (render (response "abc")) := by
  have both := masks_members (response "abc") (by decide) (by decide)
  exact ⟨both.1, both.2 _ (by decide) (by decide) (by decide)⟩

/--
An escaped quote ends what is masked of a value, a name with an escape is not masked, and
a value behind a longer name is.
-/
theorem masks_members_wrong :
    ¬MasksMembers (member "access_token" "a\\\"secret") ∧
      ¬MasksMembers (member "access\\u005ftoken" "secret") ∧
      ¬MasksMembers (member "no \\\"id_token" "open") := by
  unfold MasksMembers
  decide

end RedshiftOdbc.Iam

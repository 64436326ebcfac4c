import Mathlib.Data.Finset.Card
import Mathlib.Order.Interval.Finset.Nat

/-!
# The lexical contexts of a statement

What SQL's lexical rules say about a statement text: every place lies in a
quoted literal, in a quoted identifier, in a comment, or outside of all of them,
and an opener inside a context opens nothing.  Whether a backslash escapes a
quote in a literal is left open.
-/

namespace RedshiftOdbc.Escape

/-- The context behind a prefix.  A character that may begin or end a comment is remembered. -/
inductive Context where
  | plain
  | dash
  | slash
  | quoted
  | quotedEscape
  | identifier
  | lineComment
  | blockComment
  | blockStar
  deriving DecidableEq, Repr

namespace Context

/-- The context outside behind a character that opens nothing together with the one before. -/
def opened (character : Char) : Context :=
  match character with
  | '-' => dash
  | '/' => slash
  | '\'' => quoted
  | '"' => identifier
  | _ => plain

def next (backslash : Bool) (context : Context) (character : Char) : Context :=
  match context with
  | plain => opened character
  | dash => if character = '-' then lineComment else opened character
  | slash => if character = '*' then blockComment else opened character
  | quoted =>
      if character = '\'' then plain
      else if character = '\\' && backslash then quotedEscape
      else quoted
  | quotedEscape => quoted
  | identifier => if character = '"' then plain else identifier
  | lineComment => if character = '\n' then plain else lineComment
  | blockComment => if character = '*' then blockStar else blockComment
  | blockStar =>
      if character = '/' then plain else if character = '*' then blockStar else blockComment

def outside : Context → Bool
  | plain | dash | slash => true
  | _ => false

end Context

/-- The context of the character at a place of the text. -/
def contextAt (backslash : Bool) (text : List Char) (place : Nat) : Context :=
  (text.take place).foldl (Context.next backslash) .plain

def markers (text : List Char) : Finset Nat :=
  (Finset.range text.length).filter fun place => text[place]? = some '?'

def markersOutside (backslash : Bool) (text : List Char) : Finset Nat :=
  (markers text).filter fun place => (contextAt backslash text place).outside

end RedshiftOdbc.Escape

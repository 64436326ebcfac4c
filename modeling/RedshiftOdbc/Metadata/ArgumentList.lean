import Mathlib.Data.List.Basic

/-!
# Argument lists of procedures and functions

`createParameterizedQueryString` takes the argument list of a procedure apart and
writes the command that asks for its parameters.  The piece behind the last
delimiter is dropped when it is empty, where every other empty piece is refused.
-/

namespace RedshiftOdbc.Metadata

/-! ## Names of types -/

def validTypes : List (List Char) := [
  "smallint".toList, "int2".toList, "integer".toList, "int".toList, "int4".toList,
  "bigint".toList, "int8".toList, "decimal".toList, "numeric".toList, "real".toList,
  "float4".toList, "double precision".toList, "float8".toList, "float".toList,
  "char".toList, "\"char\"".toList, "character".toList, "nchar".toList, "bpchar".toList,
  "varchar".toList, "character varying".toList, "nvarchar".toList, "text".toList,
  "date".toList, "time".toList, "time without time zone".toList, "timetz".toList,
  "time with time zone".toList, "timestamp".toList, "timestamp without time zone".toList,
  "timestamptz".toList, "timestamp with time zone".toList, "intervaly2m".toList,
  "interval year to month".toList, "intervald2s".toList, "interval day to second".toList,
  "interval".toList, "boolean".toList, "bool".toList, "hllsketch".toList, "super".toList,
  "varbyte".toList, "varbinary".toList, "binary varying".toList, "geometry".toList,
  "geography".toList, "string".toList, "binary".toList, "oid".toList, "smallint[]".toList,
  "pg_attribute".toList, "pg_type".toList, "refcursor".toList, "\"any\"".toList,
  "\"trigger\"".toList, "\"unknown\"".toList, "anyelement".toList, "anyarray".toList,
  "record".toList, "void".toList, "opaque".toList, "language_handler".toList, "inet".toList,
  "cidr".toList, "macaddr".toList, "abstime".toList, "reltime".toList, "tinterval".toList,
  "aclitem".toList, "aclitem[]".toList, "oid[]".toList, "oidvector".toList,
  "int2vector".toList, "regproc".toList, "regprocedure".toList, "regoper".toList,
  "regoperator".toList, "regclass".toList, "regtype".toList, "smgr".toList, "tid".toList,
  "xid".toList, "cid".toList, "cstring".toList, "box".toList, "circle".toList, "line".toList,
  "lseg".toList, "\"path\"".toList, "point".toList, "polygon".toList, "money".toList,
  "bit".toList, "bit varying".toList, "bytea".toList, "name".toList, "pyobject".toList,
  "roleitem".toList, "useritem".toList, "bigint[]".toList, "double precision[]".toList,
  "numeric[]".toList, "interval[]".toList, "intervaly2m[]".toList, "intervald2s[]".toList]

def isValidType (dataType : List Char) : Bool := validTypes.contains (dataType.map Char.toLower)

/-- The invalid types, of which `validateTypes` also tells whether there are none. -/
def invalidTypes (dataTypes : List (List Char)) : List (List Char) :=
  dataTypes.filter fun dtype => !isValidType dtype

/-! ## Taking the list apart -/

def delimiter : List Char := [',', ' ']

/-- What stands before and behind the first delimiter. -/
def findDelimiter : List Char → Option (List Char × List Char)
  | ',' :: ' ' :: rest => some ([], rest)
  | ch :: rest => (findDelimiter rest).map fun found => (ch :: found.1, found.2)
  | [] => none

theorem findDelimiter_eq {text temp rest : List Char}
    (found : findDelimiter text = some (temp, rest)) : text = temp ++ delimiter ++ rest := by
  fun_induction findDelimiter text generalizing temp rest with
  | case1 rest =>
      simp only [Option.some.injEq, Prod.mk.injEq] at found
      rw [← found.1, ← found.2]
      rfl
  | case2 ch rest notDelimiter ih =>
      obtain ⟨⟨front, back⟩, inner, same⟩ := Option.map_eq_some_iff.mp found
      simp only [Prod.mk.injEq] at same
      rw [ih inner, ← same.1, ← same.2]
      rfl
  | case3 => simp only [reduceCtorEq] at found

theorem findDelimiter_length {text temp rest : List Char}
    (found : findDelimiter text = some (temp, rest)) : rest.length < text.length := by
  rw [findDelimiter_eq found, delimiter]
  simp only [List.length_append, List.length_cons]
  omega

/-- Text without a comma, and such a text before a delimiter. -/
theorem findDelimiter_none {name : List Char} (free : ',' ∉ name) :
    findDelimiter name = none := by
  induction name with
  | nil => rfl
  | cons ch rest ih =>
      have other : ch ≠ ',' := fun same => free (by rw [same]; exact List.mem_cons_self ..)
      rw [findDelimiter, ih fun member => free (List.mem_cons_of_mem _ member), Option.map_none]
      exact fun _ same _ => other same

theorem findDelimiter_name {name : List Char} (rest : List Char) (free : ',' ∉ name) :
    findDelimiter (name ++ delimiter ++ rest) = some (name, rest) := by
  induction name with
  | nil => rfl
  | cons ch name ih =>
      have other : ch ≠ ',' := fun same => free (by rw [same]; exact List.mem_cons_self ..)
      rw [List.cons_append, List.cons_append, findDelimiter,
        ih fun member => free (List.mem_cons_of_mem _ member), Option.map_some]
      exact fun _ same _ => other same

def emptyArgument (tempList : List Char) : List Char :=
  "Empty argument found in argument list: ".toList ++ tempList ++
    ". All arguments must be valid data types.".toList

/-- The loop over the delimiters and the last piece; an error is the text of the exception. -/
def splitArguments (tempList : List Char) (args : List (List Char)) :
    Except (List Char) (List (List Char)) :=
  match _ : findDelimiter tempList with
  | none => .ok (if tempList = [] then args else args ++ [tempList])
  | some (temp, rest) =>
      if temp = [] then .error (emptyArgument tempList)
      else splitArguments rest (args ++ [temp])
termination_by tempList.length
decreasing_by exact findDelimiter_length ‹findDelimiter tempList = _›

/-! ## The command -/

def join (pieces : List (List Char)) : List Char := List.intercalate delimiter pieces

def invalidArguments (invalid : List (List Char)) (argumentListStr : List Char) : List Char :=
  "Invalid data type(s) in argument list: ".toList ++ join invalid ++
    ". Argument list provided: ".toList ++ argumentListStr

/-- `ksqlSemicolon` or `ksqlLike`. -/
def ending (columnNamePattern : List Char) : List Char :=
  if columnNamePattern = [] then ";".toList else " LIKE ?;".toList

def placeholders (count : Nat) : List Char := join (List.replicate count ['?'])

def createParameterizedQueryString (argumentListStr sqlBase columnNamePattern : List Char) :
    Except (List Char) (List Char × List (List Char)) :=
  if argumentListStr = [] then .ok (sqlBase ++ "()".toList ++ ending columnNamePattern, [])
  else
    match splitArguments argumentListStr [] with
    | .error text => .error text
    | .ok args =>
        if invalidTypes args = [] then
          .ok (sqlBase ++ ['('] ++ placeholders args.length ++ [')'] ++ ending columnNamePattern,
            args)
        else .error (invalidArguments (invalidTypes args) argumentListStr)

/-! ## Pieces and lists -/

theorem join_singleton (piece : List Char) : join [piece] = piece :=
  List.intercalate_singleton

theorem join_cons {piece : List Char} {pieces : List (List Char)} (more : pieces ≠ []) :
    join (piece :: pieces) = piece ++ delimiter ++ join pieces := by
  obtain ⟨next, rest, rfl⟩ := List.exists_cons_of_ne_nil more
  rw [join, join, List.intercalate_cons_cons, List.append_assoc]

/-- What the loop appends spells the text, perhaps without a delimiter at its end. -/
theorem splitArguments_ok {tempList : List Char} {args result : List (List Char)}
    (split : splitArguments tempList args = .ok result) :
    ∃ pieces, result = args ++ pieces ∧
      (tempList = join pieces ∨ (pieces ≠ [] ∧ tempList = join pieces ++ delimiter)) ∧
      (pieces = [] → tempList = []) := by
  fun_induction splitArguments tempList args with
  | case1 tempList args found =>
      obtain rfl := Except.ok.inj split
      by_cases empty : tempList = []
      · rw [if_pos empty]
        exact ⟨[], (List.append_nil _).symm, .inl empty, fun _ => empty⟩
      · rw [if_neg empty]
        exact ⟨[tempList], rfl, .inl (join_singleton _).symm,
          fun none => absurd none (List.cons_ne_nil _ _)⟩
  | case2 => simp only [reduceCtorEq] at split
  | case3 tempList args temp rest found nonempty ih =>
      obtain ⟨pieces, same, spelled, last⟩ := ih split
      refine ⟨temp :: pieces, by rw [same, List.append_assoc]; rfl, ?_,
        fun none => absurd none (List.cons_ne_nil _ _)⟩
      rw [findDelimiter_eq found]
      by_cases more : pieces = []
      · right
        rw [last more, more, join_singleton, List.append_nil]
        exact ⟨List.cons_ne_nil _ _, rfl⟩
      rw [join_cons more]
      rcases spelled with spelled | ⟨-, spelled⟩
      · exact .inl (by rw [spelled])
      · exact .inr ⟨List.cons_ne_nil _ _, by rw [spelled, List.append_assoc _ (join _)]⟩

/-- Pieces without commas come out as they went in, also before a delimiter at the end. -/
theorem splitArguments_join {pieces : List (List Char)} (more : pieces ≠ [])
    (free : ∀ piece ∈ pieces, piece ≠ [] ∧ ',' ∉ piece) (args : List (List Char)) :
    splitArguments (join pieces) args = .ok (args ++ pieces) ∧
      splitArguments (join pieces ++ delimiter) args = .ok (args ++ pieces) := by
  induction pieces generalizing args with
  | nil => exact absurd rfl more
  | cons piece pieces ih =>
      obtain ⟨nonempty, noComma⟩ := free piece (List.mem_cons_self ..)
      have step (rest : List Char) : splitArguments (piece ++ delimiter ++ rest) args =
          splitArguments rest (args ++ [piece]) := by
        rw [splitArguments]
        split
        case h_1 none =>
          rw [findDelimiter_name rest noComma] at none
          simp only [reduceCtorEq] at none
        case h_2 found =>
          rw [findDelimiter_name rest noComma, Option.some.injEq, Prod.mk.injEq] at found
          rw [← found.1, ← found.2, if_neg nonempty]
      by_cases last : pieces = []
      · subst last
        have whole := step []
        rw [List.append_nil] at whole
        rw [join_singleton, whole]
        constructor
        · rw [splitArguments]
          split
          case h_1 => rw [if_neg nonempty]
          case h_2 found =>
            rw [findDelimiter_none noComma] at found
            simp only [reduceCtorEq] at found
        · rw [splitArguments]
          rfl
      · have inner := ih last (fun other member => free other (List.mem_cons_of_mem _ member))
          (args ++ [piece])
        rw [join_cons last, List.append_assoc _ (join pieces), step, step, inner.1, inner.2,
          List.append_assoc]
        exact ⟨rfl, rfl⟩

set_option maxRecDepth 4000 in
theorem validTypes_free : ∀ name ∈ validTypes, name ≠ [] ∧ ',' ∉ name := by
  decide

/-- A valid name of a type is not empty and has no comma. -/
theorem free_of_valid {dataType : List Char} (valid : isValidType dataType = true) :
    dataType ≠ [] ∧ ',' ∉ dataType := by
  rw [isValidType, List.contains_iff_mem] at valid
  obtain ⟨nonempty, noComma⟩ := validTypes_free _ valid
  exact ⟨fun none => nonempty (by rw [none]; rfl),
    fun comma => noComma (List.mem_map.mpr ⟨',', comma, rfl⟩)⟩

theorem invalidTypes_nil {args : List (List Char)} :
    invalidTypes args = [] ↔ ∀ dtype ∈ args, isValidType dtype = true := by
  rw [invalidTypes, List.filter_eq_nil_iff]
  simp only [Bool.not_eq_true', Bool.not_eq_false]

theorem placeholders_count (count : Nat) : (placeholders count).count '?' = count := by
  induction count with
  | zero => rfl
  | succ count ih =>
      rw [placeholders, List.replicate_succ]
      by_cases more : List.replicate count ['?'] = []
      · rw [more, join_singleton]
        cases count with
        | zero => rfl
        | succ count => exact absurd more (List.cons_ne_nil _ _)
      · rw [join_cons more, List.count_append, ← placeholders, ih]
        exact Nat.add_comm ..

/-! ## Which texts are taken exactly -/

/-- The text is the list of these arguments. -/
def Lists (argumentListStr : List Char) (args : List (List Char)) : Prop :=
  argumentListStr = join args ∧ (args = [] → argumentListStr = []) ∧
    ∀ dtype ∈ args, isValidType dtype = true

/-- The result is right: the arguments are those of the text, and the command has a marker
for each, or the text is no list. -/
def ParsedExactly (argumentListStr sqlBase columnNamePattern : List Char) : Prop :=
  match createParameterizedQueryString argumentListStr sqlBase columnNamePattern with
  | .ok (sql, args) =>
      Lists argumentListStr args ∧
        ∃ inner, sql = sqlBase ++ ['('] ++ inner ++ [')'] ++ ending columnNamePattern ∧
          inner.count '?' = args.length
  | .error _ => ¬ ∃ args, Lists argumentListStr args

/-- The text is a list with a delimiter behind the last argument. -/
def EndsInDelimiter (argumentListStr : List Char) : Prop :=
  ∃ args, args ≠ [] ∧ (∀ dtype ∈ args, isValidType dtype = true) ∧
    argumentListStr = join args ++ delimiter

/-- What the function does with a list of valid names, with or without a delimiter behind. -/
theorem create_lists {args : List (List Char)} (more : args ≠ [])
    (valid : ∀ dtype ∈ args, isValidType dtype = true) (tail : List Char)
    (isTail : tail = [] ∨ tail = delimiter) (sqlBase columnNamePattern : List Char) :
    createParameterizedQueryString (join args ++ tail) sqlBase columnNamePattern =
      .ok (sqlBase ++ ['('] ++ placeholders args.length ++ [')'] ++ ending columnNamePattern,
        args) := by
  have split := splitArguments_join more (fun dtype member => free_of_valid (valid dtype member)) []
  have nonempty : join args ++ tail ≠ [] := by
    obtain ⟨first, rest, rfl⟩ := List.exists_cons_of_ne_nil more
    have first := (free_of_valid (valid first (List.mem_cons_self ..))).1
    by_cases last : rest = []
    · rw [last, join_singleton]
      exact List.append_ne_nil_of_left_ne_nil first _
    · rw [join_cons last, List.append_assoc, List.append_assoc]
      exact List.append_ne_nil_of_left_ne_nil first _
  have result : splitArguments (join args ++ tail) [] = .ok args := by
    rcases isTail with rfl | rfl
    · rw [List.append_nil, split.1, List.nil_append]
    · rw [split.2, List.nil_append]
  rw [createParameterizedQueryString, if_neg nonempty, result]
  simp only [invalidTypes_nil.mpr valid, if_true]

theorem parsedExactly_iff (argumentListStr sqlBase columnNamePattern : List Char) :
    ParsedExactly argumentListStr sqlBase columnNamePattern ↔
      ¬ EndsInDelimiter argumentListStr := by
  constructor
  · rintro parsed ⟨args, more, valid, rfl⟩
    rw [ParsedExactly, create_lists more valid delimiter (.inr rfl)] at parsed
    have length := congrArg List.length parsed.1.1
    rw [List.length_append] at length
    exact absurd length (by simp [delimiter])
  · intro noDelimiter
    rw [ParsedExactly]
    split
    case h_1 sql args done =>
      rw [createParameterizedQueryString] at done
      by_cases empty : argumentListStr = []
      · rw [if_pos empty, Except.ok.injEq, Prod.mk.injEq] at done
        obtain ⟨rfl, rfl⟩ := done
        exact ⟨⟨empty, fun _ => empty, fun _ member => absurd member List.not_mem_nil⟩, [],
          by rw [List.append_nil, List.append_assoc sqlBase ['(']]; rfl, rfl⟩
      rw [if_neg empty] at done
      cases split : splitArguments argumentListStr [] with
      | error text => simp only [split, reduceCtorEq] at done
      | ok pieces =>
          simp only [split] at done
          by_cases valid : invalidTypes pieces = []
          · rw [if_pos valid, Except.ok.injEq, Prod.mk.injEq] at done
            obtain ⟨rfl, rfl⟩ := done
            obtain ⟨same, result, spelled, last⟩ := splitArguments_ok split
            rw [List.nil_append] at result
            subst result
            refine ⟨⟨?_, last, invalidTypes_nil.mp valid⟩, placeholders pieces.length, rfl,
              placeholders_count _⟩
            exact spelled.resolve_right fun dropped =>
              noDelimiter ⟨pieces, dropped.1, invalidTypes_nil.mp valid, dropped.2⟩
          · rw [if_neg valid] at done
            simp only [reduceCtorEq] at done
    case h_2 text failed =>
      rintro ⟨args, spelled, last, valid⟩
      by_cases more : args = []
      · rw [createParameterizedQueryString, if_pos (last more)] at failed
        simp only [reduceCtorEq] at failed
      · have done := create_lists more valid [] (.inl rfl) sqlBase columnNamePattern
        rw [List.append_nil, ← spelled, failed] at done
        simp only [reduceCtorEq] at done

unseal splitArguments in
/-- The empty argument behind the last delimiter is dropped. -/
theorem parsedExactly_wrong :
    ¬ ParsedExactly "integer, ".toList "SHOW PARAMETERS OF PROCEDURE ?.?.?".toList [] := by
  intro parsed
  have listed : createParameterizedQueryString "integer, ".toList
      "SHOW PARAMETERS OF PROCEDURE ?.?.?".toList [] =
        .ok ("SHOW PARAMETERS OF PROCEDURE ?.?.?(?);".toList, ["integer".toList]) := by
    decide
  rw [ParsedExactly, listed] at parsed
  exact absurd parsed.1.1 (by decide)

end RedshiftOdbc.Metadata

import RedshiftOdbc.Metadata.TableTypes

/-!
# Names with explicit lengths

A name of an `SQLTables` call comes with the number of its bytes, and its memory goes on
behind them.  The special calls, the strings of the SHOW path and the filter of a legacy
query are followed for every memory behind the bytes that are counted.  The names of the
SHOW path are read up to a terminator wherever it stands.
-/

namespace RedshiftOdbc.Metadata.Catalog

open RedshiftOdbc.CText
open RedshiftOdbc.Words

/-! ## The call -/

def isEmptyString (str : Option (List UInt8)) : Bool :=
  match str with
  | none => false
  | some str => cString str = []

def isNullOrEmptyString (str : Option (List UInt8)) : Bool :=
  match str with
  | none => true
  | some str => cString str = []

def char2String (str : Option (List UInt8)) : List UInt8 := (str.map cString).getD []

def strnicmp (left right : List UInt8) (count : Nat) : Bool :=
  sameText ((cString left).take count) ((cString right).take count)

/-- `SQL_ALL_CATALOGS`, `SQL_ALL_SCHEMAS` and `SQL_ALL_TABLE_TYPES` are all this text. -/
def sqlAll : List UInt8 := bytes "%"

def isSqlAll (argument : Argument) : Bool :=
  match argument.pVal with
  | none => false
  | some pVal =>
      if argument.cbLen = sqlNts then sameText (cString pVal) sqlAll
      else strnicmp pVal sqlAll (unsigned 8 argument.cbLen)

def isSqlAllCatalogs (catalog : Argument) : Bool := isSqlAll catalog

def isSqlAllSchemas (schema : Argument) : Bool := isSqlAll schema

def isSqlAllTableTypes (tableType : Argument) : Bool := isSqlAll tableType

/-- What a call depends on besides its names. -/
structure Server where
  /-- The server has SHOW commands. -/
  showDiscovery : Bool
  isSingleDatabaseMetaData : Bool
  iMetaDataId : Bool
  /-- Whether the server answers with an external schema for a pattern. -/
  externalSchema : List UInt8 → Bool

structure Names where
  catalog : Argument
  schema : Argument
  table : Argument
  tableType : Argument

def getExtSchemaPatternMatch (server : Server) (schema : Argument) : SchemaPatternType :=
  match schema.pVal with
  | none => .universal
  | some pSchemaName =>
      if cString pSchemaName = [] then .universal
      else if server.isSingleDatabaseMetaData then
        if server.externalSchema (cut (schema.length pSchemaName) (cString pSchemaName)) then
          .external
        else .local_
      else .universal

/-- The filter that the query of a kind of schema is built with. -/
def tablesCall (server : Server) (names : Names) : TablesCall :=
  let schemaPatternType := getExtSchemaPatternMatch server names.schema
  let datashare := schemaPatternType = .universal ∧ server.isSingleDatabaseMetaData = false
  ⟨server.iMetaDataId, ¬datashare, if datashare then some (bytes "TABLE_CAT") else none,
    schemaPatternType, names.catalog, names.schema, names.table, names.tableType⟩

inductive TablesAnswer where
  | allCatalogs
  | allSchemas
  | allTableTypes
  /-- The names that SHOW TABLES is asked with, and what is made of its rows. -/
  | showTables (catalogName schemaName tableName : List UInt8)
      (shown : List ShowTablesResult → ResultInfo)
  | catalogQuery (schemaPatternType : SchemaPatternType) (filterClause : List UInt8)

def nameText (pName : Option (List UInt8)) : List UInt8 :=
  if isNullOrEmptyString pName then [] else char2String pName

/-- A call for tables, by SHOW TABLES or by a query. -/
def filteredTables (server : Server) (names : Names) : Option TablesAnswer :=
  if server.showDiscovery then
    some (.showTables (nameText names.catalog.pVal) (nameText names.schema.pVal)
      (nameText names.table.pVal) (tablesShown names.tableType.pVal))
  else
    (getTableFilterClause (tablesCall server names)).map
      (.catalogQuery (getExtSchemaPatternMatch server names.schema))

/-- The special calls are told in the same way with SHOW commands and without. -/
def rsSQLTables (server : Server) (names : Names) : Option TablesAnswer :=
  if isEmptyString names.schema.pVal && isEmptyString names.table.pVal &&
      isSqlAllCatalogs names.catalog then some .allCatalogs
  else if isEmptyString names.catalog.pVal && isEmptyString names.table.pVal &&
      isSqlAllSchemas names.schema then some .allSchemas
  else if isEmptyString names.catalog.pVal && isEmptyString names.schema.pVal &&
      isEmptyString names.table.pVal && isSqlAllTableTypes names.tableType then
    some .allTableTypes
  else filteredTables server names

/-! ## Calls that agree on the bytes that are counted -/

/-- A name with the bytes that its length counts and the memory behind them. -/
structure Given where
  first : List UInt8
  behind : List UInt8
  /-- The length is a short. -/
  short : first.length < 2 ^ 15

def Given.argument (given : Given) : Argument :=
  ⟨some (given.first ++ given.behind), given.first.length⟩

/-- A name that is not given is a null pointer. -/
def argumentOf : Option Given → Argument
  | none => ⟨none, 0⟩
  | some given => given.argument

structure Call where
  catalog : Option Given
  schema : Option Given
  table : Option Given
  tableType : Option Given

def Call.names (call : Call) : Names :=
  ⟨argumentOf call.catalog, argumentOf call.schema, argumentOf call.table,
    argumentOf call.tableType⟩

def SameFirst (left right : Option Given) : Prop := left.map Given.first = right.map Given.first

structure Call.Agrees (call other : Call) : Prop where
  catalog : SameFirst call.catalog other.catalog
  schema : SameFirst call.schema other.schema
  table : SameFirst call.table other.table
  tableType : SameFirst call.tableType other.tableType

/--
Every call with the same counted bytes has the same answer, which is none where memory is
written outside of a buffer.
-/
def Call.Respected (call : Call) (server : Server) : Prop :=
  ∃ answer, ∀ other : Call, call.Agrees other → rsSQLTables server other.names = some answer

/-! ## What is decided by the bytes that are counted -/

/-- The first byte that is counted is a terminator. -/
def Blank (name : Option Given) : Prop := ∃ given ∈ name, given.first.head? = some 0

/-- As far as its length counts, the name is a percent sign. -/
def MatchesAll (name : Option Given) : Prop :=
  ∃ given ∈ name, given.first = [] ∨ given.first = [37] ∨ ∃ rest, given.first = 37 :: 0 :: rest

/-- A terminator is among the bytes that are counted. -/
def Ends (name : Option Given) : Prop := ∀ given ∈ name, 0 ∈ given.first

/-- A special call that is told by the bytes that are counted. -/
inductive Call.Special (call : Call) : Prop where
  | catalogs (schema : Blank call.schema) (table : Blank call.table)
      (all : MatchesAll call.catalog)
  | schemas (catalog : Blank call.catalog) (table : Blank call.table)
      (all : MatchesAll call.schema)
  | tableTypes (catalog : Blank call.catalog) (schema : Blank call.schema)
      (table : Blank call.table) (all : MatchesAll call.tableType)

theorem cString_ends {first : List UInt8} (ends : 0 ∈ first) (behind : List UInt8) :
    cString (first ++ behind) = cString first := by
  induction first with
  | nil => exact absurd ends List.not_mem_nil
  | cons byte first ih =>
      by_cases zero : byte = 0
      · rw [zero]
        rfl
      · have later : 0 ∈ first := (List.mem_cons.mp ends).resolve_left fun same => zero same.symm
        have inner := ih later
        rw [cString, cString] at inner
        rw [List.cons_append, cString, cString, List.takeWhile_cons, List.takeWhile_cons, inner]

theorem cString_open {first : List UInt8} (noZero : 0 ∉ first) (behind : List UInt8) :
    cString (first ++ behind) = first ++ cString behind :=
  List.takeWhile_append_of_pos fun _ member => decide_eq_true fun zero =>
    noZero (zero ▸ member)

/-- What is counted of the text is the text of the bytes that are counted. -/
theorem cString_take_first (first behind : List UInt8) :
    (cString (first ++ behind)).take first.length = cString first := by
  by_cases ends : 0 ∈ first
  · rw [cString_ends ends]
    exact List.take_of_length_le (List.takeWhile_sublist _).length_le
  · rw [cString_open ends, List.take_left, cString_of_not_mem ends]

theorem cString_eq_nil_iff (text : List UInt8) :
    cString text = [] ↔ text = [] ∨ text.head? = some 0 := by
  cases text with
  | nil => simp [cString]
  | cons byte text => simp [cString, List.takeWhile_cons]

theorem isEmptyString_given (given : Given) :
    isEmptyString given.argument.pVal = true ↔
      given.first.head? = some 0 ∨ given.first = [] ∧ cString given.behind = [] := by
  rw [Given.argument, isEmptyString, decide_eq_true_eq]
  cases first : given.first with
  | nil => simp
  | cons byte rest => simp [cString_eq_nil_iff]

theorem isSqlAll_given (given : Given) :
    isSqlAll given.argument = true ↔
      given.first = [] ∨ given.first = [37] ∨ ∃ rest, given.first = 37 :: 0 :: rest := by
  have short := given.short
  have count : unsigned 8 (given.first.length : Int) = given.first.length :=
    unsigned_natCast (by omega)
  have percent : cString sqlAll = [37] := by decide
  rw [Given.argument, isSqlAll]
  dsimp only
  rw [if_neg (by simp only [sqlNts]; omega), strnicmp, count, cString_take_first, sameText_iff,
    percent]
  cases first : given.first with
  | nil => simp [cString]
  | cons byte rest =>
      have letter : toLower byte = toLower 37 ↔ byte = 37 := toLower_eq_iff (.inl (by decide))
      rw [List.length_cons, List.take_succ_cons, List.take_nil]
      by_cases zero : byte = 0
      · simp [zero, cString]
      · have begins : cString (byte :: rest) = byte :: cString rest := by
          rw [cString, List.takeWhile_cons_of_pos (by simp [zero]), cString]
        rw [begins, List.map_cons, List.map_cons, List.cons.injEq, letter, List.map_nil,
          List.map_eq_nil_iff, cString_eq_nil_iff]
        cases rest with
        | nil => simp
        | cons next rest => simp

theorem isEmptyString_of_blank {name : Option Given} (blank : Blank name) :
    isEmptyString (argumentOf name).pVal = true := by
  obtain ⟨given, rfl, first⟩ := blank
  exact (isEmptyString_given given).mpr (.inl first)

theorem isSqlAll_iff (name : Option Given) :
    isSqlAll (argumentOf name) = true ↔ MatchesAll name := by
  cases name with
  | none => simp [argumentOf, isSqlAll, MatchesAll]
  | some given => simpa [argumentOf, MatchesAll] using isSqlAll_given given

theorem Blank.not_matchesAll {name : Option Given} (blank : Blank name) : ¬MatchesAll name := by
  obtain ⟨given, rfl, first⟩ := blank
  rintro ⟨other, same, all⟩
  cases same
  rcases all with none | one | ⟨rest, several⟩
  · rw [none] at first
    cases first
  · rw [one] at first
    cases first
  · rw [several] at first
    cases first

theorem SameFirst.eq_none_or {left right : Option Given} (same : SameFirst left right) :
    left = none ∧ right = none ∨
      ∃ given other, left = some given ∧ right = some other ∧ given.first = other.first := by
  cases left with
  | none =>
      cases right with
      | none => exact .inl ⟨rfl, rfl⟩
      | some other => cases same
  | some given =>
      cases right with
      | none => cases same
      | some other => exact .inr ⟨given, other, rfl, rfl, Option.some.inj same⟩

theorem SameFirst.blank {left right : Option Given} (same : SameFirst left right)
    (blank : Blank left) : Blank right := by
  rcases same.eq_none_or with ⟨rfl, rfl⟩ | ⟨given, other, rfl, rfl, first⟩
  · exact blank
  · obtain ⟨_, ⟨⟩, zero⟩ := blank
    exact ⟨other, rfl, first ▸ zero⟩

theorem SameFirst.matchesAll {left right : Option Given} (same : SameFirst left right)
    (all : MatchesAll left) : MatchesAll right := by
  rcases same.eq_none_or with ⟨rfl, rfl⟩ | ⟨given, other, rfl, rfl, first⟩
  · exact all
  · obtain ⟨_, ⟨⟩, matching⟩ := all
    exact ⟨other, rfl, first ▸ matching⟩

/-! ## Special calls -/

/-- A special call is answered alike whatever stands behind its names. -/
theorem Call.Special.respected {call : Call} (special : call.Special) (server : Server) :
    call.Respected server := by
  have never {name : Option Given} (blank : Blank name) : isSqlAll (argumentOf name) = false :=
    Bool.eq_false_iff.mpr fun all => blank.not_matchesAll ((isSqlAll_iff name).mp all)
  cases special with
  | catalogs schema table all =>
      refine ⟨.allCatalogs, fun other agrees => ?_⟩
      have schema := isEmptyString_of_blank (agrees.schema.blank schema)
      have table := isEmptyString_of_blank (agrees.table.blank table)
      have all := (isSqlAll_iff _).mpr (agrees.catalog.matchesAll all)
      simp only [rsSQLTables, Call.names, isSqlAllCatalogs, schema, table, all, Bool.and_self,
        if_true]
  | schemas catalog table all =>
      refine ⟨.allSchemas, fun other agrees => ?_⟩
      have no_catalogs := never (agrees.catalog.blank catalog)
      have catalog := isEmptyString_of_blank (agrees.catalog.blank catalog)
      have table := isEmptyString_of_blank (agrees.table.blank table)
      have all := (isSqlAll_iff _).mpr (agrees.schema.matchesAll all)
      simp only [rsSQLTables, Call.names, isSqlAllCatalogs, isSqlAllSchemas, no_catalogs, catalog,
        table, all, Bool.and_self, Bool.and_false, Bool.false_eq_true, if_true, if_false]
  | tableTypes catalog schema table all =>
      refine ⟨.allTableTypes, fun other agrees => ?_⟩
      have no_catalogs := never (agrees.catalog.blank catalog)
      have no_schemas := never (agrees.schema.blank schema)
      have catalog := isEmptyString_of_blank (agrees.catalog.blank catalog)
      have schema := isEmptyString_of_blank (agrees.schema.blank schema)
      have table := isEmptyString_of_blank (agrees.table.blank table)
      have all := (isSqlAll_iff _).mpr (agrees.tableType.matchesAll all)
      simp only [rsSQLTables, Call.names, isSqlAllCatalogs, isSqlAllSchemas, isSqlAllTableTypes,
        no_catalogs, no_schemas, catalog, schema, table, all, Bool.and_self, Bool.and_false,
        Bool.false_eq_true, if_true, if_false]

/-- A name with other memory behind it. -/
def Given.followed (given : Given) (behind : List UInt8) : Given := { given with behind }

def follow (behind : List UInt8) (name : Option Given) : Option Given :=
  name.map fun given => given.followed behind

def Call.followed (call : Call) (behind : List UInt8) : Call :=
  ⟨follow behind call.catalog, follow behind call.schema, follow behind call.table,
    follow behind call.tableType⟩

theorem sameFirst_follow (behind : List UInt8) (name : Option Given) :
    SameFirst name (follow behind name) := by
  rw [SameFirst, follow, Option.map_map]
  rfl

theorem Call.agrees_followed (call : Call) (behind : List UInt8) :
    call.Agrees (call.followed behind) where
  catalog := sameFirst_follow behind call.catalog
  schema := sameFirst_follow behind call.schema
  table := sameFirst_follow behind call.table
  tableType := sameFirst_follow behind call.tableType

theorem Call.Agrees.symm {call other : Call} (agrees : call.Agrees other) : other.Agrees call where
  catalog := Eq.symm agrees.catalog
  schema := Eq.symm agrees.schema
  table := Eq.symm agrees.table
  tableType := Eq.symm agrees.tableType

theorem Call.Agrees.special {call other : Call} (agrees : call.Agrees other)
    (special : call.Special) : other.Special := by
  cases special with
  | catalogs schema table all =>
      exact .catalogs (agrees.schema.blank schema) (agrees.table.blank table)
        (agrees.catalog.matchesAll all)
  | schemas catalog table all =>
      exact .schemas (agrees.catalog.blank catalog) (agrees.table.blank table)
        (agrees.schema.matchesAll all)
  | tableTypes catalog schema table all =>
      exact .tableTypes (agrees.catalog.blank catalog) (agrees.schema.blank schema)
        (agrees.table.blank table) (agrees.tableType.matchesAll all)

/-- A call whose empty names are told by a byte that is counted, and that is not special. -/
theorem rsSQLTables_filtered {call : Call} (special : ¬call.Special)
    (catalog : isEmptyString (argumentOf call.catalog).pVal = true → Blank call.catalog)
    (schema : isEmptyString (argumentOf call.schema).pVal = true → Blank call.schema)
    (table : isEmptyString (argumentOf call.table).pVal = true → Blank call.table)
    (server : Server) : rsSQLTables server call.names = filteredTables server call.names := by
  rw [rsSQLTables, if_neg, if_neg, if_neg]
  all_goals rw [Bool.and_eq_true, Bool.and_eq_true]
  · rw [Bool.and_eq_true]
    rintro ⟨⟨⟨noCatalog, noSchema⟩, noTable⟩, all⟩
    exact special (.tableTypes (catalog noCatalog) (schema noSchema) (table noTable)
      ((isSqlAll_iff _).mp all))
  · rintro ⟨⟨noCatalog, noTable⟩, all⟩
    exact special (.schemas (catalog noCatalog) (table noTable) ((isSqlAll_iff _).mp all))
  · rintro ⟨⟨noSchema, noTable⟩, all⟩
    exact special (.catalogs (schema noSchema) (table noTable) ((isSqlAll_iff _).mp all))

/-- With a letter behind it, a name is empty by a terminator that is counted. -/
theorem blank_of_isEmptyString_follow {name : Option Given}
    (empty : isEmptyString (argumentOf (follow [1] name)).pVal = true) :
    Blank (follow [1] name) := by
  cases name with
  | none => cases empty
  | some given =>
      refine ⟨_, rfl, ?_⟩
      rcases (isEmptyString_given _).mp empty with zero | ⟨-, none⟩
      · exact zero
      · cases none

theorem Ends.blank {name : Option Given} (ends : Ends name)
    (empty : isEmptyString (argumentOf name).pVal = true) : Blank name := by
  cases name with
  | none => cases empty
  | some given =>
      refine ⟨given, rfl, ?_⟩
      rcases (isEmptyString_given given).mp empty with zero | ⟨none, -⟩
      · exact zero
      · exact absurd (none ▸ ends given rfl) List.not_mem_nil

/-- The answer of a call that is not special. -/
def TablesAnswer.Filtered (answer : TablesAnswer) : Prop :=
  answer ≠ .allCatalogs ∧ answer ≠ .allSchemas ∧ answer ≠ .allTableTypes

theorem filteredTables_filtered {server : Server} {names : Names} {answer : TablesAnswer}
    (answered : filteredTables server names = some answer) : answer.Filtered := by
  rw [filteredTables] at answered
  split_ifs at answered
  · cases answered
    exact ⟨nofun, nofun, nofun⟩
  · obtain ⟨clause, -, rfl⟩ := Option.map_eq_some_iff.mp answered
    exact ⟨nofun, nofun, nofun⟩

theorem filteredTables_of_answer {server : Server} {names : Names} {answer : TablesAnswer}
    (filtered : answer.Filtered) (answered : rsSQLTables server names = some answer) :
    filteredTables server names = some answer := by
  rw [rsSQLTables] at answered
  split_ifs at answered
  · exact absurd (Option.some.inj answered).symm filtered.1
  · exact absurd (Option.some.inj answered).symm filtered.2.1
  · exact absurd (Option.some.inj answered).symm filtered.2.2
  · exact answered

/-- A call that is not special but respected has one answer for tables, whatever follows. -/
theorem Call.Respected.filtered {call : Call} {server : Server} (respected : call.Respected server)
    (special : ¬call.Special) :
    ∃ answer, ∀ other : Call, call.Agrees other →
      filteredTables server other.names = some answer := by
  obtain ⟨answer, answers⟩ := respected
  have agrees := call.agrees_followed [1]
  have here := answers _ agrees
  rw [rsSQLTables_filtered (fun other => special (agrees.symm.special other))
    blank_of_isEmptyString_follow blank_of_isEmptyString_follow
    blank_of_isEmptyString_follow] at here
  exact ⟨answer, fun other agrees =>
    filteredTables_of_answer (filteredTables_filtered here) (answers other agrees)⟩

/-! ## With SHOW commands -/

theorem nameText_eq (pName : Option (List UInt8)) : nameText pName = char2String pName := by
  cases pName with
  | none => rfl
  | some str =>
      rw [nameText, isNullOrEmptyString, char2String]
      by_cases empty : cString str = []
      · simp [empty]
      · simp [empty]

/-- A name that reads alike with nothing and with a letter behind it has a terminator. -/
theorem ends_of_nameText {name : Option Given}
    (same : nameText (argumentOf (follow [] name)).pVal =
      nameText (argumentOf (follow [1] name)).pVal) : Ends name := by
  rintro given rfl
  by_contra noZero
  rw [nameText_eq, nameText_eq] at same
  change cString (given.first ++ []) = cString (given.first ++ [1]) at same
  rw [cString_open noZero, cString_open noZero] at same
  exact absurd (List.append_cancel_left same) (by decide)

theorem mem_typeSet_length {tableType member : List UInt8} (isMember : member ∈ typeSet tableType) :
    member.length ≤ tableType.length := by
  obtain ⟨temp, isPiece, rfl⟩ := List.mem_map.mp isMember
  have piece : temp ∈ tableType.splitOn 44 := by
    rw [getlines] at isPiece
    split_ifs at isPiece
    · exact (List.dropLast_sublist _).subset isPiece
    · exact isPiece
  refine le_trans ?_ (splitOn_sublist piece).length_le
  rw [listedType]
  split_ifs
  · rw [List.length_take, List.length_drop]
    omega
  · exact le_rfl

/-- A plain item behind a comma is a type of the list. -/
theorem mem_typeSet_behind (front : List UInt8) {item : List UInt8} (some_item : item ≠ [])
    (plain : 39 ∉ item ∧ 44 ∉ item) : item ∈ typeSet (front ++ 44 :: item) := by
  rw [typeSet, getlines, List.splitOn_append_cons_self, List.splitOn_eq_singleton plain.2]
  rw [if_neg (by simpa using some_item), List.map_append, List.map_singleton, listedType,
    if_neg plain.1]
  exact List.mem_append_right _ List.mem_cons_self

theorem count_row_iff (tableType : List UInt8) (row : ShowTablesResult) :
    (sqlTablesPostProcessing tableType [row]).iNumberOfRowsInMem = 1 ↔
      keepsRow tableType row = true := by
  rw [sqlTablesPostProcessing_eq, List.filter_singleton]
  cases keepsRow tableType row <;> simp

/-- Types that select alike with everything behind them have a terminator. -/
theorem ends_of_tablesShown {name : Option Given}
    {shown : List ShowTablesResult → ResultInfo}
    (same : ∀ behind, tablesShown (argumentOf (follow behind name)).pVal = shown) :
    Ends name := by
  rintro given rfl
  by_contra noZero
  have equal (left right : List UInt8) (row : ShowTablesResult) :
      keepsRow (given.first ++ cString left) row = keepsRow (given.first ++ cString right) row := by
    have answers := congrFun ((same left).trans (same right).symm) [row]
    change sqlTablesPostProcessing (cString (given.first ++ left)) [row] =
      sqlTablesPostProcessing (cString (given.first ++ right)) [row] at answers
    rw [cString_open noZero, cString_open noZero] at answers
    rw [Bool.eq_iff_iff, ← count_row_iff, ← count_row_iff, answers]
  by_cases none_first : given.first = []
  · -- Without types every row is kept, with one only its own.
    have rows := equal [] [1] (.typed none)
    rw [none_first] at rows
    exact absurd rows (by decide)
  · -- A type that is longer than all of the list is kept only where it is added.
    obtain ⟨item, named⟩ : ∃ item, item = List.replicate (given.first.length + 1) (1 : UInt8) :=
      ⟨_, rfl⟩
    have ones : ∀ byte ∈ item, byte = 1 := fun byte member =>
      List.eq_of_mem_replicate (named ▸ member)
    have noZero_item : 0 ∉ (44 :: item) := by
      rw [List.mem_cons]
      rintro (comma | member)
      · cases comma
      · cases ones 0 member
    have rows := equal [] (44 :: item) (.typed (some item))
    have added : keepsRow (given.first ++ 44 :: item) (.typed (some item)) = true := by
      rw [keepsRow, Bool.or_eq_true]
      refine .inr (List.contains_iff_mem.mpr (mem_typeSet_behind given.first ?_ ⟨?_, ?_⟩))
      · rw [named]
        exact List.cons_ne_nil _ _
      · exact fun member => absurd (ones 39 member) (by decide)
      · exact fun member => absurd (ones 44 member) (by decide)
    rw [cString_of_not_mem noZero_item, added] at rows
    have absent : keepsRow given.first (.typed (some item)) = false := by
      rw [keepsRow, List.isEmpty_eq_false_iff.mpr none_first, Bool.false_or,
        Bool.eq_false_iff]
      intro contained
      have length := mem_typeSet_length (List.contains_iff_mem.mp contained)
      rw [ShowTablesResult.typed, Option.getD_some, named, List.length_replicate] at length
      omega
    rw [cString, List.takeWhile_nil, List.append_nil, absent] at rows
    cases rows

/-- With SHOW commands every name has to have a terminator. -/
theorem ends_of_showTables {call : Call} {server : Server} (showing : server.showDiscovery = true)
    {answer : TablesAnswer}
    (answers : ∀ other : Call, call.Agrees other →
      filteredTables server other.names = some answer) :
    Ends call.catalog ∧ Ends call.schema ∧ Ends call.table ∧ Ends call.tableType := by
  have asked (behind : List UInt8) : answer = .showTables
      (nameText (argumentOf (follow behind call.catalog)).pVal)
      (nameText (argumentOf (follow behind call.schema)).pVal)
      (nameText (argumentOf (follow behind call.table)).pVal)
      (tablesShown (argumentOf (follow behind call.tableType)).pVal) := by
    have here := answers _ (call.agrees_followed behind)
    rw [filteredTables, if_pos showing] at here
    exact (Option.some.inj here).symm
  have same (behind : List UInt8) := (asked behind).symm.trans (asked [1])
  simp only [TablesAnswer.showTables.injEq] at same
  exact ⟨ends_of_nameText (same []).1, ends_of_nameText (same []).2.1,
    ends_of_nameText (same []).2.2.1, ends_of_tablesShown fun behind => (same behind).2.2.2⟩

/-- What a name with a terminator is read as. -/
theorem SameFirst.reads {left right : Option Given} (same : SameFirst left right)
    (ends : Ends left) :
    (argumentOf left).cbLen = (argumentOf right).cbLen ∧
      (argumentOf left).pVal.map cString = (argumentOf right).pVal.map cString := by
  rcases same.eq_none_or with ⟨rfl, rfl⟩ | ⟨given, other, rfl, rfl, first⟩
  · exact ⟨rfl, rfl⟩
  · have zero := ends given rfl
    refine ⟨by rw [argumentOf, argumentOf, Given.argument, Given.argument, first], ?_⟩
    change some (cString (given.first ++ given.behind)) =
      some (cString (other.first ++ other.behind))
    rw [cString_ends zero, cString_ends (first ▸ zero), first]

/-! ## With a legacy query -/

/-- The condition on a name, which begins with the column. -/
def likeText (front : List UInt8) (name : Option (List UInt8)) : List UInt8 :=
  match name with
  | none => []
  | some name => if name = [] then [] else front ++ 39 :: (doubled name ++ bytes "' ")

def likeFront (iMetaDataId : Bool) (pFilterColumn : List UInt8) : List UInt8 :=
  bytes " AND " ++ pFilterColumn ++ (if iMetaDataId then bytes " = " else bytes " LIKE ")

/-- The conditions on the names of a call; that on the catalog has a buffer of its own. -/
def namesText (call : TablesCall) : List UInt8 :=
  (likeText (databaseText call.connected call.databaseColName)
      (call.catalog.pVal.map cString)).take (maxLargeTempBufLen - 1) ++
    (likeText (likeFront call.iMetaDataId (bytes "TABLE_SCHEM")) (call.schema.pVal.map cString) ++
      likeText (likeFront call.iMetaDataId (bytes "TABLE_NAME")) (call.table.pVal.map cString))

/-- A length that is no short is negative, and then the text is not cut. -/
theorem literal_eq {pEscapedName : List UInt8} (short : pEscapedName.length < 2 ^ 16) :
    literal pEscapedName = 39 :: (pEscapedName ++ bytes "' ") := by
  have whole : cut (wrap 2 pEscapedName.length) pEscapedName = pEscapedName := by
    by_cases small : pEscapedName.length < 2 ^ 15
    · rw [wrap_of_range (by omega) (by push_cast; omega), cut, if_neg (by omega),
        Int.toNat_natCast, List.take_length]
    · have negative : wrap 2 pEscapedName.length < 0 := by
        rw [wrap, unsigned_natCast (by omega), signed, if_neg (by omega)]
        omega
      rw [cut, if_pos negative]
  rw [literal, whole]

theorem cString_length_lt {first : List UInt8} (ends : 0 ∈ first) :
    (cString first).length < first.length := by
  refine lt_of_le_of_ne (List.takeWhile_sublist _).length_le fun same => ?_
  have whole : cString first = first := List.IsPrefix.eq_of_length (List.takeWhile_prefix _) same
  have member : 0 ∈ cString first := by
    rw [whole]
    exact ends
  exact zero_not_mem_cString first member

theorem given_length (given : Given) (pVal : List UInt8) :
    given.argument.length pVal = given.first.length := by
  have other : ¬(given.first.length : Int) = sqlNts := by
    rw [sqlNts]
    omega
  rw [Argument.length, Given.argument, if_neg other]

section

variable {given : Given} (ends : 0 ∈ given.first)

include ends

theorem doubled_length_lt :
    (doubled (cString (given.first ++ given.behind))).length < 2 * given.first.length := by
  have shorter := cString_length_lt ends
  have quotes := @List.count_le_length UInt8 _ 39 (cString given.first)
  rw [cString_ends ends, doubled_length]
  omega

/-- The escaped name with a terminator among its counted bytes, in its buffer. -/
theorem escaped_given :
    (escapedFilterCondition (given.first ++ given.behind)
        (given.argument.length (given.first ++ given.behind))).bind terminated =
      some (doubled (cString (given.first ++ given.behind))) := by
  have shorter := doubled_length_lt ends
  rw [escaped_terminated, given_length, if_pos (by omega)]

theorem literal_given :
    literal (doubled (cString (given.first ++ given.behind))) =
      39 :: (doubled (cString (given.first ++ given.behind)) ++ bytes "' ") := by
  have shorter := doubled_length_lt ends
  have short := given.short
  exact literal_eq (by omega)

end

theorem addLikeOrEqual_ends {filterClause : List UInt8}
    (inside : filterClause.length < maxCatalogQueryFilterLen) (iMetaDataId : Bool)
    (pFilterColumn : List UInt8) {name : Option Given} (ends : Ends name) :
    addLikeOrEqualFilterCondition iMetaDataId filterClause pFilterColumn (argumentOf name) =
      some (clipped maxCatalogQueryFilterLen filterClause
        (likeText (likeFront iMetaDataId pFilterColumn) ((argumentOf name).pVal.map cString))) := by
  rw [addLikeOrEqualFilterCondition.eq_def]
  cases name with
  | none => exact congrArg some (clipped_nil _ _).symm
  | some given =>
      have zero := ends given rfl
      change (if cString (given.first ++ given.behind) = [] then some filterClause else _) =
        some (clipped maxCatalogQueryFilterLen filterClause
          (if cString (given.first ++ given.behind) = [] then [] else _))
      by_cases empty : cString (given.first ++ given.behind) = []
      · rw [if_pos empty, if_pos empty, clipped_nil]
      · rw [if_neg empty, if_neg empty]
        dsimp only [argumentOf]
        rw [escaped_given zero]
        dsimp only
        rw [printBehind_eq inside, literal_given zero]
        rfl

theorem getCatalog_ends (connected : Bool) (databaseColName : Option (List UInt8))
    {name : Option Given} (ends : Ends name) :
    getCatalogFilterCondition maxLargeTempBufLen connected databaseColName (argumentOf name) =
      some (clipped maxLargeTempBufLen []
        (likeText (databaseText connected databaseColName)
          ((argumentOf name).pVal.map cString))) := by
  rw [getCatalogFilterCondition.eq_def]
  cases name with
  | none => exact congrArg some (clipped_nil _ _).symm
  | some given =>
      have zero := ends given rfl
      change (if cString (given.first ++ given.behind) = [] then some [] else _) =
        some (clipped maxLargeTempBufLen []
          (if cString (given.first ++ given.behind) = [] then [] else _))
      by_cases empty : cString (given.first ++ given.behind) = []
      · rw [if_pos empty, if_pos empty, clipped_nil]
      · rw [if_neg empty, if_neg empty]
        dsimp only [argumentOf]
        rw [escaped_given zero]
        dsimp only
        rw [printBehind_eq (by decide), literal_given zero]

/-- The conditions on names with terminators, before the types. -/
theorem getTableFilterClause_ends {call : TablesCall} {catalog schema table : Option Given}
    (catalogs : call.catalog = argumentOf catalog) (schemas : call.schema = argumentOf schema)
    (tables : call.table = argumentOf table) (catalogEnds : Ends catalog)
    (schemaEnds : Ends schema) (tableEnds : Ends table) :
    getTableFilterClause call =
      addTableTypeFilterCondition (clipped maxCatalogQueryFilterLen [] (namesText call))
        call.tableType call.schemaPatternType := by
  have nothing : ([] : List UInt8).length < maxCatalogQueryFilterLen := by decide
  rw [getTableFilterClause, catalogs, schemas, tables, getCatalog_ends _ _ catalogEnds]
  change Option.bind (printBehind _ [] _) _ = _
  rw [printBehind_eq nothing]
  change Option.bind (addLikeOrEqualFilterCondition _ _ _ _) _ = _
  rw [addLikeOrEqual_ends (clipped_length nothing _) _ _ schemaEnds]
  change Option.bind (addLikeOrEqualFilterCondition _ _ _ _) _ = _
  rw [addLikeOrEqual_ends (clipped_length (clipped_length nothing _) _) _ _ tableEnds]
  change addTableTypeFilterCondition _ _ _ = _
  rw [clipped_clipped, clipped_clipped, namesText, catalogs, schemas, tables]
  have front (text : List UInt8) :
      clipped maxLargeTempBufLen [] text = text.take (maxLargeTempBufLen - 1) := by
    rw [clipped, List.nil_append, List.length_nil, Nat.sub_zero]
  rw [front]

/-- An IN list, or a condition on the catalog tables, for no type. -/
def emptyTypes (schemaPatternType : SchemaPatternType) : List UInt8 :=
  match schemaPatternType with
  | .local_ => bytes " AND (false " ++ bytes " ) "
  | _ => bytes " AND TABLE_TYPE IN ( " ++ bytes " ) "

/-- The length of a name is not the one of a terminated text. -/
theorem Given.length_ne (given : Given) : ¬(given.first.length : Int) = sqlNts := by
  rw [sqlNts]
  omega

section

variable (given : Given) {schemaPatternType : SchemaPatternType}

/-- Whether there are types is told by the first byte, where one is counted. -/
theorem no_types_iff (some_first : given.first ≠ []) :
    cString (given.first ++ given.behind) = [] ↔ cString given.first = [] := by
  rw [cString_eq_nil_iff, cString_eq_nil_iff]
  simp [some_first]

theorem take_counted : (cString given.first).take given.first.length = cString given.first :=
  List.take_of_length_le (List.takeWhile_sublist _).length_le

/-- Types of which a byte is counted are those that are counted. -/
theorem addTableType_first (some_first : given.first ≠ []) (filterClause : List UInt8) :
    addTableTypeFilterCondition filterClause given.argument schemaPatternType =
      addTableTypeFilterCondition filterClause ⟨some given.first, given.first.length⟩
        schemaPatternType := by
  rw [addTableTypeFilterCondition.eq_def, addTableTypeFilterCondition.eq_def, Given.argument]
  dsimp only
  simp only [no_types_iff given some_first, if_neg given.length_ne, Int.toNat_natCast,
    cString_take_first, take_counted]

/-- Of types of which no byte is counted, the first byte in memory is looked at. -/
theorem addTableType_nothing (none_first : given.first = []) {filterClause : List UInt8}
    (inside : filterClause.length < maxCatalogQueryFilterLen) :
    addTableTypeFilterCondition filterClause given.argument schemaPatternType =
      some (if cString given.behind = [] then filterClause
        else clipped maxCatalogQueryFilterLen filterClause (emptyTypes schemaPatternType)) := by
  rw [addTableTypeFilterCondition.eq_def, Given.argument, none_first]
  dsimp only
  rw [List.nil_append]
  by_cases empty : cString given.behind = []
  · rw [if_pos empty, if_pos empty]
  · have other : ¬(([] : List UInt8).length : Int) = sqlNts := by decide
    rw [if_neg empty, if_neg empty, if_neg other, if_neg (by decide)]
    have none_listed : tokens ((cString given.behind).take (([] : List UInt8).length : Int).toNat) =
        [] := by rfl
    rw [none_listed]
    have joined (front : List UInt8) :
        ((catBehind maxCatalogQueryFilterLen filterClause front).bind fun filterClause =>
          catBehind maxCatalogQueryFilterLen filterClause (bytes " ) ")) =
            some (clipped maxCatalogQueryFilterLen filterClause (front ++ bytes " ) ")) := by
      rw [catBehind_eq inside (by decide), Option.bind_some,
        catBehind_eq (clipped_length inside _) (by decide), clipped_clipped]
    cases schemaPatternType with
    | local_ => exact joined _
    | universal => exact joined _
    | external => exact joined _

end

/-- Types are taken alike, whatever follows, where one is counted or the clause is full. -/
theorem types_settled_iff {filterClause : List UInt8}
    (inside : filterClause.length < maxCatalogQueryFilterLen)
    (schemaPatternType : SchemaPatternType) (name : Option Given) :
    (∃ clause, ∀ other, SameFirst name other →
        addTableTypeFilterCondition filterClause (argumentOf other) schemaPatternType =
          some clause) ↔
      ∀ given ∈ name,
        if given.first = [] then maxCatalogQueryFilterLen ≤ filterClause.length + 1
        else given.argument.TypesFit schemaPatternType := by
  constructor
  · rintro ⟨clause, answers⟩ given rfl
    split_ifs with none_first
    · have nothing := answers _ (sameFirst_follow [] _)
      have letter := answers _ (sameFirst_follow [1] _)
      change addTableTypeFilterCondition _ (given.followed []).argument _ = _ at nothing
      change addTableTypeFilterCondition _ (given.followed [1]).argument _ = _ at letter
      rw [addTableType_nothing (given.followed []) none_first inside] at nothing
      rw [addTableType_nothing (given.followed [1]) none_first inside] at letter
      have same := (Option.some.inj letter).trans (Option.some.inj nothing).symm
      have some_letter : ¬cString (given.followed [1]).behind = [] := fun none => by cases none
      have nothing_behind : cString (given.followed []).behind = [] := rfl
      have length := congrArg List.length same
      rw [if_neg some_letter, if_pos nothing_behind, clipped, List.length_append,
        List.length_take] at length
      have some_types : 0 < (emptyTypes schemaPatternType).length := by
        cases schemaPatternType <;> decide
      omega
    · have here := answers _ rfl
      rcases settled_addTableType inside given.argument schemaPatternType with
        ⟨-, fits⟩ | ⟨fails, -⟩
      · exact fits
      · rw [argumentOf, fails] at here
        cases here
  · intro settled
    cases name with
    | none =>
        refine ⟨filterClause, fun other same => ?_⟩
        rcases same.eq_none_or with ⟨-, rfl⟩ | ⟨_, _, none, -⟩
        · rfl
        · cases none
    | some given =>
        have here := settled given rfl
        split_ifs at here with none_first
        · refine ⟨filterClause, fun other same => ?_⟩
          obtain ⟨none, -⟩ | ⟨_, other, ⟨⟩, rfl, first⟩ := same.eq_none_or
          · cases none
          · have full : clipped maxCatalogQueryFilterLen filterClause
                (emptyTypes schemaPatternType) = filterClause := by
              rw [clipped, show maxCatalogQueryFilterLen - 1 - filterClause.length = 0 by omega,
                List.take_zero, List.append_nil]
            rw [argumentOf, addTableType_nothing other (first ▸ none_first) inside, full, ite_self]
        · rcases settled_addTableType inside given.argument schemaPatternType with
            ⟨⟨clause, answer, -⟩, -⟩ | ⟨-, fails⟩
          · refine ⟨clause, fun other same => ?_⟩
            obtain ⟨none, -⟩ | ⟨_, other, ⟨⟩, rfl, first⟩ := same.eq_none_or
            · cases none
            · rw [argumentOf, addTableType_first other (first ▸ none_first), ← first,
                ← addTableType_first given none_first, answer]
          · exact absurd here fails

/-! ## Which calls keep to their lengths -/

/--
The types of a legacy query fit and one byte of them is counted, or the conditions on the
names leave no room for any.
-/
def Call.TypesSettled (call : Call) (server : Server) : Prop :=
  ∀ given ∈ call.tableType,
    if given.first = [] then
      maxCatalogQueryFilterLen ≤ (namesText (tablesCall server call.names)).length + 1
    else given.argument.TypesFit (getExtSchemaPatternMatch server call.names.schema)

/-- With the names as they are, types of the same counted bytes have one clause. -/
theorem Call.typesSettled_iff (call : Call) (server : Server) :
    call.TypesSettled server ↔
      ∃ clause, ∀ other, SameFirst call.tableType other →
        addTableTypeFilterCondition
          (clipped maxCatalogQueryFilterLen [] (namesText (tablesCall server call.names)))
          (argumentOf other) (getExtSchemaPatternMatch server call.names.schema) = some clause := by
  have inside : (clipped maxCatalogQueryFilterLen []
      (namesText (tablesCall server call.names))).length < maxCatalogQueryFilterLen :=
    clipped_length (by decide) _
  have full : maxCatalogQueryFilterLen ≤ (clipped maxCatalogQueryFilterLen []
      (namesText (tablesCall server call.names))).length + 1 ↔
        maxCatalogQueryFilterLen ≤ (namesText (tablesCall server call.names)).length + 1 := by
    rw [clipped, List.nil_append, List.length_take, List.length_nil]
    omega
  rw [types_settled_iff inside, full, Call.TypesSettled]

/-- A terminator is counted wherever a text is read up to one. -/
structure Call.Ended (call : Call) (server : Server) : Prop where
  catalog : Ends call.catalog
  schema : Ends call.schema
  table : Ends call.table
  tableType : if server.showDiscovery then Ends call.tableType else call.TypesSettled server

theorem getExtSchemaPatternMatch_reads (server : Server) {left right : Argument}
    (cbLen : left.cbLen = right.cbLen) (text : left.pVal.map cString = right.pVal.map cString) :
    getExtSchemaPatternMatch server left = getExtSchemaPatternMatch server right := by
  obtain ⟨pVal, length⟩ := left
  obtain ⟨pVal', length'⟩ := right
  cases cbLen
  cases pVal with
  | none =>
      cases pVal' with
      | none => rfl
      | some other => cases text
  | some name =>
      cases pVal' with
      | none => cases text
      | some other =>
          have same : cString name = cString other := Option.some.inj text
          simp only [getExtSchemaPatternMatch, Argument.length, same]

section

variable {call other : Call} (agrees : call.Agrees other) (catalog : Ends call.catalog)
  (schema : Ends call.schema) (table : Ends call.table) (server : Server)

theorem Ends.congr {left right : Option Given} (ends : Ends left) (same : SameFirst left right) :
    Ends right := by
  rintro given rfl
  obtain ⟨-, none⟩ | ⟨_, _, rfl, ⟨⟩, first⟩ := same.eq_none_or
  · cases none
  · exact first ▸ ends _ rfl

include agrees schema

theorem pattern_agrees : getExtSchemaPatternMatch server call.names.schema =
    getExtSchemaPatternMatch server other.names.schema :=
  getExtSchemaPatternMatch_reads server (agrees.schema.reads schema).1
    (agrees.schema.reads schema).2

include catalog table

theorem namesText_agrees :
    namesText (tablesCall server call.names) = namesText (tablesCall server other.names) := by
  have pattern := pattern_agrees agrees schema server
  have catalogs := (agrees.catalog.reads catalog).2
  have schemas := (agrees.schema.reads schema).2
  have tables := (agrees.table.reads table).2
  rw [namesText, namesText]
  simp only [tablesCall, pattern]
  simp only [Call.names, catalogs, schemas, tables]

/-- The filter of a call whose names have terminators, by its types. -/
theorem getTableFilterClause_agrees :
    getTableFilterClause (tablesCall server other.names) =
      addTableTypeFilterCondition
        (clipped maxCatalogQueryFilterLen [] (namesText (tablesCall server call.names)))
        (argumentOf other.tableType) (getExtSchemaPatternMatch server call.names.schema) := by
  rw [getTableFilterClause_ends rfl rfl rfl (catalog.congr agrees.catalog)
    (schema.congr agrees.schema) (table.congr agrees.table),
    namesText_agrees agrees catalog schema table, pattern_agrees agrees schema]
  rfl

end

/-- A name that is escaped in its buffer with a long text behind it has a terminator. -/
theorem ends_of_nameFits {long : List UInt8} (ones : 0 ∉ long) (enough : 2 ^ 16 ≤ long.length)
    {name : Option Given} (fits : (argumentOf (follow long name)).NameFits) : Ends name := by
  rintro given rfl
  by_contra noZero
  have text : cString (given.first ++ long) = given.first ++ long := by
    rw [cString_open noZero, cString_of_not_mem ones]
  have some_text : given.first ++ long ≠ [] := by
    intro none
    rw [(List.append_eq_nil_iff.mp none).2, List.length_nil] at enough
    omega
  have short := given.short
  have room := fits (given.first ++ long) rfl
  rw [text] at room
  have bound := room some_text
  change (_ : Int) < 2 * (given.followed long).argument.length _ at bound
  rw [given_length, List.length_append] at bound
  change (_ : Int) < 2 * (given.first.length : Int) at bound
  push_cast at bound
  omega

/-- With a legacy query, the names have terminators and the types are settled. -/
theorem ended_of_query {call : Call} {server : Server} (query : server.showDiscovery = false)
    {answer : TablesAnswer}
    (answers : ∀ other : Call, call.Agrees other →
      filteredTables server other.names = some answer) :
    Ends call.catalog ∧ Ends call.schema ∧ Ends call.table ∧ call.TypesSettled server := by
  have asked (other : Call) (agrees : call.Agrees other) :
      ∃ clause, getTableFilterClause (tablesCall server other.names) = some clause ∧
        .catalogQuery (getExtSchemaPatternMatch server other.names.schema) clause = answer := by
    have here := answers other agrees
    rw [filteredTables, if_neg (by rw [query]; decide)] at here
    exact Option.map_eq_some_iff.mp here
  obtain ⟨long, ones, enough⟩ : ∃ long : List UInt8, 0 ∉ long ∧ 2 ^ 16 ≤ long.length :=
    ⟨List.replicate (2 ^ 16) 1, fun member => absurd (List.eq_of_mem_replicate member) (by decide),
      List.length_replicate.ge⟩
  have fits : (tablesCall server (call.followed long).names).Fits := by
    obtain ⟨clause, found, -⟩ := asked _ (call.agrees_followed long)
    rcases settled_getTableFilterClause (tablesCall server (call.followed long).names) with
      ⟨-, fits⟩ | ⟨fails, -⟩
    · exact fits
    · rw [fails] at found
      cases found
  have catalog : Ends call.catalog := ends_of_nameFits ones enough fits.catalog
  have schema : Ends call.schema := ends_of_nameFits ones enough fits.schema
  have table : Ends call.table := ends_of_nameFits ones enough fits.table
  refine ⟨catalog, schema, table, ?_⟩
  obtain ⟨clause, -, named⟩ := asked call ⟨rfl, rfl, rfl, rfl⟩
  refine (call.typesSettled_iff server).mpr ⟨clause, fun tableType same => ?_⟩
  have agrees : call.Agrees { call with tableType } := ⟨rfl, rfl, rfl, same⟩
  obtain ⟨other, found, named'⟩ := asked _ agrees
  rw [getTableFilterClause_agrees agrees catalog schema table] at found
  rw [← named] at named'
  rw [found, (TablesAnswer.catalogQuery.inj named').2]

/-- A call whose names have terminators is answered alike, whatever follows them. -/
theorem Call.Ended.respected {call : Call} {server : Server} (ended : call.Ended server)
    (special : ¬call.Special) : call.Respected server := by
  obtain ⟨catalog, schema, table, tableType⟩ := ended
  have filtered (other : Call) (agrees : call.Agrees other) :
      rsSQLTables server other.names = filteredTables server other.names :=
    rsSQLTables_filtered (fun alike => special (agrees.symm.special alike))
      (catalog.congr agrees.catalog).blank (schema.congr agrees.schema).blank
      (table.congr agrees.table).blank server
  cases showing : server.showDiscovery with
  | true =>
      rw [if_pos showing] at tableType
      refine ⟨.showTables (nameText call.names.catalog.pVal) (nameText call.names.schema.pVal)
        (nameText call.names.table.pVal) (tablesShown call.names.tableType.pVal),
        fun other agrees => ?_⟩
      have texts {left right : Option Given} (same : SameFirst left right) (ends : Ends left) :
          nameText (argumentOf left).pVal = nameText (argumentOf right).pVal := by
        rw [nameText_eq, nameText_eq, char2String, char2String, (same.reads ends).2]
      have types : tablesShown (argumentOf call.tableType).pVal =
          tablesShown (argumentOf other.tableType).pVal := by
        funext intermediateRS
        rw [tablesShown, tablesShown, (agrees.tableType.reads tableType).2]
      rw [filtered other agrees, filteredTables, if_pos showing]
      simp only [Call.names, texts agrees.catalog catalog, texts agrees.schema schema,
        texts agrees.table table, types]
  | false =>
      rw [if_neg (by rw [showing]; decide)] at tableType
      obtain ⟨clause, answers⟩ := (call.typesSettled_iff server).mp tableType
      refine ⟨.catalogQuery (getExtSchemaPatternMatch server call.names.schema) clause,
        fun other agrees => ?_⟩
      rw [filtered other agrees, filteredTables, if_neg (by rw [showing]; decide),
        getTableFilterClause_agrees agrees catalog schema table,
        answers other.tableType agrees.tableType, Option.map_some,
        pattern_agrees agrees schema server]

/-- Lengths are respected in special calls, and elsewhere where terminators are counted. -/
theorem Call.respected_iff (call : Call) (server : Server) :
    call.Respected server ↔ call.Special ∨ call.Ended server := by
  by_cases special : call.Special
  · exact iff_of_true (special.respected server) (.inl special)
  · rw [or_iff_right special]
    refine ⟨fun respected => ?_, fun ended => ended.respected special⟩
    obtain ⟨answer, answers⟩ := respected.filtered special
    cases showing : server.showDiscovery with
    | true =>
        obtain ⟨catalog, schema, table, tableType⟩ := ends_of_showTables showing answers
        exact ⟨catalog, schema, table, by rwa [if_pos showing]⟩
    | false =>
        obtain ⟨catalog, schema, table, tableType⟩ := ended_of_query showing answers
        exact ⟨catalog, schema, table, by rwa [if_neg (by rw [showing]; decide)]⟩

def connection (showDiscovery : Bool) : Server := ⟨showDiscovery, true, false, fun _ => false⟩

/-- A call for the table `t1`, two bytes, whose name goes on in memory. -/
def namedTable (behind : String) : Call :=
  ⟨none, none, some ⟨bytes "t1", bytes behind, by decide⟩, none⟩

/-- `t1_old` with a length of two is looked for whole, or written outside of its buffer. -/
theorem respected_iff_wrong :
    (namedTable "").Agrees (namedTable "_old") ∧
      rsSQLTables (connection true) (namedTable "_old").names =
        some (.showTables [] [] (bytes "t1_old") (tablesShown none)) ∧
      rsSQLTables (connection false) (namedTable "_").names =
        some (.catalogQuery .universal (bytes " AND TABLE_NAME LIKE 't1_' ")) ∧
      rsSQLTables (connection false) (namedTable "_old").names = none ∧
      ¬(namedTable "").Respected (connection true) ∧
      ¬(namedTable "").Respected (connection false) := by
  refine ⟨⟨rfl, rfl, rfl, rfl⟩, rfl, rfl, rfl, ?_, ?_⟩
  · rintro ⟨answer, answers⟩
    have short := answers (namedTable "") ⟨rfl, rfl, rfl, rfl⟩
    have long := answers (namedTable "_old") ⟨rfl, rfl, rfl, rfl⟩
    have same := (TablesAnswer.showTables.inj (Option.some.inj (short.trans long.symm))).2.2.1
    revert same
    decide
  · rintro ⟨answer, answers⟩
    cases answers (namedTable "_old") ⟨rfl, rfl, rfl, rfl⟩

end RedshiftOdbc.Metadata.Catalog

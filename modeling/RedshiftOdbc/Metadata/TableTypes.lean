import RedshiftOdbc.Metadata.FilterClause

/-!
# Lists of table types

A list of types selects rows of the tables that SHOW TABLES has, and becomes the IN list
of a legacy query.  A list has a name in every item, bare or in quotes and with blanks
around it.  The SHOW path takes the items with their blanks.
-/

namespace RedshiftOdbc.Metadata.Catalog

open RedshiftOdbc.CText
open RedshiftOdbc.Words

/-! ## The rows of the SHOW path -/

/-- A cell that is NULL is `none`. -/
structure PgResult where
  numAttributes : Nat
  tuples : List (List (Option (List UInt8)))
  deriving DecidableEq, Repr

/-- A value of 2^31 bytes, whose length is no `int`, is not modelled. -/
def pqSetvalue (res : PgResult) (tupNum fieldNum : Nat) (value : Option (List UInt8)) :
    PgResult :=
  if res.numAttributes ≤ fieldNum ∨ res.tuples.length < tupNum then res
  else
    let tuples :=
      if tupNum = res.tuples.length then
        res.tuples ++ [List.replicate res.numAttributes none]
      else res.tuples
    { res with tuples := tuples.modify tupNum fun tup => tup.set fieldNum value }

structure ShowTablesResult where
  databaseName : Option (List UInt8)
  schemaName : Option (List UInt8)
  tableName : Option (List UInt8)
  tableType : Option (List UInt8)
  remarks : Option (List UInt8)
  owner : Option (List UInt8)
  lastAlteredTime : Option (List UInt8)
  lastModifiedTime : Option (List UInt8)
  distStyle : Option (List UInt8)
  tableSubtype : Option (List UInt8)
  deriving DecidableEq, Repr

/-- The fields in the order of the columns they are set in. -/
def ShowTablesResult.columns (row : ShowTablesResult) : List (Option (List UInt8)) :=
  [row.databaseName, row.schemaName, row.tableName, row.tableType, row.remarks, row.owner,
    row.lastAlteredTime, row.lastModifiedTime, row.distStyle, row.tableSubtype]

def kTablesColNum : Nat := 10

def setRow (res : PgResult) (finalRowNum : Nat) (row : ShowTablesResult) : PgResult :=
  row.columns.zipIdx.foldl
    (fun res column => pqSetvalue res finalRowNum column.2 column.1) res

/-- The pieces that `std::getline` reads; behind a comma at the end it reads none. -/
def getlines (text : List UInt8) : List (List UInt8) :=
  let pieces := text.splitOn 44
  if pieces.getLast? = some [] then pieces.dropLast else pieces

/-- Of an item with a quote the first and the last byte are taken off. -/
def listedType (temp : List UInt8) : List UInt8 :=
  if 39 ∈ temp then (temp.drop 1).take (temp.length - 2) else temp

def typeSet (tableType : List UInt8) : List (List UInt8) := (getlines tableType).map listedType

/-- A type that is NULL is looked up as the empty text. -/
def keepsRow (tableType : List UInt8) (row : ShowTablesResult) : Bool :=
  tableType.isEmpty || (typeSet tableType).contains (row.tableType.getD [])

structure ResultInfo where
  pgResult : PgResult
  iNumberOfRowsInMem : Nat
  iCurRow : Int
  deriving DecidableEq, Repr

def keepRows (tableType : List UInt8) (kept : PgResult × Nat) :
    List ShowTablesResult → PgResult × Nat
  | [] => kept
  | row :: intermediateRS =>
      if keepsRow tableType row then
        keepRows tableType (setRow kept.1 kept.2 row, kept.2 + 1) intermediateRS
      else keepRows tableType kept intermediateRS

/-- A list of 2^31 rows, whose size is no `int`, is not modelled. -/
def libpqCreateSQLTablesCustomizedResultSet (result : ResultInfo) (columnNum : Nat)
    (tableType : List UInt8) (intermediateRS : List ShowTablesResult) : ResultInfo :=
  let res := { result.pgResult with numAttributes := columnNum }
  if intermediateRS = [] then ⟨res, 0, -1⟩
  else
    let kept := keepRows tableType (res, 0) intermediateRS
    ⟨kept.1, kept.2, -1⟩

/-- The result that is filled is an empty one. -/
def sqlTablesPostProcessing (pTableType : List UInt8)
    (intermediateRS : List ShowTablesResult) : ResultInfo :=
  libpqCreateSQLTablesCustomizedResultSet ⟨⟨kTablesColNum, []⟩, 0, -1⟩ kTablesColNum pTableType
    intermediateRS

/-- The rows that the SHOW path answers with for an argument with the types. -/
def tablesShown (pTableType : Option (List UInt8)) (intermediateRS : List ShowTablesResult) :
    ResultInfo :=
  sqlTablesPostProcessing ((pTableType.map cString).getD []) intermediateRS

/-! ## Filling the result -/

theorem pqSetvalue_last (front : List (List (Option (List UInt8))))
    (tup : List (Option (List UInt8))) {columnNum fieldNum : Nat} (known : fieldNum < columnNum)
    (value : Option (List UInt8)) :
    pqSetvalue ⟨columnNum, front ++ [tup]⟩ front.length fieldNum value =
      ⟨columnNum, front ++ [tup.set fieldNum value]⟩ := by
  rw [pqSetvalue, if_neg (by simp [known])]
  simp [List.modify_eq_take_drop]

theorem pqSetvalue_new (front : List (List (Option (List UInt8)))) {columnNum fieldNum : Nat}
    (known : fieldNum < columnNum) (value : Option (List UInt8)) :
    pqSetvalue ⟨columnNum, front⟩ front.length fieldNum value =
      ⟨columnNum, front ++ [(List.replicate columnNum none).set fieldNum value]⟩ := by
  rw [pqSetvalue, if_neg (by simp [known])]
  simp [List.modify_eq_take_drop]

/-- A row is set behind the rows there are, each of its fields in its column. -/
theorem setRow_eq (front : List (List (Option (List UInt8)))) (row : ShowTablesResult) :
    setRow ⟨kTablesColNum, front⟩ front.length row =
      ⟨kTablesColNum, front ++ [row.columns]⟩ := by
  simp only [setRow, ShowTablesResult.columns, List.zipIdx_cons, List.zipIdx_nil, List.foldl_cons,
    List.foldl_nil]
  rw [pqSetvalue_new front (by decide)]
  iterate 9 rw [pqSetvalue_last front _ (by decide)]
  rfl

theorem keepRows_eq (tableType : List UInt8) (front : List (List (Option (List UInt8))))
    (intermediateRS : List ShowTablesResult) :
    keepRows tableType (⟨kTablesColNum, front⟩, front.length) intermediateRS =
      (⟨kTablesColNum, front ++
          (intermediateRS.filter (keepsRow tableType)).map ShowTablesResult.columns⟩,
        front.length + (intermediateRS.filter (keepsRow tableType)).length) := by
  induction intermediateRS generalizing front with
  | nil => simp [keepRows]
  | cons row intermediateRS ih =>
      rw [keepRows]
      by_cases keeps : keepsRow tableType row = true
      · have added := ih (front ++ [row.columns])
        rw [List.length_append, List.length_singleton] at added
        rw [if_pos keeps, setRow_eq, added, List.filter_cons_of_pos keeps, List.map_cons,
          List.append_assoc, List.length_cons, Nat.add_assoc, Nat.add_comm 1]
        rfl
      · rw [if_neg keeps, ih, List.filter_cons_of_neg keeps]

theorem sqlTablesPostProcessing_eq (pTableType : List UInt8)
    (intermediateRS : List ShowTablesResult) :
    sqlTablesPostProcessing pTableType intermediateRS =
      ⟨⟨kTablesColNum,
          (intermediateRS.filter (keepsRow pTableType)).map ShowTablesResult.columns⟩,
        (intermediateRS.filter (keepsRow pTableType)).length, -1⟩ := by
  rw [sqlTablesPostProcessing, libpqCreateSQLTablesCustomizedResultSet]
  cases intermediateRS with
  | nil => rfl
  | cons row intermediateRS =>
      have filled := keepRows_eq pTableType [] (row :: intermediateRS)
      rw [List.length_nil, Nat.zero_add, List.nil_append] at filled
      rw [if_neg (List.cons_ne_nil _ _)]
      dsimp only
      rw [filled]

/-! ## Lists as they are written -/

/-- A name of a list, bare or in quotes, with the blanks around it. -/
structure Item where
  before : List UInt8
  quoted : Bool
  name : List UInt8
  behind : List UInt8
  blank_before : ∀ byte ∈ before, isSpace byte = true
  blank_behind : ∀ byte ∈ behind, isSpace byte = true
  some_name : name ≠ []
  /-- No terminator, quote or comma. -/
  plain : ∀ byte ∈ name, byte ≠ 0 ∧ byte ≠ 39 ∧ byte ≠ 44
  /-- A name begins and ends with no blank. -/
  first_shown : ∀ byte ∈ name.head?, isSpace byte = false
  last_shown : ∀ byte ∈ name.getLast?, isSpace byte = false

namespace Item

def written (item : Item) : List UInt8 :=
  if item.quoted then 39 :: (item.name ++ [39]) else item.name

def text (item : Item) : List UInt8 := item.before ++ (item.written ++ item.behind)

end Item

def names (items : List Item) : List (List UInt8) := items.map Item.name

def listText (items : List Item) : List UInt8 := [44].intercalate (items.map Item.text)

namespace Item

variable (item : Item)

theorem blank_plain {byte : UInt8} (blank : isSpace byte = true) :
    byte ≠ 0 ∧ byte ≠ 39 ∧ byte ≠ 44 := by
  refine ⟨?_, ?_, ?_⟩ <;> rintro rfl <;> exact absurd blank (by decide)

theorem written_plain : ∀ byte ∈ item.written, byte ≠ 0 ∧ byte ≠ 44 := by
  intro byte member
  have known : byte = 39 ∨ byte ∈ item.name := by
    rw [written] at member
    split_ifs at member
    · simpa [or_comm, or_left_comm] using member
    · exact .inr member
  rcases known with rfl | member
  · decide
  · exact ⟨(item.plain byte member).1, (item.plain byte member).2.2⟩

theorem text_plain : ∀ byte ∈ item.text, byte ≠ 0 ∧ byte ≠ 44 := by
  intro byte member
  rw [text, List.mem_append, List.mem_append] at member
  rcases member with blank | member | blank
  · have plain := blank_plain (item.blank_before byte blank)
    exact ⟨plain.1, plain.2.2⟩
  · exact item.written_plain byte member
  · have plain := blank_plain (item.blank_behind byte blank)
    exact ⟨plain.1, plain.2.2⟩

end Item

section

variable (items : List Item)

end

/-! ## What the SHOW path selects -/

/-- The rows whose type is in the list, in their order, and as many as the result counts. -/
structure ShownExactly (names : List (List UInt8)) (intermediateRS : List ShowTablesResult)
    (result : ResultInfo) : Prop where
  rows : result.pgResult.tuples =
    (intermediateRS.filter fun row => row.tableType ∈ names.map some).map ShowTablesResult.columns
  count : result.iNumberOfRowsInMem =
    (intermediateRS.filter fun row => row.tableType ∈ names.map some).length

/-- A row of which only the type is known. -/
def ShowTablesResult.typed (tableType : Option (List UInt8)) : ShowTablesResult :=
  ⟨none, none, none, tableType, none, none, none, none, none, none⟩

/-- The names of a list in quotes, up to the bracket behind them. -/
def listed (first : Bool) : List (List UInt8) → List UInt8
  | [] => bytes " ) "
  | name :: rest =>
      (if first then [] else bytes ", ") ++ 39 :: (doubled name ++ 39 :: listed false rest)

def inList (names : List (List UInt8)) : List UInt8 :=
  bytes " AND TABLE_TYPE IN ( " ++ listed true names

/-- Behind the clause there was stands a list that has exactly the names. -/
def ListsExactly (filterClause : List UInt8) (names : List (List UInt8))
    (result : Option (List UInt8)) : Prop :=
  ∃ found, result = some (filterClause ++ inList found) ∧ ∀ name, name ∈ found ↔ name ∈ names

theorem clipped_clipped (capacity : Nat) (text added more : List UInt8) :
    clipped capacity (clipped capacity text added) more =
      clipped capacity text (added ++ more) := by
  rw [clipped, clipped, clipped, List.append_assoc, List.take_append, List.length_append,
    List.length_take]
  congr 3
  omega

theorem clipped_nil (capacity : Nat) (text : List UInt8) : clipped capacity text [] = text := by
  rw [clipped, List.take_nil, List.append_nil]

/-- A list as an argument with a terminator, with its length or without. -/
def listArgument (items : List Item) (explicit : Bool) : Argument :=
  ⟨some (listText items ++ [0]), if explicit then (listText items).length else sqlNts⟩

/--
The SHOW path answers with exactly the rows of the listed types, and the IN list of a
legacy query has exactly their names.
-/
structure Exact (items : List Item) (explicit : Bool) (filterClause : List UInt8)
    (schemaPatternType : SchemaPatternType) : Prop where
  shown : ∀ intermediateRS, ShownExactly (names items) intermediateRS
    (tablesShown (listArgument items explicit).pVal intermediateRS)
  listed : schemaPatternType ≠ .local_ →
    ListsExactly filterClause (names items)
      (addTableTypeFilterCondition filterClause (listArgument items explicit) schemaPatternType)

end RedshiftOdbc.Metadata.Catalog

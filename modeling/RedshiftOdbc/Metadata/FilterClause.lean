import RedshiftOdbc.Library.CText
import RedshiftOdbc.Library.Words

/-!
# The filter clause of a catalog query

The names and the table types of a call are put into a clause of fixed size by way of
buffers that are allocated from the lengths of the call.  A write outside of a buffer and
a read behind the end of one are `none`.
-/

namespace RedshiftOdbc.Metadata.Catalog

open RedshiftOdbc.CText
open RedshiftOdbc.Words

def maxTempBufLen : Nat := 256

def maxLargeTempBufLen : Nat := 1024

def maxCatalogQueryFilterLen : Nat := 4 * 1024

def sqlNts : Int := -3

def doubled : List UInt8 → List UInt8
  | [] => []
  | byte :: rest => if byte = 39 then 39 :: byte :: doubled rest else byte :: doubled rest

/-- The bytes that were allocated; the terminator is one of the zeros that are left. -/
def escapedFilterCondition (pName : List UInt8) (cbName : Int) : Option (List UInt8) :=
  if cbName < 0 then none
  else store (List.replicate (cbName * 2).toNat 0) 0 (doubled (cString pName))

/-- What is read of a buffer up to a terminator. -/
def terminated (buffer : List UInt8) : Option (List UInt8) :=
  if 0 ∈ buffer then some (cString buffer) else none

/-- `snprintf` behind the text of a buffer. -/
def printBehind (capacity : Nat) (text added : List UInt8) : Option (List UInt8) :=
  let size : Int := capacity - text.length
  if size = 0 then some text
  else
    let kept := if size < 0 then added else added.take (size - 1).toNat
    if text.length + kept.length < capacity then some (text ++ kept) else none

/-- `rs_strncat`, which is given the room that is left with the terminator. -/
def catBehind (capacity : Nat) (text added : List UInt8) : Option (List UInt8) :=
  let kept := added.take (unsigned 8 (unsigned 8 (capacity - text.length) - 1))
  if text.length + kept.length < capacity then some (text ++ kept) else none

/-- `%.*s`; a negative precision is none. -/
def cut (precision : Int) (text : List UInt8) : List UInt8 :=
  if precision < 0 then text else text.take precision.toNat

structure Argument where
  pVal : Option (List UInt8)
  cbLen : Int
  deriving DecidableEq, Repr

/-- The length as a short, of a terminated name that of its text. -/
def Argument.length (argument : Argument) (pVal : List UInt8) : Int :=
  if argument.cbLen = sqlNts then wrap 2 (cString pVal).length else argument.cbLen

/-- The name between quotes, as far as its length as a short tells. -/
def literal (pEscapedName : List UInt8) : List UInt8 :=
  39 :: (cut (wrap 2 pEscapedName.length) pEscapedName ++ bytes "' ")

def addLikeOrEqualFilterCondition (iMetaDataId : Bool) (filterClause pFilterColumn : List UInt8)
    (argument : Argument) : Option (List UInt8) :=
  match argument.pVal with
  | none => some filterClause
  | some pVal =>
      if cString pVal = [] then some filterClause
      else
        match (escapedFilterCondition pVal (argument.length pVal)).bind terminated with
        | none => none
        | some pEscapedName =>
            printBehind maxCatalogQueryFilterLen filterClause
              (bytes " AND " ++ pFilterColumn ++ (if iMetaDataId then bytes " = " else bytes " LIKE ") ++
                literal pEscapedName)

/-- The database that is compared: that of the connection, or the one of a column. -/
def databaseText (connected : Bool) (databaseColName : Option (List UInt8)) : List UInt8 :=
  if connected then bytes " AND current_database() LIKE  "
  else bytes " AND " ++ databaseColName.getD (bytes "database_name") ++ bytes " LIKE "

def getCatalogFilterCondition (bufLen : Nat) (connected : Bool)
    (databaseColName : Option (List UInt8)) (argument : Argument) : Option (List UInt8) :=
  match argument.pVal with
  | none => some []
  | some pVal =>
      if cString pVal = [] then some []
      else
        match (escapedFilterCondition pVal (argument.length pVal)).bind terminated with
        | none => none
        | some pEscapedName =>
            printBehind bufLen [] (databaseText connected databaseColName ++ literal pEscapedName)

/-! ## Table types -/

/-- `LOCAL_SCHEMA_QUERY`, `NO_SCHEMA_UNIVERSAL_QUERY` and `EXTERNAL_SCHEMA_QUERY`. -/
inductive SchemaPatternType where
  | local_
  | universal
  | external
  deriving DecidableEq, Repr

/-- The conditions on the catalog tables for the names of table types. -/
def localConditions : List (List UInt8 × List UInt8) :=
  [(bytes "TABLE",
      bytes " OR ( c.relkind = 'r' AND n.nspname !~ '^pg_' AND n.nspname <> 'information_schema' ) "),
    (bytes "VIEW",
      bytes " OR ( c.relkind = 'v' AND n.nspname <> 'pg_catalog' AND n.nspname <> 'information_schema' ) "),
    (bytes "SYSTEM TABLE",
      bytes " OR ( c.relkind = 'r' AND (n.nspname = 'pg_catalog' OR n.nspname = 'information_schema') ) "),
    (bytes "SYSTEM VIEW",
      bytes " OR ( c.relkind = 'v' AND (n.nspname = 'pg_catalog' OR n.nspname = 'information_schema') ) "),
    (bytes "SYSTEM TOAST TABLE", bytes " OR ( c.relkind = 'r' AND n.nspname = 'pg_toast' ) "),
    (bytes "TEMPORARY TABLE", bytes " OR ( c.relkind = 'r' AND n.nspname ~ '^pg_temp_' ) "),
    (bytes "TEMPORARY VIEW", bytes " OR ( c.relkind = 'v' AND n.nspname ~ '^pg_temp_' ) ")]

/-- The condition of a type, which may be quoted. -/
def localCondition (pToken : List UInt8) : Option (List UInt8) :=
  (localConditions.find? fun condition =>
    sameText pToken condition.1 || sameText pToken (39 :: (condition.1 ++ [39]))).map (·.2)

/-- `strtok` with a comma. -/
def tokens (tempBuf : List UInt8) : List (List UInt8) :=
  (tempBuf.splitOn 44).filter (· ≠ [])

/-- A quote in front is passed over and the last byte of the token overwritten. -/
def unquote (pToken : List UInt8) : Option (List UInt8) :=
  match pToken with
  | 39 :: rest => (store pToken rest.length [0]).map fun stored => cString stored.tail
  | _ => some pToken

def addLocalTypes (filterClause : List UInt8) : List (List UInt8) → Option (List UInt8)
  | [] => some filterClause
  | pToken :: rest =>
      match localCondition (trim pToken) with
      | none => addLocalTypes filterClause rest
      | some condition =>
          (catBehind maxCatalogQueryFilterLen filterClause condition).bind fun filterClause =>
            addLocalTypes filterClause rest

/-- The comma in front of every type but the first. -/
def separate (first : Bool) (filterClause : List UInt8) : Option (List UInt8) :=
  if first then some filterClause
  else catBehind maxCatalogQueryFilterLen filterClause (bytes ", ")

def addListedTypes (first : Bool) (filterClause : List UInt8) :
    List (List UInt8) → Option (List UInt8)
  | [] => some filterClause
  | pToken :: rest => do
      let filterClause ← separate first filterClause
      let pToken ← unquote (trim pToken)
      let pEscapedName ← (escapedFilterCondition pToken (wrap 2 pToken.length)).bind terminated
      let filterClause ← printBehind maxCatalogQueryFilterLen filterClause
        (39 :: (pEscapedName ++ [39]))
      addListedTypes false filterClause rest

def addTableTypeFilterCondition (filterClause : List UInt8) (argument : Argument)
    (schemaPatternType : SchemaPatternType) : Option (List UInt8) :=
  match argument.pVal with
  | none => some filterClause
  | some pVal =>
      if cString pVal = [] then some filterClause
      else
        let len : Int := if argument.cbLen = sqlNts then (cString pVal).length else argument.cbLen
        -- A negative length is a huge one for `strncpy`.
        if len < 0 ∨ maxTempBufLen ≤ len then none
        else
          let list := tokens ((cString pVal).take len.toNat)
          match schemaPatternType with
          | .local_ => do
              let filterClause ← catBehind maxCatalogQueryFilterLen filterClause
                (bytes " AND (false ")
              let filterClause ← addLocalTypes filterClause list
              catBehind maxCatalogQueryFilterLen filterClause (bytes " ) ")
          | _ => do
              let filterClause ← catBehind maxCatalogQueryFilterLen filterClause
                (bytes " AND TABLE_TYPE IN ( ")
              let filterClause ← addListedTypes true filterClause list
              catBehind maxCatalogQueryFilterLen filterClause (bytes " ) ")

/-- The arguments of a call of `SQLTables` and what the query depends on. -/
structure TablesCall where
  iMetaDataId : Bool
  /-- Only the database of the connection is looked at. -/
  connected : Bool
  databaseColName : Option (List UInt8)
  schemaPatternType : SchemaPatternType
  catalog : Argument
  schema : Argument
  table : Argument
  tableType : Argument
  deriving DecidableEq, Repr

def getTableFilterClause (call : TablesCall) : Option (List UInt8) := do
  let catalogFilter ← getCatalogFilterCondition maxLargeTempBufLen call.connected
    call.databaseColName call.catalog
  let filterClause ← printBehind maxCatalogQueryFilterLen [] catalogFilter
  let filterClause ← addLikeOrEqualFilterCondition call.iMetaDataId filterClause
    (bytes "TABLE_SCHEM") call.schema
  let filterClause ← addLikeOrEqualFilterCondition call.iMetaDataId filterClause
    (bytes "TABLE_NAME") call.table
  addTableTypeFilterCondition filterClause call.tableType call.schemaPatternType

/-! ## Names in their buffers -/

theorem doubled_length (text : List UInt8) :
    (doubled text).length = text.length + text.count 39 := by
  induction text with
  | nil => rfl
  | cons byte text ih =>
      rw [doubled]
      split_ifs with quote
      · rw [quote, List.count_cons_self, List.length_cons, List.length_cons, List.length_cons, ih]
        omega
      · rw [List.count_cons_of_ne quote, List.length_cons, List.length_cons, ih]
        omega

theorem zero_not_mem_doubled {text : List UInt8} (noZero : (0 : UInt8) ∉ text) :
    (0 : UInt8) ∉ doubled text := by
  induction text with
  | nil => exact List.not_mem_nil
  | cons byte text ih =>
      rw [List.mem_cons, not_or] at noZero
      rw [doubled]
      split_ifs with quote
      · simp [quote, ih noZero.2]
      · simp [noZero.1, ih noZero.2]

/-- The escaped name is terminated where the allocation has room for it and a zero. -/
theorem escaped_terminated (pName : List UInt8) (cbName : Int) :
    (escapedFilterCondition pName cbName).bind terminated =
      if ((doubled (cString pName)).length : Int) < cbName * 2 then some (doubled (cString pName))
      else none := by
  have noZero := zero_not_mem_doubled (zero_not_mem_cString pName)
  rw [escapedFilterCondition]
  by_cases negative : cbName < 0
  · rw [if_pos negative, if_neg (by omega)]
    rfl
  · rw [if_neg negative, store]
    obtain ⟨size, same⟩ : ∃ size : Nat, cbName * 2 = size :=
      ⟨(cbName * 2).toNat, by omega⟩
    rw [same, Int.toNat_natCast, List.length_replicate, Nat.zero_add]
    by_cases room : (doubled (cString pName)).length ≤ size
    · rw [if_pos room, Option.bind_some, List.take_zero, List.nil_append, List.drop_replicate]
      by_cases ends : (doubled (cString pName)).length < size
      · obtain ⟨more, left⟩ : ∃ more, size - (doubled (cString pName)).length = more + 1 :=
          ⟨size - (doubled (cString pName)).length - 1, by omega⟩
        rw [left, List.replicate_succ, terminated, if_pos (by simp), cString_append_zero noZero,
          if_pos (by omega)]
      · rw [Nat.sub_eq_zero_of_le (by omega), List.replicate_zero, List.append_nil, terminated,
          if_neg noZero, if_neg (by omega)]
    · rw [if_neg room, if_neg (by omega)]
      rfl

/-! ## The clause in its buffer -/

/-- What fits behind a text with its terminator. -/
def clipped (capacity : Nat) (text added : List UInt8) : List UInt8 :=
  text ++ added.take (capacity - 1 - text.length)

section

variable {capacity : Nat} {text : List UInt8} (inside : text.length < capacity)

include inside

theorem clipped_length (added : List UInt8) : (clipped capacity text added).length < capacity := by
  rw [clipped, List.length_append, List.length_take]
  omega

theorem printBehind_eq (added : List UInt8) :
    printBehind capacity text added = some (clipped capacity text added) := by
  have room : ((capacity : Int) - text.length - 1).toNat = capacity - 1 - text.length := by omega
  have some_room : ¬(capacity : Int) - text.length = 0 := by omega
  have no_overflow : ¬(capacity : Int) - text.length < 0 := by omega
  rw [printBehind]
  dsimp only
  rw [if_neg some_room, if_neg no_overflow, room, ← List.length_append, ← clipped,
    if_pos (clipped_length inside added)]

theorem catBehind_eq (word : capacity < 256 ^ 8) (added : List UInt8) :
    catBehind capacity text added = some (clipped capacity text added) := by
  have first : (capacity : Int) - text.length = (capacity - text.length : Nat) := by omega
  have second : ((capacity - text.length : Nat) : Int) - 1 = (capacity - 1 - text.length : Nat) := by
    omega
  rw [catBehind, first, unsigned_natCast (by omega), second, unsigned_natCast (by omega),
    ← List.length_append, ← clipped, if_pos (clipped_length inside added)]

end

/-! ## Every call -/

/-- A name is shorter, its quotes doubled, than twice the length that comes with it. -/
def Argument.NameFits (argument : Argument) : Prop :=
  ∀ pVal ∈ argument.pVal, cString pVal ≠ [] →
    ((cString pVal).length + (cString pVal).count 39 : Int) < 2 * argument.length pVal

/-- The type that is left of an item of the list. -/
def bare (pToken : List UInt8) : List UInt8 :=
  match pToken with
  | 39 :: rest => cString rest.dropLast
  | _ => pToken

/-- How many bytes of the list of types are copied. -/
def Argument.copied (argument : Argument) (pVal : List UInt8) : Int :=
  if argument.cbLen = sqlNts then (cString pVal).length else argument.cbLen

/-- The list of types fits its buffer, and of a listed type more than quotes is left. -/
def Argument.TypesFit (argument : Argument) (schemaPatternType : SchemaPatternType) : Prop :=
  ∀ pVal ∈ argument.pVal, cString pVal ≠ [] →
    0 ≤ argument.copied pVal ∧ argument.copied pVal < maxTempBufLen ∧
      (schemaPatternType ≠ .local_ →
        ∀ pToken ∈ tokens ((cString pVal).take (argument.copied pVal).toNat),
          ∃ byte ∈ bare (trim pToken), byte ≠ 39)

theorem name_fits_iff {pVal : List UInt8} {argument : Argument} :
    ((doubled (cString pVal)).length : Int) < argument.length pVal * 2 ↔
      ((cString pVal).length + (cString pVal).count 39 : Int) < 2 * argument.length pVal := by
  rw [doubled_length]
  push_cast
  rw [Int.mul_comm]

/-- A clause that stays inside of its buffer where a condition holds, and else none. -/
def Settled (result : Option (List UInt8)) (fits : Prop) : Prop :=
  (∃ clause, result = some clause ∧ clause.length < maxCatalogQueryFilterLen) ∧ fits ∨
    result = none ∧ ¬fits

theorem Settled.kept {clause : List UInt8} {fits : Prop}
    (inside : clause.length < maxCatalogQueryFilterLen) (holds : fits) :
    Settled (some clause) fits := Or.inl ⟨⟨clause, rfl, inside⟩, holds⟩

theorem Settled.bind {result : Option (List UInt8)} {next : List UInt8 → Option (List UInt8)}
    {fits later : Prop} (first : Settled result fits)
    (behind : ∀ clause, clause.length < maxCatalogQueryFilterLen → Settled (next clause) later) :
    Settled (result.bind next) (fits ∧ later) := by
  rcases first with ⟨⟨clause, rfl, inside⟩, holds⟩ | ⟨rfl, fails⟩
  · rw [Option.bind_some, and_iff_right holds]
    exact behind clause inside
  · exact Or.inr ⟨rfl, fun both => fails both.1⟩

theorem Settled.iff {result : Option (List UInt8)} {fits : Prop} (settled : Settled result fits) :
    (∃ clause, result = some clause ∧ clause.length < maxCatalogQueryFilterLen) ↔ fits := by
  rcases settled with ⟨found, holds⟩ | ⟨rfl, fails⟩
  · exact iff_of_true found holds
  · exact iff_of_false (by simp) fails

theorem Settled.congr {result : Option (List UInt8)} {fits other : Prop}
    (settled : Settled result fits) (same : fits ↔ other) : Settled result other := by
  rwa [← propext same]

theorem settled_print {text : List UInt8} (inside : text.length < maxCatalogQueryFilterLen)
    (added : List UInt8) : Settled (printBehind maxCatalogQueryFilterLen text added) True := by
  rw [printBehind_eq inside]
  exact Settled.kept (clipped_length inside _) trivial

theorem settled_cat {text : List UInt8} (inside : text.length < maxCatalogQueryFilterLen)
    (added : List UInt8) : Settled (catBehind maxCatalogQueryFilterLen text added) True := by
  rw [catBehind_eq inside (by decide)]
  exact Settled.kept (clipped_length inside _) trivial

theorem settled_addLikeOrEqual {filterClause : List UInt8}
    (inside : filterClause.length < maxCatalogQueryFilterLen) (iMetaDataId : Bool)
    (pFilterColumn : List UInt8) (argument : Argument) :
    Settled (addLikeOrEqualFilterCondition iMetaDataId filterClause pFilterColumn argument)
      argument.NameFits := by
  rw [addLikeOrEqualFilterCondition.eq_def, Argument.NameFits]
  cases argument.pVal with
  | none => exact Settled.kept inside nofun
  | some pVal =>
      simp only [Option.mem_some_iff, forall_eq']
      by_cases empty : cString pVal = []
      · rw [if_pos empty]
        exact Settled.kept inside fun some_text => absurd empty some_text
      · rw [if_neg empty, escaped_terminated, forall_prop_of_true empty, ← name_fits_iff]
        by_cases fits : ((doubled (cString pVal)).length : Int) < argument.length pVal * 2
        · rw [if_pos fits]
          exact (settled_print inside _).congr (iff_of_true trivial fits)
        · rw [if_neg fits]
          exact Or.inr ⟨rfl, fits⟩

/-- The filter of the catalog is shorter than the clause. -/
theorem settled_getCatalog (connected : Bool) (databaseColName : Option (List UInt8))
    (argument : Argument) :
    Settled (getCatalogFilterCondition maxLargeTempBufLen connected databaseColName argument)
      argument.NameFits := by
  have empty_inside : ([] : List UInt8).length < maxLargeTempBufLen := by decide
  rw [getCatalogFilterCondition.eq_def, Argument.NameFits]
  cases argument.pVal with
  | none => exact Settled.kept (by decide) nofun
  | some pVal =>
      simp only [Option.mem_some_iff, forall_eq']
      by_cases empty : cString pVal = []
      · rw [if_pos empty]
        exact Settled.kept (by decide) fun some_text => absurd empty some_text
      · rw [if_neg empty, escaped_terminated, forall_prop_of_true empty, ← name_fits_iff]
        by_cases fits : ((doubled (cString pVal)).length : Int) < argument.length pVal * 2
        · rw [if_pos fits]
          dsimp only
          rw [printBehind_eq empty_inside]
          exact Settled.kept ((clipped_length empty_inside _).trans (by decide)) fits
        · rw [if_neg fits]
          exact Or.inr ⟨rfl, fits⟩

theorem unquote_eq (pToken : List UInt8) : unquote pToken = some (bare pToken) := by
  rw [unquote.eq_def, bare.eq_def]
  split
  · next rest =>
      rw [store, if_pos (by simp), Option.map_some, ← cString_concat_zero rest.dropLast]
      cases rest with
      | nil => rfl
      | cons byte rest => simp [List.dropLast_eq_take]
  · rfl

theorem settled_addLocal {filterClause : List UInt8}
    (inside : filterClause.length < maxCatalogQueryFilterLen) (list : List (List UInt8)) :
    Settled (addLocalTypes filterClause list) True := by
  induction list generalizing filterClause with
  | nil => exact Settled.kept inside trivial
  | cons pToken rest ih =>
      rw [addLocalTypes]
      cases localCondition (trim pToken) with
      | none => exact ih inside
      | some condition =>
          exact ((settled_cat inside condition).bind fun _ inside => ih inside).congr
            (and_self_iff)

theorem trim_length (text : List UInt8) : (trim text).length ≤ text.length :=
  (List.rdropWhile_prefix _ _).length_le.trans (List.dropWhile_sublist _).length_le

theorem bare_length (pToken : List UInt8) : (bare pToken).length ≤ pToken.length := by
  rw [bare.eq_def]
  split
  · next rest =>
      have kept := (@List.takeWhile_sublist _ rest.dropLast
        (fun byte => decide (byte ≠ 0))).length_le
      rw [List.length_dropLast] at kept
      rw [cString, List.length_cons]
      omega
  · exact le_rfl

/-- An item of which more than quotes is left has room for its escaped text. -/
theorem item_fits_iff {pToken : List UInt8} (short : pToken.length < maxTempBufLen)
    (noZero : (0 : UInt8) ∉ bare (trim pToken)) :
    ((doubled (cString (bare (trim pToken)))).length : Int) <
        wrap 2 (bare (trim pToken)).length * 2 ↔
      ∃ byte ∈ bare (trim pToken), byte ≠ 39 := by
  have length := (bare_length (trim pToken)).trans (trim_length pToken)
  have range : wrap 2 (bare (trim pToken)).length = (bare (trim pToken)).length := by
    refine wrap_of_range ?_ ?_
    all_goals simp only [maxTempBufLen] at short; push_cast; omega
  have quotes := @List.count_le_length UInt8 _ 39 (bare (trim pToken))
  have all : (bare (trim pToken)).count 39 = (bare (trim pToken)).length ↔
      ∀ byte ∈ bare (trim pToken), 39 = byte := List.count_eq_length
  rw [cString_of_not_mem noZero, range, doubled_length]
  constructor
  · intro room
    by_contra none_other
    push Not at none_other
    have full := all.mpr fun byte member => (none_other byte member).symm
    omega
  · rintro ⟨byte, member, other⟩
    have fewer : (bare (trim pToken)).count 39 ≠ (bare (trim pToken)).length := fun same =>
      other (all.mp same byte member).symm
    omega

theorem settled_addListed {filterClause : List UInt8}
    (inside : filterClause.length < maxCatalogQueryFilterLen) (first : Bool)
    {list : List (List UInt8)} (short : ∀ pToken ∈ list, pToken.length < maxTempBufLen)
    (noZero : ∀ pToken ∈ list, (0 : UInt8) ∉ bare (trim pToken)) :
    Settled (addListedTypes first filterClause list)
      (∀ pToken ∈ list, ∃ byte ∈ bare (trim pToken), byte ≠ 39) := by
  induction list generalizing filterClause first with
  | nil => exact Settled.kept inside nofun
  | cons pToken rest ih =>
      obtain ⟨short_item, short⟩ := List.forall_mem_cons.mp short
      obtain ⟨noZero_item, noZero⟩ := List.forall_mem_cons.mp noZero
      have separated : Settled (separate first filterClause) True := by
        cases first with
        | true => exact Settled.kept inside trivial
        | false => exact settled_cat inside _
      rw [addListedTypes, List.forall_mem_cons, ← true_and (_ ∧ _)]
      refine separated.bind fun clause inside => ?_
      rw [unquote_eq]
      change Settled (((escapedFilterCondition (bare (trim pToken))
        (wrap 2 (bare (trim pToken)).length)).bind terminated).bind _) _
      rw [escaped_terminated]
      by_cases fits : ((doubled (cString (bare (trim pToken)))).length : Int) <
          wrap 2 (bare (trim pToken)).length * 2
      · rw [if_pos fits, and_iff_right ((item_fits_iff short_item noZero_item).mp fits)]
        exact ((settled_print inside _).bind fun _ inside => ih inside false short noZero).congr
          (iff_of_eq (true_and _))
      · rw [if_neg fits]
        exact Or.inr ⟨rfl, fun both =>
          fits ((item_fits_iff short_item noZero_item).mpr both.1)⟩

theorem splitOn_sublist {text piece : List UInt8} (member : piece ∈ text.splitOn 44) :
    List.Sublist piece text := by
  induction text generalizing piece with
  | nil =>
      rw [List.splitOn_nil, List.mem_singleton] at member
      rw [member]
  | cons byte text ih =>
      rw [List.splitOn_cons_eq_if_modifyHead] at member
      split_ifs at member with comma
      · rcases List.mem_cons.mp member with rfl | later
        · exact List.nil_sublist _
        · exact (ih later).cons _
      · cases pieces : text.splitOn 44 with
        | nil => exact absurd pieces (List.splitOn_ne_nil _ _)
        | cons first rest =>
            rw [pieces] at member ih
            rcases List.mem_cons.mp member with rfl | later
            · exact (ih List.mem_cons_self).cons_cons _
            · exact (ih (List.mem_cons_of_mem _ later)).cons _

theorem tokens_sublist {text pToken : List UInt8} (member : pToken ∈ tokens text) :
    List.Sublist pToken text := splitOn_sublist (List.mem_filter.mp member).1

theorem bare_subset (pToken : List UInt8) : ∀ byte ∈ bare pToken, byte ∈ pToken := by
  intro byte member
  rw [bare.eq_def] at member
  split at member
  · exact List.mem_cons_of_mem _
      ((List.dropLast_sublist _).subset ((List.takeWhile_sublist _).subset member))
  · exact member

theorem trim_subset (text : List UInt8) : ∀ byte ∈ trim text, byte ∈ text := fun _ member =>
  (List.dropWhile_sublist _).subset ((List.rdropWhile_prefix _ _).subset member)

theorem settled_addTableType {filterClause : List UInt8}
    (inside : filterClause.length < maxCatalogQueryFilterLen) (argument : Argument)
    (schemaPatternType : SchemaPatternType) :
    Settled (addTableTypeFilterCondition filterClause argument schemaPatternType)
      (argument.TypesFit schemaPatternType) := by
  rw [addTableTypeFilterCondition.eq_def, Argument.TypesFit]
  cases argument.pVal with
  | none => exact Settled.kept inside nofun
  | some pVal =>
      simp only [Option.mem_some_iff, forall_eq']
      by_cases empty : cString pVal = []
      · rw [if_pos empty]
        exact Settled.kept inside fun some_text => absurd empty some_text
      · rw [if_neg empty, forall_prop_of_true empty, ← Argument.copied]
        by_cases outside : argument.copied pVal < 0 ∨ (maxTempBufLen : Int) ≤ argument.copied pVal
        · rw [if_pos outside]
          exact Or.inr ⟨rfl, fun within => by omega⟩
        · rw [if_neg outside, and_iff_right (by omega), and_iff_right (by omega)]
          have part {pToken : List UInt8}
              (member : pToken ∈ tokens ((cString pVal).take (argument.copied pVal).toNat)) :=
            tokens_sublist member
          have listed : Settled (do
              let filterClause ← catBehind maxCatalogQueryFilterLen filterClause
                (bytes " AND TABLE_TYPE IN ( ")
              let filterClause ← addListedTypes true filterClause
                (tokens ((cString pVal).take (argument.copied pVal).toNat))
              catBehind maxCatalogQueryFilterLen filterClause (bytes " ) "))
              (∀ pToken ∈ tokens ((cString pVal).take (argument.copied pVal).toNat),
                ∃ byte ∈ bare (trim pToken), byte ≠ 39) := by
            refine ((settled_cat inside _).bind fun _ inside =>
              (settled_addListed inside true ?_ ?_).bind fun _ inside =>
                settled_cat inside _).congr (by simp)
            · intro pToken member
              have shorter := (part member).length_le
              rw [List.length_take] at shorter
              omega
            · intro pToken member zero
              exact zero_not_mem_cString pVal (List.mem_of_mem_take
                ((part member).subset (trim_subset _ _ (bare_subset _ _ zero))))
          cases schemaPatternType with
          | local_ =>
              exact ((settled_cat inside _).bind fun _ inside =>
                (settled_addLocal inside _).bind fun _ inside => settled_cat inside _).congr
                  (by simp)
          | universal => exact listed.congr (by simp)
          | external => exact listed.congr (by simp)

/-- Every name and the list of types fit. -/
structure TablesCall.Fits (call : TablesCall) : Prop where
  catalog : call.catalog.NameFits
  schema : call.schema.NameFits
  table : call.table.NameFits
  tableType : call.tableType.TypesFit call.schemaPatternType

theorem settled_getTableFilterClause (call : TablesCall) :
    Settled (getTableFilterClause call) call.Fits := by
  have settled : Settled (getTableFilterClause call) _ :=
    (settled_getCatalog call.connected call.databaseColName call.catalog).bind fun filter _ =>
      (settled_print (by decide) filter).bind fun _ inside =>
        (settled_addLikeOrEqual inside call.iMetaDataId (bytes "TABLE_SCHEM") call.schema).bind
          fun _ inside =>
            (settled_addLikeOrEqual inside call.iMetaDataId (bytes "TABLE_NAME") call.table).bind
              fun _ inside => settled_addTableType inside call.tableType call.schemaPatternType
  refine settled.congr ⟨?_, ?_⟩
  · rintro ⟨catalog, -, schema, table, tableType⟩
    exact ⟨catalog, schema, table, tableType⟩
  · rintro ⟨catalog, schema, table, tableType⟩
    exact ⟨catalog, trivial, schema, table, tableType⟩

/-- Every buffer of the call is kept to. -/
def TablesCall.Inside (call : TablesCall) : Prop :=
  ∃ clause, getTableFilterClause call = some clause ∧ clause.length < maxCatalogQueryFilterLen

/-- Memory is kept to exactly when the names and the types fit. -/
theorem inside_iff_fits (call : TablesCall) : call.Inside ↔ call.Fits :=
  (settled_getTableFilterClause call).iff

/-- A call for the tables of a schema, with a list of types. -/
def tablesOf (schema : String) (cbSchema : Int) (tableType : String) (cbTableType : Int) :
    TablesCall where
  iMetaDataId := false
  connected := true
  databaseColName := none
  schemaPatternType := .universal
  catalog := ⟨none, 0⟩
  schema := ⟨some (bytes schema), cbSchema⟩
  table := ⟨none, 0⟩
  tableType := ⟨some (bytes tableType), cbTableType⟩

/--
A name of nothing but quotes, a name that is longer than its length, a list of types whose
length fills the buffer, and a quote alone in the list.
-/
theorem inside_iff_fits_wrong :
    ¬(tablesOf "'" sqlNts "" 0).Inside ∧ ¬(tablesOf "public" 1 "" 0).Inside ∧
      ¬(tablesOf "" 0 "VIEW" 256).Inside ∧ ¬(tablesOf "" 0 "VIEW,'" sqlNts).Inside := by
  have none_inside {call : TablesCall} (fails : getTableFilterClause call = none) :
      ¬call.Inside := by
    rintro ⟨clause, found, -⟩
    rw [fails] at found
    cases found
  refine ⟨none_inside ?_, none_inside ?_, none_inside ?_, none_inside ?_⟩
  all_goals decide

end RedshiftOdbc.Metadata.Catalog

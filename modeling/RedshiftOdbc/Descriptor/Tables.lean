import RedshiftOdbc.Descriptor.Count
import Mathlib.Data.Int.ConditionallyCompleteOrder
import Mathlib.Order.ConditionallyCompleteLattice.Basic

/-!
# Descriptors as tables

To its callers a descriptor is a table from the number of a column or a parameter to its
record, with the count that was last read or set; the order of the list does not show in
it.  Along every sequence of calls the lists answer and hold what the tables do, and so a
number has the record of the last binding that named it.
-/

namespace RedshiftOdbc.Descriptor

open RedshiftOdbc.Keyed RedshiftOdbc.Machine

structure Table where
  iType : DescType
  /-- No record is added or removed. -/
  fixed : Bool
  /-- The count that was last read or set, or zero. -/
  hHighestCount : Int
  record : Int → Option DescRec

namespace Table

variable (table : Table) (hRecNumber : Int)

def blank : DescRec :=
  ({ iType := table.iType, pDescHeader := { hAllocType := 0 } } : Desc).newRec hRecNumber

/-- A record is changed, or a blank one; there is none to change in a fixed table. -/
def write (change : DescRec → DescRec) : Option Table :=
  match table.record hRecNumber with
  | some pDescRec =>
      some { table with
        record := Function.update table.record hRecNumber (some (change pDescRec)) }
  | none =>
      if table.fixed then none
      else some { table with
        record := Function.update table.record hRecNumber
          (some (change (table.blank hRecNumber))) }

def erase : Table :=
  if table.fixed then table
  else { table with record := Function.update table.record hRecNumber none }

def upTo (hVal : Int) : Table :=
  if table.fixed then table
  else { table with record := fun number => if number ≤ hVal then table.record number else none }

def clear : Table := { table with hHighestCount := 0, record := fun _ => none }

/-- The highest number that has a record, and zero where no number is above it. -/
noncomputable def highest : Int := sSup (insert 0 {number | (table.record number).isSome})

noncomputable def getCount : Int × Table :=
  let count := if table.hHighestCount = 0 then table.highest else table.hHighestCount
  (count, { table with hHighestCount := count })

/-- A refusal, where nothing could be written. -/
def answered (full : Diagnostic) : Option Table → Option Diagnostic × Table
  | none => (some full, table)
  | some written => (none, written)

def bindParameter (outside : Int → Int) (param : ParamBinding) : Option Diagnostic × Table :=
  match param.refused outside with
  | some diagnostic => (some diagnostic, table)
  | none =>
      if param.unbinds then (none, table.erase param.hRecNumber)
      else table.answered ("HY001", "Memory allocation error")
        (table.write param.hRecNumber param.store)

def bindCol (col : ColBinding) : Option Diagnostic × Table :=
  if col.hCol = 0 then (some ("HY000", "SQLBindCol: Invalid column number"), table)
  else if col.unbinds then (none, table.erase col.hRecNumber)
  else table.answered ("HY001", "Memory allocation error") (table.write col.hRecNumber col.store)

def setCount (hVal : Int) : Option Diagnostic × Table :=
  if hVal < 0 ∨ (hVal = 0 ∧ ¬((table.iType = .apd ∨ table.iType = .ard) ∧ table.fixed = false)) then
    (some invalidAttribute, table)
  else
    let counted := { table with hHighestCount := hVal }
    (none, ((if hVal = 0 then none else counted.write hVal id).getD counted).upTo hVal)

/-- A field of the header other than the count, which no record depends on. -/
def headerRefused (field : HeaderField) (value : FieldValue) : Option Diagnostic :=
  match field with
  | .arraySize => if value.iVal ≤ 0 then some invalidAttribute else none
  | .bindType => if value.iVal < 0 then some invalidAttribute else none
  | .allocType => some invalidIdentifier
  | _ => none

/-- An identifier that is not known leaves a blank record. -/
def setRecordField (field : RecordField) (value : FieldValue) : Option Diagnostic × Table :=
  if hRecNumber ≤ 0 then (some invalidIndex, table)
  else
    match field with
    | .other _ =>
        match table.write hRecNumber id with
        | none => (some fixedArray, table)
        | some written => (some invalidIdentifier, written)
    | field =>
        table.answered fixedArray
          (table.write hRecNumber fun pDescRec => pDescRec.setField table.iType field value)

def setDescField (field : FieldIdentifier) (value : FieldValue) : Option Diagnostic × Table :=
  if table.iType ≠ .unknown ∧ field.writableFor table.iType = false then
    (some ("HY016", "Cannot modify an implementation row descriptor"), table)
  else
    match field with
    | .record field => table.setRecordField hRecNumber field value
    | .header .count => table.setCount value.hVal
    | .header field => (headerRefused field value, table)

def setDescRec (values : RecValues) : Option Diagnostic × Table :=
  if values.hRecNumber ≤ 0 then (some invalidIndex, table)
  else if table.iType ≠ .unknown ∧
      (recFields.all fun field => (FieldIdentifier.record field).writableFor table.iType) = false then
    (some ("HY000", "Field is not writable"), table)
  else if values.pData = 0 ∧ values.plIndicator = 0 ∧ table.iType = .ard then
    (none, table.erase values.hRecNumber)
  else table.answered fixedArray (table.write values.hRecNumber (values.store table.iType))

/-- The destination of a copy, without the copied records. -/
def receive (source : Table) : Table where
  iType := if table.iType = .unknown then source.iType else table.iType
  fixed := false
  hHighestCount := source.hHighestCount
  record := fun _ => none

end Table

abbrev Tables (Handle : Type) := Handle → Table

namespace Tables

variable {Handle : Type} [DecidableEq Handle] (tables : Tables Handle) (outside : Int → Int)

/-- The answer of one table, which alone is written. -/
def reply (phdesc : Handle) (answer : Option Diagnostic × Table) : Report × Tables Handle :=
  ({ refusal := answer.1 }, Function.update tables phdesc answer.2)

def copyDesc (phdescSrc phdescDest : Handle) : Report × Tables Handle :=
  if (tables phdescDest).iType = .ird ∨ (tables phdescDest).iType = .ipd then
    ({ refusal := some ("HY016", "Cannot modify an implementation descriptor") }, tables)
  else
    let received := (tables phdescDest).receive (tables phdescSrc)
    tables.reply phdescDest (none, { received with
      record := fun number =>
        if phdescSrc = phdescDest then none
        else ((tables phdescSrc).record number).map DescRec.copied })

noncomputable def call : Call Handle → Report × Tables Handle
  | .bindParameter phdesc param =>
      tables.reply phdesc ((tables phdesc).bindParameter outside param)
  | .bindCol phdesc col => tables.reply phdesc ((tables phdesc).bindCol col)
  | .clearBindList phdesc => tables.reply phdesc (none, (tables phdesc).clear)
  | .getCount phdesc =>
      let answer := (tables phdesc).getCount
      ({ count := some answer.1 }, Function.update tables phdesc answer.2)
  | .update (.field phdesc hRecNumber field value) =>
      tables.reply phdesc ((tables phdesc).setDescField hRecNumber field value)
  | .update (.fields phdesc values) => tables.reply phdesc ((tables phdesc).setDescRec values)
  | .update (.copy phdescSrc phdescDest) => tables.copyDesc phdescSrc phdescDest

end Tables

/-! ## The table of a list -/

namespace Desc

variable {pDesc : Desc} {hRecNumber : Int}

theorem checkAndAdd_iType {iAtFront : Bool} {added : Desc × Bool}
    (found : pDesc.checkAndAddDescRec hRecNumber iAtFront = some added) :
    added.1.iType = pDesc.iType := by
  rw [checkAndAddDescRec] at found
  cases search : pDesc.findDescRec hRecNumber with
  | some pDescRec =>
      rw [search] at found
      cases found
      rfl
  | none =>
      rw [search] at found
      dsimp only at found
      split_ifs at found
      cases found
      rfl

def table (pDesc : Desc) : Table where
  iType := pDesc.iType
  fixed := pDesc.iRecListType = .arrayList
  hHighestCount := pDesc.pDescHeader.hHighestCount
  record := fun hRecNumber => pDesc.findDescRec hRecNumber

theorem table_update {change : DescRec → DescRec}
    (keeps : ∀ pDescRec, pDescRec.hRecNumber = hRecNumber →
      (change pDescRec).hRecNumber = hRecNumber) :
    (pDesc.update hRecNumber change).table =
      { pDesc.table with
        record := Function.update pDesc.table.record hRecNumber
          ((pDesc.findDescRec hRecNumber).map change) } := by
  rw [table, table, Table.mk.injEq]
  refine ⟨rfl, rfl, rfl, funext fun number => ?_⟩
  rw [findDescRec, update, find_modify keeps]
  by_cases same : number = hRecNumber
  · simp [same, findDescRec]
  · simp [same, findDescRec]

theorem table_add {pDescRec : DescRec} (missing : pDesc.findDescRec hRecNumber = none)
    (same : pDescRec.hRecNumber = hRecNumber) (iAtFront : Bool) :
    (pDesc.addDescriptorRec pDescRec iAtFront).table =
      { pDesc.table with
        record := Function.update pDesc.table.record hRecNumber (some pDescRec) } := by
  rw [table, table, Table.mk.injEq]
  refine ⟨rfl, rfl, rfl, funext fun number => ?_⟩
  rw [findDescRec, addDescriptorRec]
  cases iAtFront with
  | false =>
      rw [if_neg Bool.false_ne_true, find_concat missing same]
      by_cases here : number = hRecNumber
      · simp [here]
      · simp [here, findDescRec]
  | true =>
      rw [if_pos rfl]
      by_cases here : number = hRecNumber
      · simp [here, find, same]
      · have apart : pDescRec.hRecNumber ≠ number := fun asked => here (asked.symm.trans same)
        rw [find_cons_of_ne apart]
        simp [here, findDescRec]

/-- A record that is found or added, and then changed, is written. -/
theorem table_write {change : DescRec → DescRec}
    (keeps : ∀ pDescRec, pDescRec.hRecNumber = hRecNumber →
      (change pDescRec).hRecNumber = hRecNumber) (iAtFront : Bool) :
    pDesc.table.write hRecNumber change =
      (pDesc.checkAndAddDescRec hRecNumber iAtFront).map
        fun added => (added.1.update hRecNumber change).table := by
  rw [checkAndAddDescRec, Table.write]
  have record : pDesc.table.record hRecNumber = pDesc.findDescRec hRecNumber := rfl
  rw [record]
  cases found : pDesc.findDescRec hRecNumber with
  | some pDescRec =>
      rw [Option.map_some, table_update keeps, found]
      rfl
  | none =>
      cases list : pDesc.iRecListType with
      | arrayList => simp [table, list]
      | linkedList =>
          have newer := @table_add _ _ (pDesc.newRec hRecNumber) found rfl iAtFront
          have open_table : pDesc.table.fixed = false := by simp [table, list]
          rw [if_neg (by simp [open_table]), if_pos (by decide), Option.map_some,
            table_update keeps,
            newer]
          have among : (pDesc.addDescriptorRec (pDesc.newRec hRecNumber) iAtFront).findDescRec
              hRecNumber = some (pDesc.newRec hRecNumber) := by
            have read := congrFun (congrArg Table.record newer) hRecNumber
            dsimp only at read
            rw [Function.update_self] at read
            exact read
          rw [among, Function.update_idem]
          rfl

theorem table_ensure (iAtFront : Bool) :
    pDesc.table.write hRecNumber id =
      (pDesc.checkAndAddDescRec hRecNumber iAtFront).map fun added => added.1.table := by
  have written := @table_write pDesc hRecNumber id (fun _ same => same) iAtFront
  rw [written]
  congr 1
  funext added
  have kept := @table_update added.1 hRecNumber id fun _ same => same
  rw [kept, Option.map_id]
  exact congrArg (Table.mk _ _ _) (Function.update_eq_self hRecNumber added.1.table.record)

theorem table_release (unique : pDesc.numbers.Nodup) :
    (pDesc.releaseDescriptorRecByNum hRecNumber).table = pDesc.table.erase hRecNumber := by
  rw [releaseDescriptorRecByNum, Table.erase]
  cases list : pDesc.iRecListType with
  | arrayList => simp [table, list]
  | linkedList =>
      have open_table : pDesc.table.fixed = false := by simp [table, list]
      rw [if_pos rfl, open_table, if_neg Bool.false_ne_true, table, Table.mk.injEq]
      refine ⟨rfl, by simp, rfl, funext fun number => ?_⟩
      rw [findDescRec, find_remove unique, Function.update_apply]
      rfl

theorem table_releaseAbove {hVal : Int} :
    (pDesc.releaseAbove hVal).table = pDesc.table.upTo hVal := by
  rw [releaseAbove, Table.upTo]
  cases list : pDesc.iRecListType with
  | arrayList => simp [table, list]
  | linkedList =>
      have open_table : pDesc.table.fixed = false := by simp [table, list]
      rw [if_pos rfl, open_table, if_neg Bool.false_ne_true, table, Table.mk.injEq]
      refine ⟨rfl, by simp, rfl, funext fun number => ?_⟩
      rw [findDescRec, find_filter fun number => decide (number ≤ hVal)]
      simp only [decide_eq_true_eq]
      rfl

/-! ## Every call -/

theorem table_bindParameter (unique : pDesc.numbers.Nodup) (outside : Int → Int)
    (param : ParamBinding) :
    pDesc.table.bindParameter outside param =
      ((pDesc.bindParameter outside param).1, (pDesc.bindParameter outside param).2.1.table) := by
  rw [Table.bindParameter, bindParameter]
  cases param.refused outside with
  | some diagnostic => rfl
  | none =>
      cases param.unbinds with
      | true =>
          dsimp only
          rw [if_pos rfl, if_pos rfl, table_release unique]
      | false =>
          have written := @table_write pDesc param.hRecNumber param.store (fun _ _ => rfl) false
          dsimp only
          rw [if_neg Bool.false_ne_true, if_neg Bool.false_ne_true, written]
          cases pDesc.checkAndAddDescRec param.hRecNumber false with
          | none => rfl
          | some added => rfl

theorem table_bindCol (unique : pDesc.numbers.Nodup) (col : ColBinding) :
    pDesc.table.bindCol col = ((pDesc.bindCol col).1, (pDesc.bindCol col).2.table) := by
  rw [Table.bindCol, bindCol]
  by_cases zero : col.hCol = 0
  · rw [if_pos zero, if_pos zero]
  · rw [if_neg zero, if_neg zero]
    cases col.unbinds with
    | true => rw [if_pos rfl, if_pos rfl, table_release unique]
    | false =>
        have written := @table_write pDesc col.hRecNumber col.store (fun _ _ => rfl) false
        rw [if_neg Bool.false_ne_true, if_neg Bool.false_ne_true, written]
        cases pDesc.checkAndAddDescRec col.hRecNumber false with
        | none => rfl
        | some added => rfl

theorem table_setCount (hVal : Int) :
    pDesc.table.setCount hVal = ((pDesc.setCount hVal).1, (pDesc.setCount hVal).2.table) := by
  have linked : pDesc.table.fixed = false ↔ pDesc.iRecListType = .linkedList := by
    cases list : pDesc.iRecListType <;> simp [table, list]
  have condition : (hVal < 0 ∨ (hVal = 0 ∧
      ¬((pDesc.table.iType = .apd ∨ pDesc.table.iType = .ard) ∧ pDesc.table.fixed = false))) ↔
      (hVal < 0 ∨ (hVal = 0 ∧
        ¬((pDesc.iType = .apd ∨ pDesc.iType = .ard) ∧ pDesc.iRecListType = .linkedList))) := by
    rw [linked]
    rfl
  rw [Table.setCount, setCount]
  by_cases invalid : hVal < 0 ∨ (hVal = 0 ∧
      ¬((pDesc.iType = .apd ∨ pDesc.iType = .ard) ∧ pDesc.iRecListType = .linkedList))
  · rw [if_pos (condition.mpr invalid), if_pos invalid]
  · rw [if_neg (mt condition.mp invalid), if_neg invalid]
    dsimp only
    rw [table_releaseAbove]
    by_cases zero : hVal = 0
    · rw [if_pos zero, if_neg (not_not.mpr zero)]
      rfl
    · rw [if_neg zero, if_pos zero]
      generalize counting : ({ pDesc with
        pDescHeader := { pDesc.pDescHeader with hHighestCount := hVal } } : Desc) = counted
      have same : { pDesc.table with hHighestCount := hVal } = counted.table := counting ▸ rfl
      have ensured := @table_ensure counted hVal true
      rw [same, ensured]
      cases counted.checkAndAddDescRec hVal true with
      | none => rfl
      | some added => rfl

/-- The loop of `findHighestRecCount` finds the highest number of the table. -/
theorem table_highest : pDesc.table.highest = pDesc.findHighestRecCount := by
  obtain ⟨low, every, among⟩ := highestOf_foldl pDesc.numbers 0
  rw [findHighestRecCount_eq]
  have numbered (number : Int) : (pDesc.findDescRec number).isSome ↔ number ∈ pDesc.numbers := by
    rw [← not_iff_not, Bool.not_eq_true, Option.isSome_eq_false_iff, Option.isNone_iff_eq_none]
    exact find_none_iff
  have greatest : IsGreatest (insert 0 {number | (pDesc.table.record number).isSome})
      (highestOf pDesc.numbers) := by
    refine ⟨?_, ?_⟩
    · rcases List.mem_cons.mp among with zero | member
      · exact Or.inl zero
      · exact Or.inr ((numbered _).mpr member)
    · rintro number (rfl | some_record)
      · exact low
      · exact every number ((numbered number).mp some_record)
  exact greatest.csSup_eq

/-- The count that is read is that of the table, which keeps it too. -/
theorem table_getCount (valid : pDesc.pDescHeader.valid = true) :
    pDesc.getCount.1 = .ok pDesc.table.getCount.1 ∧
      pDesc.getCount.2.table = pDesc.table.getCount.2 := by
  rw [getCount, if_neg (by simp [valid]), Table.getCount, table_highest]
  exact ⟨rfl, rfl⟩

theorem table_setHeaderField {field : HeaderField} (value : FieldValue) (other : field ≠ .count) :
    (Table.headerRefused field value, pDesc.table) =
      ((pDesc.setHeaderField field value).1, (pDesc.setHeaderField field value).2.table) := by
  cases field with
  | count => exact absurd rfl other
  | arraySize | bindType =>
      dsimp only [setHeaderField, Table.headerRefused]
      split_ifs <;> rfl
  | _ => rfl

theorem table_setRecordField (hRecNumber : Int) (field : RecordField) (value : FieldValue) :
    pDesc.table.setRecordField hRecNumber field value =
      ((pDesc.setRecordField hRecNumber field value).1,
        (pDesc.setRecordField hRecNumber field value).2.table) := by
  have written (field : RecordField) := @table_write pDesc hRecNumber
    (fun pDescRec => pDescRec.setField pDesc.iType field value)
    (fun pDescRec number => (setField_number pDescRec pDesc.iType field value).trans number) true
  rw [Table.setRecordField.eq_def, setRecordField.eq_def]
  by_cases invalid : hRecNumber ≤ 0
  · rw [if_pos invalid, if_pos invalid]
  · rw [if_neg invalid, if_neg invalid]
    cases field with
    | other hFieldIdentifier =>
        have ensured := @table_ensure pDesc hRecNumber true
        dsimp only
        rw [ensured]
        cases pDesc.checkAndAddDescRec hRecNumber true with
        | none => rfl
        | some added => rfl
    | _ =>
        dsimp only
        refine (congrArg (Table.answered _ fixedArray) (written _)).trans ?_
        cases found : pDesc.checkAndAddDescRec hRecNumber true with
        | none => rfl
        | some added =>
            rw [← checkAndAdd_iType found]
            rfl

/-- A type that is not known may write every field. -/
theorem isWritableField_iff (field : FieldIdentifier) :
    pDesc.isWritableField field = false ↔
      pDesc.table.iType ≠ .unknown ∧ field.writableFor pDesc.table.iType = false := by
  simp [isWritableField, table]

theorem table_setDescField (valid : pDesc.pDescHeader.valid = true) (hRecNumber : Int)
    (field : FieldIdentifier) (value : FieldValue) :
    pDesc.table.setDescField hRecNumber field value =
      ((pDesc.setDescField hRecNumber field value false).1,
        (pDesc.setDescField hRecNumber field value false).2.table) := by
  rw [Table.setDescField.eq_def, setDescField.eq_def, Bool.false_or]
  by_cases refused : pDesc.isWritableField field = false
  · rw [if_pos ((isWritableField_iff field).mp refused), if_pos refused]
  · rw [if_neg (mt (isWritableField_iff field).mpr refused), if_neg refused]
    cases field with
    | record field => exact table_setRecordField hRecNumber field value
    | header field =>
        dsimp only
        rw [if_neg (by simp [valid])]
        by_cases count : field = .count
        · rw [count]
          exact table_setCount value.hVal
        · rw [← table_setHeaderField value count]
          cases field with
          | count => exact absurd rfl count
          | _ => rfl

theorem table_setDescRec (unique : pDesc.numbers.Nodup) (values : RecValues) :
    pDesc.table.setDescRec values =
      ((pDesc.setDescRec values).1, (pDesc.setDescRec values).2.table) := by
  have writable : (recFields.all fun field => pDesc.isWritableField (.record field)) = false ↔
      pDesc.table.iType ≠ .unknown ∧ (recFields.all fun field =>
        (FieldIdentifier.record field).writableFor pDesc.table.iType) = false := by
    simp only [List.all_eq_false, Bool.not_eq_true, isWritableField_iff]
    constructor
    · rintro ⟨field, member, known, refused⟩
      exact ⟨known, field, member, refused⟩
    · rintro ⟨known, field, member, refused⟩
      exact ⟨field, member, known, refused⟩
  rw [Table.setDescRec, setDescRec]
  by_cases invalid : values.hRecNumber ≤ 0
  · rw [if_pos invalid, if_pos invalid]
  · rw [if_neg invalid, if_neg invalid]
    by_cases refused : (recFields.all fun field => pDesc.isWritableField (.record field)) = false
    · rw [if_pos (writable.mp refused), if_pos refused]
    · rw [if_neg (mt writable.mpr refused), if_neg refused]
      change (if values.pData = 0 ∧ values.plIndicator = 0 ∧ pDesc.iType = .ard then _ else _) = _
      by_cases unbinds : values.pData = 0 ∧ values.plIndicator = 0 ∧ pDesc.iType = .ard
      · rw [if_pos unbinds, if_pos unbinds, table_release unique]
      · rw [if_neg unbinds, if_neg unbinds]
        have written := @table_write pDesc values.hRecNumber (values.store pDesc.iType)
          (fun _ number => number) true
        refine (congrArg (Table.answered _ fixedArray) written).trans ?_
        cases found : pDesc.checkAndAddDescRec values.hRecNumber true with
        | none => rfl
        | some added =>
            rw [← checkAndAdd_iType found]
            rfl

end Desc

namespace Descs

variable {Handle : Type} [DecidableEq Handle] {descs : Descs Handle} {outside : Int → Int}

def tables (descs : Descs Handle) : Tables Handle := fun phdesc => (descs phdesc).table

theorem tables_put (phdesc : Handle) (pDesc : Desc) :
    (descs.put phdesc pDesc).tables = Function.update descs.tables phdesc pDesc.table := by
  funext other
  by_cases here : other = phdesc
  · rw [here, tables, put_self, Function.update_self]
  · rw [tables, put_other here, Function.update_of_ne here]
    rfl

/-- One descriptor answers as its table does. -/
theorem tables_reply {phdesc : Handle} {answer : Option Diagnostic × Table}
    {result : Option Diagnostic × Desc} (same : answer = (result.1, result.2.table)) :
    descs.tables.reply phdesc answer =
      ({ refusal := result.1 }, (descs.put phdesc result.2).tables) := by
  rw [Tables.reply, same, tables_put]

theorem tables_copy (valid : ∀ phdesc, (descs phdesc).pDescHeader.valid = true)
    (phdescSrc phdescDest : Handle) :
    descs.tables.copyDesc phdescSrc phdescDest =
      ({ refusal := (descs.copyDesc phdescSrc phdescDest false).1 },
        (descs.copyDesc phdescSrc phdescDest false).2.tables) := by
  rw [Tables.copyDesc]
  change (if (descs phdescDest).iType = .ird ∨ (descs phdescDest).iType = .ipd then _ else _) = _
  by_cases refused : (descs phdescDest).iType = .ird ∨ (descs phdescDest).iType = .ipd
  · rw [if_pos refused, copyDesc, if_pos ⟨rfl, refused⟩]
  · rw [if_neg refused]
    rw [not_or] at refused
    obtain ⟨success, others, destination⟩ := @copyDesc_destination _ _ descs phdescSrc _ refused
    rw [Tables.reply, success, Prod.mk.injEq]
    refine ⟨rfl, funext fun phdesc => ?_⟩
    by_cases here : phdesc = phdescDest
    · rw [here, Function.update_self]
      refine Eq.trans ?_ (congrArg Desc.table destination).symm
      change Table.mk _ _ _ _ = Table.mk _ _ _ _
      have header := receive_header_iff.mpr (Or.inl ⟨valid phdescDest, valid phdescSrc⟩)
      rw [Table.mk.injEq]
      refine ⟨rfl, rfl, (congrArg Header.hHighestCount header).symm, funext fun number => ?_⟩
      by_cases same : phdescSrc = phdescDest
      · rw [if_pos same, if_pos same]
        rfl
      · rw [if_neg same, if_neg same]
        exact (@find_map _ _ _ DescRec.hRecNumber DescRec.copied
          (descs phdescSrc).pDescRecHead number fun _ => rfl).symm
    · rw [Function.update_of_ne here]
      exact (congrArg Desc.table (others phdesc here)).symm

/-- The headers are valid, and no descriptor has two records of one number. -/
def Proper (descs : Descs Handle) : Prop :=
  ∀ phdesc, (descs phdesc).pDescHeader.valid = true ∧ (descs phdesc).numbers.Nodup

/-- Only a copy takes the numbers of a descriptor. -/
theorem taken_move {call : Call Handle} {other : Tally}
    (takes : descs.move outside call = .take other) :
    ∃ phdescSrc, other = { (descs phdescSrc).tally with array := false } := by
  cases call with
  | bindParameter phdesc param =>
      rw [move, Desc.paramMove] at takes
      split_ifs at takes
  | bindCol phdesc col =>
      rw [move, Desc.colMove] at takes
      split_ifs at takes
  | clearBindList phdesc | getCount phdesc => cases takes
  | update call =>
      cases call with
      | field phdesc hRecNumber field value =>
          rw [move, Desc.fieldMove.eq_def] at takes
          by_cases refused : (descs phdesc).isWritableField field = false
          · rw [if_pos refused] at takes
            cases takes
          · rw [if_neg refused] at takes
            cases field with
            | record field =>
                dsimp only at takes
                split_ifs at takes
            | header field =>
                cases field with
                | count =>
                    dsimp only at takes
                    rw [Desc.countMove] at takes
                    split_ifs at takes
                | _ => cases takes
      | fields phdesc values =>
          rw [move, Desc.fieldsMove] at takes
          split_ifs at takes
      | copy phdescSrc phdescDest =>
          rw [move] at takes
          split_ifs at takes
          cases takes
          exact ⟨phdescSrc, rfl⟩

/-- No call breaks a header or gives a number a second record. -/
theorem call_proper (proper : descs.Proper) (call : Call Handle) :
    (descs.call outside call).2.Proper := by
  obtain ⟨others, made⟩ := @tally_call _ _ descs outside (fun phdesc => (proper phdesc).1) call
  intro phdesc
  by_cases here : phdesc = place call
  · rw [here]
    have before := proper (place call)
    suffices right : ((descs.move outside call).apply (descs (place call)).tally).valid = true ∧
        ((descs.move outside call).apply (descs (place call)).tally).numbers.Nodup by
      rw [← made] at right
      exact right
    cases moved : descs.move outside call with
    | take other =>
        obtain ⟨phdescSrc, rfl⟩ := taken_move moved
        exact proper phdescSrc
    | _ => exact ⟨(Move.apply_valid _ fun _ same => by cases same).trans before.1,
        Move.apply_unique _ before.2 fun _ same => by cases same⟩
  · rw [others phdesc here]
    exact proper phdesc

/-- A call does to the tables what it does to the descriptors. -/
theorem tables_call (proper : descs.Proper) (call : Call Handle) :
    descs.tables.call outside call =
      ((descs.call outside call).1, (descs.call outside call).2.tables) := by
  cases call with
  | bindParameter phdesc param =>
      exact @tables_reply _ _ descs phdesc _
        (((descs phdesc).bindParameter outside param).1,
          ((descs phdesc).bindParameter outside param).2.1)
        (Desc.table_bindParameter (proper phdesc).2 outside param)
  | bindCol phdesc col => exact tables_reply (Desc.table_bindCol (proper phdesc).2 col)
  | clearBindList phdesc => exact @tables_reply _ _ descs phdesc _ (none, _) rfl
  | getCount phdesc =>
      obtain ⟨count, kept⟩ := Desc.table_getCount (proper phdesc).1
      rw [Descs.call, Tables.call, tables_put, count, kept]
      rfl
  | update call =>
      cases call with
      | field phdesc hRecNumber field value =>
          exact tables_reply (Desc.table_setDescField (proper phdesc).1 hRecNumber field value)
      | fields phdesc values => exact tables_reply (Desc.table_setDescRec (proper phdesc).2 values)
      | copy phdescSrc phdescDest =>
          exact tables_copy (fun phdesc => (proper phdesc).1) phdescSrc phdescDest

/--
Along every sequence of calls the descriptors answer as the tables do, hold what the tables
hold, and have at most one record for a number.
-/
theorem calls_refine_tables (outside : Int → Int) (descs : Descs Handle) (proper : descs.Proper)
    (calls : List (Call Handle)) :
    (replies (fun descs : Descs Handle => descs.call outside) descs calls).2.Proper ∧
      replies (fun tables : Tables Handle => tables.call outside) descs.tables calls =
        ((replies (fun descs : Descs Handle => descs.call outside) descs calls).1,
          (replies (fun descs : Descs Handle => descs.call outside) descs calls).2.tables) :=
  replies_simulated tables Proper (fun _ call proper => call_proper proper call)
    (fun _ call proper => tables_call proper call) proper calls

end Descs

/-! ## The last binding -/

namespace ColBinding

/-- A call for a number that is not refused. -/
def names (col : ColBinding) (hRecNumber : Int) : Bool :=
  col.hCol ≠ 0 && col.hRecNumber = hRecNumber

/-- What a fetch uses of a record: the type, the buffer, its length and the indicator. -/
def bound (pDescRec : DescRec) : Int × Pointer × Int × Pointer :=
  (pDescRec.hType, pDescRec.pValue, pDescRec.cbLen, pDescRec.pcbLenInd)

/-- What a call asks for: a buffer, or none. -/
def asked (col : ColBinding) : Option (Int × Pointer × Int × Pointer) :=
  if col.unbinds then none else some (col.hType, col.pValue, col.cbLen, col.pcbLenInd)

end ColBinding

namespace Table

variable {table : Table}

/-- A call writes only the number it names, and there what it asks for. -/
theorem bindCol_record (open_table : table.fixed = false) (col : ColBinding) (hRecNumber : Int) :
    (table.bindCol col).2.fixed = false ∧
      if col.names hRecNumber then
        ((table.bindCol col).2.record hRecNumber).map ColBinding.bound = col.asked
      else (table.bindCol col).2.record hRecNumber = table.record hRecNumber := by
  rw [bindCol, ColBinding.names]
  by_cases zero : col.hCol = 0
  · simp [zero, open_table]
  · rw [if_neg zero]
    cases unbinds : col.unbinds with
    | true =>
        rw [if_pos rfl, erase, open_table, if_neg Bool.false_ne_true]
        refine ⟨rfl, ?_⟩
        by_cases same : col.hRecNumber = hRecNumber
        · simp [same, zero, ColBinding.asked, unbinds]
        · simp [same, zero, Function.update_of_ne (Ne.symm same)]
    | false =>
        have stored : ∃ pDescRec, table.write col.hRecNumber col.store =
            some { table with
              record := Function.update table.record col.hRecNumber
                (some (col.store pDescRec)) } := by
          rw [write]
          cases table.record col.hRecNumber with
          | some pDescRec => exact ⟨pDescRec, rfl⟩
          | none => exact ⟨table.blank col.hRecNumber, by rw [open_table]; rfl⟩
        obtain ⟨pDescRec, written⟩ := stored
        rw [if_neg Bool.false_ne_true, written]
        refine ⟨open_table, ?_⟩
        by_cases same : col.hRecNumber = hRecNumber
        · simp [same, zero, answered, ColBinding.asked, unbinds, ColBinding.bound, ColBinding.store]
        · simp [same, zero, answered, Function.update_of_ne (Ne.symm same)]

/-- The last call that names a number decides what is bound to it. -/
theorem bindCols_bound (open_table : table.fixed = false) (cols : List ColBinding)
    (hRecNumber : Int) :
    ((replies bindCol table cols).2.record hRecNumber).map ColBinding.bound =
      ((cols.filter (·.names hRecNumber)).getLast?).elim
        ((table.record hRecNumber).map ColBinding.bound) ColBinding.asked := by
  induction cols generalizing table with
  | nil => rfl
  | cons col cols ih =>
      obtain ⟨still_open, record⟩ := bindCol_record open_table col hRecNumber
      rw [replies]
      refine (ih still_open).trans ?_
      cases names : col.names hRecNumber with
      | false =>
          rw [names, if_neg Bool.false_ne_true] at record
          rw [record, List.filter_cons, names, if_neg Bool.false_ne_true]
      | true =>
          rw [names, if_pos rfl] at record
          rw [record, List.filter_cons, names, if_pos rfl, List.getLast?_cons]
          cases (cols.filter (·.names hRecNumber)).getLast? <;> rfl

/-- A number that no call names keeps its whole record. -/
theorem bindCols_unnamed (open_table : table.fixed = false) {cols : List ColBinding}
    {hRecNumber : Int} (unnamed : ∀ col ∈ cols, col.names hRecNumber = false) :
    (replies bindCol table cols).2.record hRecNumber = table.record hRecNumber := by
  induction cols generalizing table with
  | nil => rfl
  | cons col cols ih =>
      obtain ⟨still_open, record⟩ := bindCol_record open_table col hRecNumber
      rw [unnamed col List.mem_cons_self, if_neg Bool.false_ne_true] at record
      rw [replies]
      exact (ih still_open fun other member => unnamed other (List.mem_cons_of_mem _ member)).trans
        record

end Table

namespace Desc

theorem bindCol_unique {pARD : Desc} (unique : pARD.numbers.Nodup) (col : ColBinding) :
    (pARD.bindCol col).2.numbers.Nodup := by
  have made := congrArg Tally.numbers (tally_bindCol pARD col)
  have kept := @Move.apply_unique pARD.tally (colMove col) unique fun other same => by
    rw [colMove] at same
    split_ifs at same
  rw [← made] at kept
  exact kept

def bindCols (pARD : Desc) (cols : List ColBinding) : Desc :=
  (replies bindCol pARD cols).2

/--
Behind every sequence of `SQLBindCol` calls a number that was named has a record exactly
when the last call that named it gave a buffer or an indicator, and the record has what that
call gave; other numbers have the record they had.
-/
theorem bindCols_last (pARD : Desc) (unique : pARD.numbers.Nodup)
    (linked : pARD.iRecListType = .linkedList) (cols : List ColBinding) (hRecNumber : Int) :
    ((pARD.bindCols cols).findDescRec hRecNumber).map ColBinding.bound =
        ((cols.filter (·.names hRecNumber)).getLast?).elim
          ((pARD.findDescRec hRecNumber).map ColBinding.bound) ColBinding.asked ∧
      ((∀ col ∈ cols, col.names hRecNumber = false) →
        (pARD.bindCols cols).findDescRec hRecNumber = pARD.findDescRec hRecNumber) := by
  obtain ⟨-, same⟩ := replies_simulated table (fun pARD : Desc => pARD.numbers.Nodup)
    (fun _ col unique => bindCol_unique unique col) (fun _ col unique => table_bindCol unique col)
    unique cols
  have open_table : pARD.table.fixed = false := by simp [table, linked]
  refine ⟨?_, fun unnamed => ?_⟩
  · have bound := Table.bindCols_bound open_table cols hRecNumber
    rw [same] at bound
    exact bound
  · have kept := Table.bindCols_unnamed open_table unnamed
    rw [same] at kept
    exact kept

/-- A column is bound, bound to another buffer, and unbound; no other one is changed. -/
theorem bindCols_last_unbound :
    (((Session.freshRow ()).bindCols
        [Session.column 1, { Session.column 1 with pValue := 2000 },
          { Session.column 1 with pValue := 0 }]).findDescRec 1).map ColBinding.bound = none ∧
      ((Session.freshRow ()).bindCols
        [Session.column 1, { Session.column 1 with pValue := 2000 },
          { Session.column 1 with pValue := 0 }]).findDescRec 2 = none :=
  ⟨(bindCols_last (Session.freshRow ()) List.nodup_nil rfl _ 1).1,
    (bindCols_last (Session.freshRow ()) List.nodup_nil rfl _ 2).2 (by decide)⟩

end Desc

namespace Descs

/-- A column is bound, and its descriptor is copied and read. -/
def copyCalls : List (Call Bool) :=
  [.bindCol false (Session.column 2), .update (.copy false true), .getCount true]

theorem calls_refine_tables_copy :
    (replies (fun descs : Descs Bool => descs.call fun _ => sqlNoType) applicationDescs
        copyCalls).2.Proper ∧
      replies (fun tables : Tables Bool => tables.call fun _ => sqlNoType)
          (tables applicationDescs) copyCalls =
        ((replies (fun descs : Descs Bool => descs.call fun _ => sqlNoType) applicationDescs
            copyCalls).1,
          (replies (fun descs : Descs Bool => descs.call fun _ => sqlNoType) applicationDescs
            copyCalls).2.tables) :=
  calls_refine_tables _ applicationDescs (fun _ => ⟨rfl, List.nodup_singleton _⟩) copyCalls

end Descs

end RedshiftOdbc.Descriptor

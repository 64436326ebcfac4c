import RedshiftOdbc.Zpq.Messages

/-!
# The messages of a result

Readers of the connection's input buffer, and the messages in which a server
sends a result: its row description, its rows, the completion of the command and
the readiness for a new query.  Every message reads back as what it was written
from, whatever follows it in the buffer.
-/

namespace RedshiftOdbc.Libpq

open RedshiftOdbc.Words RedshiftOdbc.Zpq

/-! ## Readers -/

/-- `pqGetc`.  A reader takes the unread bytes, and none stands for `EOF`. -/
def pqGetc : List UInt8 → Option (UInt8 × List UInt8)
  | [] => none
  | byte :: rest => some (byte, rest)

/-- `pqGetInt` for two or four bytes: a word of four bytes is signed. -/
def pqGetInt (bytes : Nat) (buffer : List UInt8) : Option (Int × List UInt8) :=
  if buffer.length < bytes then none
  else some (signed 4 (ofBig (buffer.take bytes)), buffer.drop bytes)

/-- `pqGets`: the bytes up to the next zero byte. -/
def pqGets : List UInt8 → Option (List UInt8 × List UInt8)
  | [] => none
  | byte :: rest =>
      if byte = 0 then some ([], rest)
      else (pqGets rest).map fun (text, after) => (byte :: text, after)

def pqGetnchar (len : Nat) (buffer : List UInt8) : Option (List UInt8 × List UInt8) :=
  if buffer.length < len then none else some (buffer.take len, buffer.drop len)

abbrev Field : Type := Option (List UInt8)

/-- The fields of a row: a length each, -1 for null, and the bytes.  A negative length counts as 0. -/
def readFields : Nat → List UInt8 → Option (List Field × List UInt8)
  | 0, buffer => some ([], buffer)
  | nfields + 1, buffer =>
      match pqGetInt 4 buffer with
      | none => none
      | some (vlen, buffer) =>
          if vlen = -1 then
            (readFields nfields buffer).map fun (fields, rest) => (none :: fields, rest)
          else
            match pqGetnchar vlen.toNat buffer with
            | none => none
            | some (value, buffer) =>
                (readFields nfields buffer).map fun (fields, rest) => (some value :: fields, rest)

/-- Reads a column's description: its name and the words after it, with the extended metadata. -/
def readAttDesc (extended : Bool) (buffer : List UInt8) : Option (List UInt8) :=
  match pqGets buffer with
  | none => none
  | some (_, buffer) =>
      match pqGetnchar 18 buffer with
      | none => none
      | some (_, buffer) =>
          if extended then
            match pqGets buffer with
            | none => none
            | some (_, buffer) =>
                match pqGets buffer with
                | none => none
                | some (_, buffer) =>
                    match pqGets buffer with
                    | none => none
                    | some (_, buffer) =>
                        match pqGets buffer with
                        | none => none
                        | some (_, buffer) => (pqGetnchar 2 buffer).map Prod.snd
          else some buffer

def readAttDescs (extended : Bool) : Nat → List UInt8 → Option (List UInt8)
  | 0, buffer => some buffer
  | nfields + 1, buffer =>
      match readAttDesc extended buffer with
      | none => none
      | some buffer => readAttDescs extended nfields buffer

theorem pqGetInt_big {bytes value : Nat} (fits : value < 256 ^ bytes) (small : value < 2 ^ 31)
    (rest : List UInt8) : pqGetInt bytes (big bytes value ++ rest) = some ((value : Int), rest) := by
  have word : (big bytes value).length = bytes := big_length bytes value
  rw [pqGetInt, if_neg (by simp), List.take_left' word, List.drop_left' word, ofBig_big fits,
    signed_of_lt (by omega)]

theorem pqGets_text {text : List UInt8} (noZero : (0 : UInt8) ∉ text) (rest : List UInt8) :
    pqGets (text ++ 0 :: rest) = some (text, rest) := by
  induction text with
  | nil => simp [pqGets]
  | cons byte text ih =>
      rw [List.mem_cons, not_or] at noZero
      rw [List.cons_append, pqGets, if_neg (Ne.symm noZero.1), ih noZero.2]
      rfl

theorem pqGetnchar_append {len : Nat} {text : List UInt8} (length : text.length = len)
    (rest : List UInt8) : pqGetnchar len (text ++ rest) = some (text, rest) := by
  rw [pqGetnchar, if_neg (by simp [length]), List.take_left' length, List.drop_left' length]

/-! ## Messages -/

/-- A field of a row as a server writes it. -/
def encodeField : Field → List UInt8
  | none => big 4 (2 ^ 32 - 1)
  | some value => big 4 value.length ++ value

def encodeFields (fields : List Field) : List UInt8 := fields.flatMap encodeField

/-- A row of a result with `nfields` columns.  Its length fits the length word. -/
structure DataRow (nfields : Nat) where
  fields : List Field
  count : fields.length = nfields
  fits : (encodeFields fields).length + 6 < 2 ^ 31

/-- A column's description: its name, the six words after it and the extended metadata. -/
structure AttDesc (extended : Bool) where
  name : List UInt8
  numbers : List UInt8
  metadata : List (List UInt8)
  flags : List UInt8
  name_ok : (0 : UInt8) ∉ name
  numbers_length : numbers.length = 18
  metadata_length : metadata.length = if extended then 4 else 0
  metadata_ok : ∀ text ∈ metadata, (0 : UInt8) ∉ text
  flags_length : flags.length = if extended then 2 else 0

def AttDesc.encode {extended : Bool} (column : AttDesc extended) : List UInt8 :=
  column.name ++ 0 :: (column.numbers ++
    (column.metadata.flatMap (fun text => text ++ [0]) ++ column.flags))

structure RowDescription (extended : Bool) where
  columns : List (AttDesc extended)
  count : columns.length < 2 ^ 16
  fits : (columns.flatMap AttDesc.encode).length + 6 < 2 ^ 31

/-- The completion of a command.  The parser takes a short tag only. -/
structure CommandComplete where
  tag : List UInt8
  noZero : (0 : UInt8) ∉ tag
  short : tag.length + 5 ≤ 30000

def typeByte (id : Char) : UInt8 := UInt8.ofNat id.toNat

def RowDescription.encode {extended : Bool} (description : RowDescription extended) : List UInt8 :=
  frame (typeByte 'T')
    (big 2 description.columns.length ++ description.columns.flatMap AttDesc.encode)

def DataRow.encode {nfields : Nat} (row : DataRow nfields) : List UInt8 :=
  frame (typeByte 'D') (big 2 nfields ++ encodeFields row.fields)

def CommandComplete.encode (complete : CommandComplete) : List UInt8 :=
  frame (typeByte 'C') (complete.tag ++ [0])

def readyForQuery (xactStatus : UInt8) : List UInt8 := frame (typeByte 'Z') [xactStatus]

/-! ## Reading the messages back -/

theorem encodeField_length_le {field : Field} {fields : List Field} (member : field ∈ fields) :
    (encodeField field).length ≤ (encodeFields fields).length := by
  obtain ⟨before, after, rfl⟩ := List.append_of_mem member
  simp only [encodeFields, List.flatMap_append, List.flatMap_cons, List.length_append]
  omega

theorem readFields_encode {fields : List Field}
    (fits : ∀ field ∈ fields, (encodeField field).length < 2 ^ 31) (rest : List UInt8) :
    readFields fields.length (encodeFields fields ++ rest) = some (fields, rest) := by
  induction fields with
  | nil => rfl
  | cons field fields ih =>
      have tail := ih fun other member => fits other (List.mem_cons_of_mem _ member)
      have head := fits field (List.mem_cons_self ..)
      rw [List.length_cons, encodeFields, List.flatMap_cons, List.append_assoc, readFields]
      cases field with
      | none =>
          have minus : pqGetInt 4 (big 4 (2 ^ 32 - 1) ++ (encodeFields fields ++ rest)) =
              some (-1, encodeFields fields ++ rest) := by
            have word : (big 4 (2 ^ 32 - 1)).length = 4 := big_length 4 _
            rw [pqGetInt, if_neg (by simp), List.take_left' word, List.drop_left' word,
              ofBig_big (by norm_num), show signed 4 (2 ^ 32 - 1) = -1 by decide]
          simp only [encodeField]
          rw [← encodeFields, minus]
          simp only [if_true]
          rw [tail]
          rfl
      | some value =>
          simp only [encodeField, List.length_append, big_length] at head
          simp only [encodeField, List.append_assoc]
          rw [pqGetInt_big (by norm_num; omega) (by omega)]
          simp only
          rw [if_neg (by omega), Int.toNat_natCast, pqGetnchar_append rfl]
          simp only
          rw [← encodeFields, tail]
          rfl

/-- A row's fields read back. -/
theorem readFields_row {nfields : Nat} (row : DataRow nfields) (rest : List UInt8) :
    readFields nfields (encodeFields row.fields ++ rest) = some (row.fields, rest) := by
  have bounded : ∀ field ∈ row.fields, (encodeField field).length < 2 ^ 31 := by
    intro field member
    have le := encodeField_length_le member
    have fits := row.fits
    omega
  have back := readFields_encode bounded rest
  rwa [row.count] at back

theorem readAttDesc_encode {extended : Bool} (column : AttDesc extended) (rest : List UInt8) :
    readAttDesc extended (column.encode ++ rest) = some rest := by
  obtain ⟨name, numbers, metadata, flags, name_ok, numbers_length, metadata_length, metadata_ok,
    flags_length⟩ := column
  rw [readAttDesc, AttDesc.encode]
  simp only [List.append_assoc, List.cons_append]
  rw [pqGets_text name_ok]
  simp only
  rw [pqGetnchar_append numbers_length]
  simp only
  cases extended with
  | false =>
      have noMetadata : metadata = [] := by simpa using metadata_length
      have noFlags : flags = [] := by simpa using flags_length
      simp [noMetadata, noFlags]
  | true =>
      match metadata, metadata_length with
      | [schema, table, col, catalog], _ =>
          simp only [List.mem_cons, List.not_mem_nil, or_false, forall_eq_or_imp,
            forall_eq] at metadata_ok
          obtain ⟨schema_ok, table_ok, col_ok, catalog_ok⟩ := metadata_ok
          simp only [if_true, List.flatMap_cons, List.flatMap_nil, List.append_assoc,
            List.nil_append, List.cons_append]
          rw [pqGets_text schema_ok]
          simp only
          rw [pqGets_text table_ok]
          simp only
          rw [pqGets_text col_ok]
          simp only
          rw [pqGets_text catalog_ok]
          simp only
          rw [pqGetnchar_append (by simpa using flags_length)]
          rfl

theorem readAttDescs_encode {extended : Bool} (columns : List (AttDesc extended))
    (rest : List UInt8) :
    readAttDescs extended columns.length (columns.flatMap AttDesc.encode ++ rest) = some rest := by
  induction columns with
  | nil => rfl
  | cons column columns ih =>
      rw [List.length_cons, List.flatMap_cons, List.append_assoc, readAttDescs,
        readAttDesc_encode column]
      exact ih

end RedshiftOdbc.Libpq

import RedshiftOdbc.Descriptor.Fields

/-!
# What a refused update leaves behind

A call that sets fields finds or creates the record first, and an identifier that is not
known is refused behind that.  A copy empties the destination before it reads the
source, which may be the same descriptor.
-/

namespace RedshiftOdbc.Descriptor

open RedshiftOdbc.Keyed

inductive Update (Handle : Type) where
  | field (phdesc : Handle) (hRecNumber : Int) (field : FieldIdentifier) (value : FieldValue)
  | fields (phdesc : Handle) (values : RecValues)
  | copy (phdescSrc phdescDest : Handle)

namespace Descs

variable {Handle : Type} [DecidableEq Handle] (descs : Descs Handle)

def update : Update Handle → Option Diagnostic × Descs Handle
  | .field phdesc hRecNumber field value =>
      let result := (descs phdesc).setDescField hRecNumber field value false
      (result.1, descs.put phdesc result.2)
  | .fields phdesc values =>
      let result := (descs phdesc).setDescRec values
      (result.1, descs.put phdesc result.2)
  | .copy phdescSrc phdescDest => descs.copyDesc phdescSrc phdescDest false

end Descs

/-- The same header and the same records in all their fields. -/
def SameContents (before behind : Desc) : Prop :=
  behind.pDescRecHead = before.pDescRecHead ∧ behind.pDescHeader = before.pDescHeader

namespace Descs

variable {Handle : Type} [DecidableEq Handle] (descs : Descs Handle)

/-- A refused call changes nothing; a copy gives the destination what the source keeps. -/
def AllOrNothing (call : Update Handle) : Prop :=
  ((descs.update call).1.isSome = true →
    ∀ phdesc, SameContents (descs phdesc) ((descs.update call).2 phdesc)) ∧
  ∀ phdescSrc phdescDest, call = .copy phdescSrc phdescDest → (descs.update call).1 = none →
    SameContents (descs phdescSrc) ((descs.update call).2 phdescSrc) ∧
    ((descs.update call).2 phdescDest).pDescRecHead = (descs phdescSrc).pDescRecHead ∧
    ((descs.update call).2 phdescDest).pDescHeader = { (descs phdescSrc).pDescHeader with
      hAllocType := (descs phdescDest).pDescHeader.hAllocType }

/--
An identifier that is not known comes for a record that is there, for an array or for no
number of a record.  A copy is refused, or goes from a descriptor without data sent for
its records to another one, or from an empty one; headers are valid until they are freed.
-/
def Tidy : Update Handle → Prop
  | .field phdesc hRecNumber (.record (.other _)) _ =>
      0 < hRecNumber → (descs phdesc).findDescRec hRecNumber = none →
        (descs phdesc).iRecListType = .arrayList
  | .field _ _ _ _ => True
  | .fields _ _ => True
  | .copy phdescSrc phdescDest =>
      (descs phdescDest).iType ≠ .ird → (descs phdescDest).iType ≠ .ipd →
        (phdescSrc = phdescDest → (descs phdescSrc).pDescRecHead = []) ∧
        (∀ pDescRec ∈ (descs phdescSrc).pDescRecHead, pDescRec.pDataAtExec = 0) ∧
        (((descs phdescDest).pDescHeader.valid = true ∧
            (descs phdescSrc).pDescHeader.valid = true) ∨
          (descs phdescDest).pDescHeader = { (descs phdescSrc).pDescHeader with
            hAllocType := (descs phdescDest).pDescHeader.hAllocType })

end Descs

/-! ## Setting fields -/

namespace Desc

variable {pDesc : Desc}

theorem sameContents_refl (pDesc : Desc) : SameContents pDesc pDesc := ⟨rfl, rfl⟩

theorem setCount_refused {hVal : Int} (refused : (pDesc.setCount hVal).1.isSome = true) :
    (pDesc.setCount hVal).2 = pDesc := by
  by_cases invalid : hVal < 0 ∨ (hVal = 0 ∧
      ¬((pDesc.iType = .apd ∨ pDesc.iType = .ard) ∧ pDesc.iRecListType = .linkedList))
  · rw [setCount, if_pos invalid]
  · rw [setCount, if_neg invalid] at refused
    cases refused

theorem setHeaderField_refused {field : HeaderField} {value : FieldValue}
    (refused : (pDesc.setHeaderField field value).1.isSome = true) :
    (pDesc.setHeaderField field value).2 = pDesc := by
  cases field with
  | count => exact setCount_refused refused
  | allocType => rfl
  | arraySize | bindType =>
      revert refused
      dsimp only [setHeaderField]
      split_ifs
      · exact fun _ => rfl
      · intro refused
        cases refused
  | _ => cases refused

/-- A known field of a record is refused in front of the record only. -/
theorem setRecordField_refused {hRecNumber : Int} {field : RecordField} {value : FieldValue}
    (known : ∀ hFieldIdentifier, field ≠ .other hFieldIdentifier)
    (refused : (pDesc.setRecordField hRecNumber field value).1.isSome = true) :
    (pDesc.setRecordField hRecNumber field value).2 = pDesc := by
  revert refused
  rw [setRecordField]
  split_ifs
  · exact fun _ => rfl
  · cases pDesc.checkAndAddDescRec hRecNumber true with
    | none => exact fun _ => rfl
    | some added =>
        cases field with
        | other hFieldIdentifier => exact absurd rfl (known hFieldIdentifier)
        | _ =>
            intro refused
            cases refused

theorem setDescField_refused {hRecNumber : Int} {field : FieldIdentifier} {value : FieldValue}
    (known : ∀ hFieldIdentifier, field ≠ .record (.other hFieldIdentifier))
    (refused : (pDesc.setDescField hRecNumber field value false).1.isSome = true) :
    (pDesc.setDescField hRecNumber field value false).2 = pDesc := by
  revert refused
  rw [setDescField.eq_def]
  cases field with
  | record field =>
      dsimp only
      split_ifs
      · exact fun _ => rfl
      · exact setRecordField_refused fun hFieldIdentifier same =>
          known hFieldIdentifier (congrArg FieldIdentifier.record same)
  | header field =>
      dsimp only
      split_ifs
      · exact fun _ => rfl
      · exact fun _ => rfl
      · exact setHeaderField_refused

theorem setDescRec_refused {values : RecValues}
    (refused : (pDesc.setDescRec values).1.isSome = true) :
    (pDesc.setDescRec values).2 = pDesc := by
  revert refused
  rw [setDescRec]
  split_ifs
  · exact fun _ => rfl
  · exact fun _ => rfl
  · intro refused
    cases refused
  · cases pDesc.checkAndAddDescRec values.hRecNumber true with
    | none => exact fun _ => rfl
    | some added =>
        intro refused
        cases refused

/-- An identifier that is not known is always refused, and adds the record that is missing. -/
theorem setDescField_other (hRecNumber hFieldIdentifier : Int) (value : FieldValue) :
    (pDesc.setDescField hRecNumber (.record (.other hFieldIdentifier)) value false).1.isSome =
        true ∧
      (SameContents pDesc
          (pDesc.setDescField hRecNumber (.record (.other hFieldIdentifier)) value false).2 ↔
        (0 < hRecNumber → pDesc.findDescRec hRecNumber = none →
          pDesc.iRecListType = .arrayList)) := by
  have writable : pDesc.isWritableField (.record (.other hFieldIdentifier)) = true := by
    simp [isWritableField, FieldIdentifier.writableFor]
  rw [setDescField, Bool.false_or, if_neg (by simp [writable]), setRecordField]
  by_cases number : hRecNumber ≤ 0
  · rw [if_pos number]
    exact ⟨rfl, iff_of_true (sameContents_refl pDesc) fun positive => by omega⟩
  · rw [if_neg number, checkAndAddDescRec]
    cases found : pDesc.findDescRec hRecNumber with
    | some pDescRec =>
        refine ⟨rfl, iff_of_true (sameContents_refl pDesc) fun _ missing => ?_⟩
        cases missing
    | none =>
        cases list : pDesc.iRecListType with
        | arrayList => exact ⟨rfl, iff_of_true (sameContents_refl pDesc) fun _ _ => rfl⟩
        | linkedList =>
            refine ⟨rfl, iff_of_false (fun same => ?_) fun array => ?_⟩
            · have longer := congrArg List.length same.1
              simp [addDescriptorRec] at longer
            · cases array (by omega) rfl

end Desc

/-! ## Copies -/

namespace Descs

variable {Handle : Type} [DecidableEq Handle] {descs : Descs Handle}

@[simp]
theorem put_self (phdesc : Handle) (pDesc : Desc) : descs.put phdesc pDesc phdesc = pDesc :=
  Function.update_self ..

@[simp]
theorem put_other {phdesc other : Handle} (apart : other ≠ phdesc) (pDesc : Desc) :
    descs.put phdesc pDesc other = descs other :=
  Function.update_of_ne apart ..

/-- Nothing changes where the written descriptor does not. -/
theorem sameContents_put_iff {phdesc : Handle} {pDesc : Desc} :
    (∀ other, SameContents (descs other) (descs.put phdesc pDesc other)) ↔
      SameContents (descs phdesc) pDesc := by
  constructor
  · intro every
    simpa using every phdesc
  · intro same other
    by_cases here : other = phdesc
    · rw [here, put_self]
      exact same
    · rw [put_other here]
      exact Desc.sameContents_refl _

/-- The destination of a copy that is not refused. -/
theorem copyDesc_destination {phdescSrc phdescDest : Handle}
    (taken : (descs phdescDest).iType ≠ .ird ∧ (descs phdescDest).iType ≠ .ipd) :
    (descs.copyDesc phdescSrc phdescDest false).1 = none ∧
      (∀ other, other ≠ phdescDest →
        (descs.copyDesc phdescSrc phdescDest false).2 other = descs other) ∧
      (descs.copyDesc phdescSrc phdescDest false).2 phdescDest =
        { (descs phdescDest).receive (descs phdescSrc) with
          pDescRecHead :=
            if phdescSrc = phdescDest then []
            else (descs phdescSrc).pDescRecHead.map DescRec.copied } := by
  rw [copyDesc, if_neg (by simp [taken])]
  refine ⟨rfl, fun other apart => by simp [apart], ?_⟩
  by_cases same : phdescSrc = phdescDest
  · simp [same, Desc.receive, Desc.releaseDescriptorRecs]
  · simp [same, Desc.receive, Desc.releaseDescriptorRecs]

theorem copied_eq_iff {pDescRec : DescRec} : pDescRec.copied = pDescRec ↔
    pDescRec.pDataAtExec = 0 := by
  constructor
  · intro same
    rw [← same]
    rfl
  · intro nothing
    rw [DescRec.copied, ← nothing]

theorem map_copied_iff {recs : List DescRec} : recs.map DescRec.copied = recs ↔
    ∀ pDescRec ∈ recs, pDescRec.pDataAtExec = 0 := by
  simp only [← copied_eq_iff]
  exact ⟨List.map_inj_left.mp ∘ fun same => same.trans (List.map_id _).symm,
    fun each => (List.map_inj_left.mpr each).trans (List.map_id _)⟩

/-- The header of the destination is that of the source, up to the allocation type. -/
theorem receive_header_iff {pDescDest pDescSrc : Desc} :
    (pDescDest.receive pDescSrc).pDescHeader = { pDescSrc.pDescHeader with
        hAllocType := pDescDest.pDescHeader.hAllocType } ↔
      (pDescDest.pDescHeader.valid = true ∧ pDescSrc.pDescHeader.valid = true) ∨
        pDescDest.pDescHeader = { pDescSrc.pDescHeader with
          hAllocType := pDescDest.pDescHeader.hAllocType } := by
  change (if pDescDest.pDescHeader.valid = true ∧ pDescSrc.pDescHeader.valid = true then _
    else _) = _ ↔ _
  split_ifs with valid
  · exact iff_of_true rfl (Or.inl valid)
  · rw [or_iff_right valid]

/-- A copy that is taken is right exactly when its condition holds. -/
theorem copyDesc_iff {phdescSrc phdescDest : Handle}
    (taken : (descs phdescDest).iType ≠ .ird ∧ (descs phdescDest).iType ≠ .ipd) :
    (SameContents (descs phdescSrc) ((descs.copyDesc phdescSrc phdescDest false).2 phdescSrc) ∧
      ((descs.copyDesc phdescSrc phdescDest false).2 phdescDest).pDescRecHead =
        (descs phdescSrc).pDescRecHead ∧
      ((descs.copyDesc phdescSrc phdescDest false).2 phdescDest).pDescHeader =
        { (descs phdescSrc).pDescHeader with
          hAllocType := (descs phdescDest).pDescHeader.hAllocType }) ↔
    descs.Tidy (.copy phdescSrc phdescDest) := by
  obtain ⟨-, others, destination⟩ := @copyDesc_destination _ _ descs phdescSrc _ taken
  have condition : descs.Tidy (.copy phdescSrc phdescDest) ↔
      (phdescSrc = phdescDest → (descs phdescSrc).pDescRecHead = []) ∧
        (∀ pDescRec ∈ (descs phdescSrc).pDescRecHead, pDescRec.pDataAtExec = 0) ∧
        ((descs phdescDest).receive (descs phdescSrc)).pDescHeader =
          { (descs phdescSrc).pDescHeader with
            hAllocType := (descs phdescDest).pDescHeader.hAllocType } := by
    rw [receive_header_iff]
    exact ⟨fun tidy => tidy taken.1 taken.2, fun tidy _ _ => tidy⟩
  rw [condition, destination]
  by_cases same : phdescSrc = phdescDest
  · subst same
    rw [destination, SameContents]
    have header : ((descs phdescSrc).receive (descs phdescSrc)).pDescHeader =
        (descs phdescSrc).pDescHeader := receive_header_iff.mpr (Or.inr rfl)
    simp only [if_true, header, true_imp_iff, and_true]
    constructor
    · rintro ⟨empty, -⟩
      exact ⟨empty.symm, by simp [← empty]⟩
    · rintro ⟨empty, -⟩
      exact ⟨empty.symm, empty.symm⟩
  · rw [others phdescSrc same, if_neg same]
    simp only [map_copied_iff, same, false_imp_iff, true_and]
    exact ⟨fun copied => copied.2, fun copied => ⟨⟨rfl, rfl⟩, copied⟩⟩

/-! ## Every update -/

omit [DecidableEq Handle] in
theorem tidy_known {phdesc : Handle} {hRecNumber : Int} {field : FieldIdentifier}
    {value : FieldValue}
    (known : ∀ hFieldIdentifier, field ≠ .record (.other hFieldIdentifier)) :
    descs.Tidy (.field phdesc hRecNumber field value) := by
  cases field with
  | header field => trivial
  | record field =>
      cases field with
      | other hFieldIdentifier => exact absurd rfl (known hFieldIdentifier)
      | _ => trivial

/--
A call is all or nothing exactly when it does not name an unknown identifier for a record
that it adds, and copies neither a descriptor with records onto itself nor sent data.
-/
theorem allOrNothing_iff (descs : Descs Handle) (call : Update Handle) :
    descs.AllOrNothing call ↔ descs.Tidy call := by
  cases call with
  | field phdesc hRecNumber field value =>
      have only : descs.AllOrNothing (.field phdesc hRecNumber field value) ↔
          (((descs phdesc).setDescField hRecNumber field value false).1.isSome = true →
            SameContents (descs phdesc)
              ((descs phdesc).setDescField hRecNumber field value false).2) := by
        rw [← sameContents_put_iff]
        exact and_iff_left nofun
      rw [only]
      by_cases known : ∀ hFieldIdentifier, field ≠ .record (.other hFieldIdentifier)
      · refine iff_of_true (fun refused => ?_) ?_
        · rw [Desc.setDescField_refused known refused]
          exact Desc.sameContents_refl _
        · exact tidy_known known
      · obtain ⟨hFieldIdentifier, rfl⟩ : ∃ hFieldIdentifier,
            field = .record (.other hFieldIdentifier) := by simpa using known
        obtain ⟨refused, unchanged⟩ :=
          (descs phdesc).setDescField_other hRecNumber hFieldIdentifier value
        rw [forall_prop_of_true refused, unchanged]
        rfl
  | fields phdesc values =>
      refine iff_of_true ⟨fun refused => sameContents_put_iff.mpr ?_, nofun⟩ trivial
      rw [Desc.setDescRec_refused refused]
      exact Desc.sameContents_refl _
  | copy phdescSrc phdescDest =>
      by_cases taken : (descs phdescDest).iType ≠ .ird ∧ (descs phdescDest).iType ≠ .ipd
      · obtain ⟨success, -⟩ := @copyDesc_destination _ _ descs phdescSrc _ taken
        rw [← copyDesc_iff taken]
        constructor
        · intro whole
          exact whole.2 phdescSrc phdescDest rfl success
        · intro copied
          refine ⟨fun refused => ?_, ?_⟩
          · rw [update, success] at refused
            cases refused
          · rintro _ _ ⟨⟩ -
            exact copied
      · have implementation :
            (descs phdescDest).iType = .ird ∨ (descs phdescDest).iType = .ipd := by
          rwa [not_and_or, not_not, not_not] at taken
        have refused : descs.copyDesc phdescSrc phdescDest false =
            (some ("HY016", "Cannot modify an implementation descriptor"), descs) := by
          rw [copyDesc, if_pos ⟨rfl, implementation⟩]
        refine iff_of_true ⟨fun _ phdesc => ?_, ?_⟩ fun row parameters => ?_
        · rw [update, refused]
          exact Desc.sameContents_refl _
        · rintro _ _ ⟨⟩ success
          rw [update, refused] at success
          cases success
        · exact absurd ⟨row, parameters⟩ taken

/-- A bound column, and a statement's own descriptor of parameters. -/
def applicationDescs (parameters : Bool) : Desc where
  iType := if parameters then .apd else .ard
  pDescHeader := { hAllocType := 1 }
  pDescRecHead := [{ hRecNumber := 1, pValue := 1000 }]

/-- An unknown identifier adds a record, and a copy onto itself loses all of them. -/
theorem allOrNothing_wrong :
    ¬AllOrNothing applicationDescs (.field false 2 (.record (.other 9999)) ⟨0, [], 0⟩) ∧
      ¬AllOrNothing applicationDescs (.copy true true) := by
  refine ⟨fun whole => ?_, fun whole => ?_⟩
  · exact absurd (congrArg List.length (whole.1 rfl false).1) (by decide)
  · exact absurd (congrArg List.length (whole.2 true true rfl rfl).2.1) (by decide)

end Descs

end RedshiftOdbc.Descriptor

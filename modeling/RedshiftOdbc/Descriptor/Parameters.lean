import RedshiftOdbc.Descriptor.Records
import RedshiftOdbc.Library.Machine

/-!
# The counters of the OUT parameters

A statement counts its OUT and INOUT parameters when it creates their records, and from
the counters an execution decides which types it sends and which values it reads back.
-/

namespace RedshiftOdbc.Descriptor

open RedshiftOdbc.Keyed RedshiftOdbc.Machine

def sqlParamInputOutput : Int := 2

def sqlParamOutput : Int := 4

/-- The fields of `RS_STMT_INFO` that a binding reads and writes. -/
structure Stmt where
  pAPD : Desc
  iNumOfOutOnlyParams : Int := 0
  iNumOfInOutOnlyParams : Int := 0
  deriving DecidableEq, Repr

namespace Stmt

def allocated : Stmt where
  pAPD := { iType := .apd, pDescHeader := { hAllocType := 1 } }

variable (outside : Int → Int) (pStmt : Stmt)

def bindParameter (param : ParamBinding) : Option Diagnostic × Stmt :=
  let (rc, pAPD, iNewDescRec) := pStmt.pAPD.bindParameter outside param
  if iNewDescRec then
    if param.hInOutType = sqlParamOutput then
      (rc, { pStmt with pAPD, iNumOfOutOnlyParams := pStmt.iNumOfOutOnlyParams + 1 })
    else if param.hInOutType = sqlParamInputOutput then
      (rc, { pStmt with pAPD, iNumOfInOutOnlyParams := pStmt.iNumOfInOutOnlyParams + 1 })
    else (rc, { pStmt with pAPD })
  else (rc, { pStmt with pAPD })

/-- A call on the statement, whether it is refused or not. -/
def bind (param : ParamBinding) : Option Stmt := some (pStmt.bindParameter outside param).2

def directed (hInOutType : Int) : Nat :=
  pStmt.pAPD.pDescRecHead.countP fun pDescRec => pDescRec.hInOutType = hInOutType

/-- The counters are the numbers of the records, and no parameter has two records. -/
structure Counted : Prop where
  output : pStmt.iNumOfOutOnlyParams = pStmt.directed sqlParamOutput
  inputOutput : pStmt.iNumOfInOutOnlyParams = pStmt.directed sqlParamInputOutput
  unique : pStmt.pAPD.numbers.Nodup

/-- A parameter that is bound already keeps its kind of direction, and only others are unbound. -/
def KeepsKind (param : ParamBinding) : Prop :=
  param.refused outside = none →
    ∀ pDescRec ∈ pStmt.pAPD.findDescRec param.hRecNumber,
      if param.unbinds then
        pDescRec.hInOutType ≠ sqlParamOutput ∧ pDescRec.hInOutType ≠ sqlParamInputOutput
      else
        (pDescRec.hInOutType = sqlParamOutput ↔ param.hInOutType = sqlParamOutput) ∧
          (pDescRec.hInOutType = sqlParamInputOutput ↔ param.hInOutType = sqlParamInputOutput)

variable {outside pStmt} {param : ParamBinding}

/-! ## One binding -/

theorem bindParameter_pAPD : (pStmt.bindParameter outside param).2.pAPD =
    (pStmt.pAPD.bindParameter outside param).2.1 := by
  rw [bindParameter]
  obtain ⟨rc, pAPD, iNewDescRec⟩ := pStmt.pAPD.bindParameter outside param
  dsimp only
  split_ifs <;> rfl

/-- The counters are changed for a record that was created. -/
theorem bindParameter_counters :
    (pStmt.bindParameter outside param).2.iNumOfOutOnlyParams = pStmt.iNumOfOutOnlyParams +
        (if (pStmt.pAPD.bindParameter outside param).2.2 = true ∧
            param.hInOutType = sqlParamOutput then 1 else 0) ∧
      (pStmt.bindParameter outside param).2.iNumOfInOutOnlyParams = pStmt.iNumOfInOutOnlyParams +
        (if (pStmt.pAPD.bindParameter outside param).2.2 = true ∧
            param.hInOutType = sqlParamInputOutput then 1 else 0) := by
  rw [bindParameter]
  obtain ⟨rc, pAPD, iNewDescRec⟩ := pStmt.pAPD.bindParameter outside param
  cases iNewDescRec with
  | false => simp
  | true =>
      by_cases output : param.hInOutType = sqlParamOutput
      · simp [output, sqlParamOutput, sqlParamInputOutput]
      · by_cases inputOutput : param.hInOutType = sqlParamInputOutput
        · simp [inputOutput, sqlParamOutput, sqlParamInputOutput]
        · simp [output, inputOutput]

theorem bindParameter_linked (linked : pStmt.pAPD.iRecListType = .linkedList) :
    (pStmt.bindParameter outside param).2.pAPD.iRecListType = .linkedList := by
  rw [bindParameter_pAPD]
  rcases pStmt.pAPD.bindParameter_cases outside param with
    ⟨-, same⟩ | ⟨-, -, removed⟩ | ⟨-, -, ⟨_, -, changed⟩ | ⟨-, -, added⟩ | ⟨-, -, same⟩⟩
  · rw [same]
    exact linked
  · rw [removed, Desc.releaseDescriptorRecByNum, if_pos linked]
    exact linked
  · rw [changed]
    exact linked
  · rw [added]
    exact linked
  · rw [same]
    exact linked

/-- No binding gives a parameter a second record. -/
theorem bindParameter_unique (unique : pStmt.pAPD.numbers.Nodup) :
    (pStmt.bindParameter outside param).2.pAPD.numbers.Nodup := by
  rw [bindParameter_pAPD]
  rcases pStmt.pAPD.bindParameter_cases outside param with
    ⟨-, same⟩ | ⟨-, -, removed⟩ | ⟨-, -, ⟨_, -, changed⟩ | ⟨missing, -, added⟩ | ⟨-, -, same⟩⟩
  · rw [same]
    exact unique
  · rw [removed]
    exact Desc.numbers_releaseByNum unique
  · have same : (pStmt.pAPD.update param.hRecNumber param.store).numbers = pStmt.pAPD.numbers :=
      Desc.numbers_update fun _ => rfl
    rw [changed, same]
    exact unique
  · rw [added]
    exact Desc.numbers_add unique (find_none_iff.mp missing) rfl
  · rw [same]
    exact unique

/-- The records of a direction grow by a record that was created, and otherwise stay as many. -/
theorem directed_bindParameter_iff (linked : pStmt.pAPD.iRecListType = .linkedList)
    (hInOutType : Int) :
    ((pStmt.bindParameter outside param).2.directed hInOutType : Int) =
        pStmt.directed hInOutType + (if (pStmt.pAPD.bindParameter outside param).2.2 = true ∧
            param.hInOutType = hInOutType then 1 else 0) ↔
      (param.refused outside = none →
        ∀ pDescRec ∈ pStmt.pAPD.findDescRec param.hRecNumber,
          if param.unbinds then pDescRec.hInOutType ≠ hInOutType
          else (pDescRec.hInOutType = hInOutType ↔ param.hInOutType = hInOutType)) := by
  rw [directed, directed, bindParameter_pAPD]
  rcases pStmt.pAPD.bindParameter_cases outside param with
    ⟨refused, same⟩ | ⟨taken, unbinds, removed⟩ |
      ⟨taken, unbinds, ⟨pDescRec, found, changed⟩ | ⟨missing, -, added⟩ | ⟨-, array, -⟩⟩
  · rw [same]
    refine iff_of_true (by simp) fun taken => ?_
    rw [taken] at refused
    cases refused
  · rw [removed, Desc.releaseDescriptorRecByNum, if_pos linked]
    simp only [taken, unbinds, true_imp_iff, if_true, Bool.false_eq_true, false_and, if_false,
      add_zero, Nat.cast_inj]
    cases found : pStmt.pAPD.findDescRec param.hRecNumber with
    | none => simp [remove_of_find_none found]
    | some pDescRec =>
        have count := countP_remove
          (fun pDescRec : DescRec => decide (pDescRec.hInOutType = hInOutType)) found
        by_cases same : pDescRec.hInOutType = hInOutType
        · simp only [same, decide_true, Bool.toNat_true] at count
          simp only [Option.mem_some_iff, forall_eq', same]
          omega
        · simp only [same, decide_false, Bool.toNat_false] at count
          simpa [same] using count
  · rw [changed]
    simp only [taken, unbinds, true_imp_iff, if_false, Bool.false_eq_true, false_and, add_zero,
      Nat.cast_inj, found, Option.mem_some_iff, forall_eq']
    have count := @countP_modify _ _ _ _ _ param.store _ _
      (fun pDescRec : DescRec => decide (pDescRec.hInOutType = hInOutType)) found
    have stored : (param.store pDescRec).hInOutType = param.hInOutType := rfl
    rw [stored] at count
    rw [Desc.update]
    by_cases before : pDescRec.hInOutType = hInOutType <;>
      by_cases behind : param.hInOutType = hInOutType <;>
      simp only [before, behind, decide_true, decide_false, Bool.toNat_true,
        Bool.toNat_false] at count <;>
      simp only [before, behind, iff_true, iff_false, not_true_eq_false] <;>
      omega
  · rw [added]
    have stored : (param.store (pStmt.pAPD.newRec param.hRecNumber)).hInOutType =
        param.hInOutType := rfl
    refine iff_of_true ?_ fun _ pDescRec found => ?_
    · simp [Desc.addDescriptorRec, stored, List.countP_append]
    · rw [missing] at found
      cases found
  · rw [linked] at array
    cases array

/-- A binding keeps the counters right exactly when it keeps the kinds. -/
theorem counted_bindParameter_iff (linked : pStmt.pAPD.iRecListType = .linkedList)
    (counted : pStmt.Counted) :
    (pStmt.bindParameter outside param).2.Counted ↔ pStmt.KeepsKind outside param := by
  have output := @directed_bindParameter_iff outside pStmt param linked sqlParamOutput
  have inputOutput := @directed_bindParameter_iff outside pStmt param linked sqlParamInputOutput
  obtain ⟨outCounter, inOutCounter⟩ :=
    @bindParameter_counters outside pStmt param
  rw [counted.output] at outCounter
  rw [counted.inputOutput] at inOutCounter
  constructor
  · intro behind refused pDescRec found
    have first := output.mp (behind.output.symm.trans outCounter) refused pDescRec found
    have second :=
      inputOutput.mp (behind.inputOutput.symm.trans inOutCounter) refused pDescRec found
    split_ifs at first second ⊢ <;> exact ⟨first, second⟩
  · intro keeps
    refine ⟨outCounter.trans (output.mpr ?_).symm, inOutCounter.trans (inputOutput.mpr ?_).symm,
      bindParameter_unique counted.unique⟩
    · intro refused pDescRec found
      have kept := keeps refused pDescRec found
      split_ifs at kept ⊢ <;> exact kept.1
    · intro refused pDescRec found
      have kept := keeps refused pDescRec found
      split_ifs at kept ⊢ <;> exact kept.2

/-! ## Every sequence of bindings -/

theorem allocated_counted : allocated.Counted where
  output := rfl
  inputOutput := rfl
  unique := List.nodup_nil

/--
Along a sequence of bindings the counters are right exactly when every rebinding keeps the
kind of the direction and only parameters of other directions are unbound.
-/
theorem counters_iff (outside : Int → Int) (params : List ParamBinding) :
    (∀ pStmt ∈ visited (bind outside) allocated params, pStmt.Counted) ↔
      Guarded (bind outside) (KeepsKind outside) allocated params := by
  let shape : Stmt → Prop := fun pStmt => pStmt.pAPD.iRecListType = .linkedList
  refine @visited_iff_guarded _ _ _ _ shape Counted ?_ ?_ _ rfl
    allocated_counted params
  · rintro pStmt param _ linked ⟨⟩
    exact bindParameter_linked linked
  · rintro pStmt param _ linked counted ⟨⟩
    exact counted_bindParameter_iff linked counted

/-- A number that is bound with a direction. -/
def number (hInOutType : Int) (pValue : Pointer) : ParamBinding where
  hParam := 1
  hInOutType
  hType := 4
  hSQLType := 4
  iColSize := 0
  hScale := 0
  pValue
  cbLen := 0
  pcbLenInd := 0

/-- An OUT parameter is rebound as an IN parameter, or unbound, and is still counted. -/
theorem counters_wrong :
    (∃ pStmt ∈ visited (bind fun _ => sqlNoType) allocated
        [number sqlParamOutput 1000, number sqlParamInput 1000],
      pStmt.iNumOfOutOnlyParams = 1 ∧ pStmt.directed sqlParamOutput = 0) ∧
    ∃ pStmt ∈ visited (bind fun _ => sqlNoType) allocated
        [number sqlParamOutput 1000, number sqlParamOutput 0],
      pStmt.iNumOfOutOnlyParams = 1 ∧ pStmt.pAPD.pDescRecHead = [] := by
  decide

end Stmt

end RedshiftOdbc.Descriptor

import RedshiftOdbc.Descriptor.Updates
import RedshiftOdbc.Library.Machine

/-!
# The count of the records

The header keeps the highest number of a record once it has been read or set, and
nothing that adds or removes a record changes it.  A tally is what the count depends on:
the numbers, the number that is kept and whether the records are an array.  Every call
makes one move on the tally of one descriptor.
-/

namespace RedshiftOdbc.Descriptor

open RedshiftOdbc.Keyed RedshiftOdbc.Machine

/-- The highest of some numbers, zero where there is none. -/
def Highest (numbers : List Int) (count : Int) : Prop :=
  (numbers = [] ∧ count = 0) ∨ (count ∈ numbers ∧ ∀ number ∈ numbers, number ≤ count)

/-- The loop of `findHighestRecCount`. -/
def highestOf (numbers : List Int) : Int :=
  numbers.foldl (fun hHighestCount hRecNumber =>
    if hRecNumber > hHighestCount then hRecNumber else hHighestCount) 0

/-! ## Tallies -/

structure Tally where
  numbers : List Int
  hHighestCount : Int
  /-- The records are an array. -/
  array : Bool
  valid : Bool
  deriving DecidableEq, Repr

namespace Tally

variable (tally : Tally)

/-- What a read of the count returns. -/
def count : Int :=
  if tally.hHighestCount = 0 then highestOf tally.numbers else tally.hHighestCount

/-- A read would return the highest number, and no number is there twice. -/
structure Right : Prop where
  valid : tally.valid = true
  unique : tally.numbers.Nodup
  highest : Highest tally.numbers tally.count

end Tally

inductive Move where
  | stay
  | read
  | add (hRecNumber : Int) (iAtFront : Bool)
  | remove (hRecNumber : Int)
  | clear
  | count (hVal : Int)
  | take (tally : Tally)
  | lose

namespace Move

def added (hRecNumber : Int) (iAtFront : Bool) (numbers : List Int) : List Int :=
  if hRecNumber ∈ numbers then numbers
  else if iAtFront then hRecNumber :: numbers else numbers ++ [hRecNumber]

def apply (tally : Tally) : Move → Tally
  | stay => tally
  | read => { tally with hHighestCount := tally.count }
  | add hRecNumber iAtFront =>
      if tally.array then tally
      else { tally with numbers := added hRecNumber iAtFront tally.numbers }
  | remove hRecNumber =>
      if tally.array then tally else { tally with numbers := tally.numbers.erase hRecNumber }
  | clear => { tally with numbers := [], hHighestCount := 0 }
  | count hVal =>
      if tally.array then { tally with hHighestCount := hVal }
      else
        { tally with
          numbers := (if hVal ≠ 0 then added hVal true tally.numbers else tally.numbers).filter
            (· ≤ hVal)
          hHighestCount := hVal }
  | take tally => tally
  | lose => { tally with numbers := [], array := false }

/--
The moves that leave the count right.  A record is not added above a count that is kept,
nor the one with that number removed.  Without a kept count there is, with any record, one
whose number is not negative.  A count that is set for an array is the one it has, and no
count is kept when all records are lost.
-/
def Fits (tally : Tally) : Move → Prop
  | stay | read | clear | take _ => True
  | add hRecNumber _ =>
      tally.array = false → hRecNumber ∉ tally.numbers →
        if tally.hHighestCount = 0 then (∃ number, number ∈ tally.numbers) ∨ 0 ≤ hRecNumber
        else hRecNumber ≤ tally.hHighestCount
  | remove hRecNumber =>
      tally.array = false → hRecNumber ∈ tally.numbers →
        if tally.hHighestCount = 0 then
          (∃ number ∈ tally.numbers, number ≠ hRecNumber) →
            ∃ number ∈ tally.numbers, number ≠ hRecNumber ∧ 0 ≤ number
        else hRecNumber ≠ tally.hHighestCount
  | count hVal =>
      if tally.array then Highest tally.numbers hVal
      else hVal = 0 → (∃ number ∈ tally.numbers, number < 0) → 0 ∈ tally.numbers
  | lose => tally.hHighestCount = 0

/-- What the calls see to: no zero is set for an array, and what is taken was right. -/
def Legal (tally : Tally) : Move → Prop
  | count hVal => tally.array = true → hVal ≠ 0
  | take other => other.Right
  | _ => True

end Move

/-! ## The loop -/

theorem highestOf_foldl (numbers : List Int) (start : Int) :
    start ≤ numbers.foldl (fun hHighestCount hRecNumber =>
        if hRecNumber > hHighestCount then hRecNumber else hHighestCount) start ∧
      (∀ number ∈ numbers, number ≤ numbers.foldl (fun hHighestCount hRecNumber =>
        if hRecNumber > hHighestCount then hRecNumber else hHighestCount) start) ∧
      (numbers.foldl (fun hHighestCount hRecNumber =>
        if hRecNumber > hHighestCount then hRecNumber else hHighestCount) start ∈
          start :: numbers) := by
  induction numbers generalizing start with
  | nil => simp
  | cons number numbers ih =>
      obtain ⟨low, every, among⟩ := ih (if number > start then number else start)
      rw [List.foldl_cons]
      refine ⟨?_, ?_, ?_⟩
      · split_ifs at low ⊢ <;> omega
      · intro other member
        rcases List.mem_cons.mp member with rfl | member
        · split_ifs at low ⊢ <;> omega
        · exact every other member
      · rcases List.mem_cons.mp among with same | member
        · rw [same]
          split_ifs <;> simp
        · exact List.mem_cons_of_mem _ (List.mem_cons_of_mem _ member)

/-- The loop finds the highest number unless all numbers are negative. -/
theorem highest_highestOf_iff (numbers : List Int) :
    Highest numbers (highestOf numbers) ↔
      (numbers ≠ [] → ∃ number ∈ numbers, 0 ≤ number) := by
  obtain ⟨low, every, among⟩ := highestOf_foldl numbers 0
  change 0 ≤ highestOf numbers at low
  change ∀ number ∈ numbers, number ≤ highestOf numbers at every
  change highestOf numbers ∈ 0 :: numbers at among
  constructor
  · rintro (⟨empty, -⟩ | ⟨member, -⟩) some_number
    · exact absurd empty some_number
    · exact ⟨_, member, low⟩
  · intro nonneg
    by_cases empty : numbers = []
    · exact Or.inl ⟨empty, by rw [empty]; rfl⟩
    · obtain ⟨number, member, nonneg⟩ := nonneg empty
      refine Or.inr ⟨?_, every⟩
      rcases List.mem_cons.mp among with zero | member
      · have below := every number member
        have same : number = highestOf numbers := by omega
        exact same ▸ member
      · exact member

/-- Whether a read is right depends on which numbers there are. -/
theorem Tally.highest_iff (tally : Tally) : Highest tally.numbers tally.count ↔
    if tally.hHighestCount = 0 then
      (∃ number, number ∈ tally.numbers) → ∃ number ∈ tally.numbers, 0 ≤ number
    else tally.hHighestCount ∈ tally.numbers ∧
      ∀ number ∈ tally.numbers, number ≤ tally.hHighestCount := by
  rw [Tally.count]
  split_ifs with none
  · have some_number : tally.numbers ≠ [] ↔ ∃ number, number ∈ tally.numbers :=
      ⟨List.exists_mem_of_ne_nil _, fun found => List.ne_nil_of_mem found.choose_spec⟩
    rw [highest_highestOf_iff, some_number]
  · exact or_iff_right fun empty => none empty.2

/-- A read keeps what it returns. -/
theorem Tally.count_read (tally : Tally) :
    ({ tally with hHighestCount := tally.count } : Tally).count = tally.count := by
  by_cases zero : tally.count = 0
  · rw [Tally.count, if_pos zero]
    rw [Tally.count] at zero ⊢
    split_ifs at zero ⊢
    · rfl
    · contradiction
  · rw [Tally.count, if_neg zero]

/-! ## Every move -/

namespace Move

variable {tally : Tally} {hRecNumber : Int} {iAtFront : Bool} {numbers : List Int}

theorem mem_added {number : Int} :
    number ∈ added hRecNumber iAtFront numbers ↔ number = hRecNumber ∨ number ∈ numbers := by
  rw [added]
  split_ifs with member
  · exact ⟨Or.inr, fun either => either.elim (fun same => same ▸ member) id⟩
  · exact List.mem_cons
  · rw [List.mem_append, List.mem_singleton, or_comm]

theorem nodup_added (unique : numbers.Nodup) : (added hRecNumber iAtFront numbers).Nodup := by
  rw [added]
  split_ifs with member
  · exact unique
  · exact List.nodup_cons.mpr ⟨member, unique⟩
  · have behind := List.Nodup.concat member unique
    rwa [List.concat_eq_append] at behind

/-- No move makes a number come twice. -/
theorem apply_unique (move : Move) (unique : tally.numbers.Nodup)
    (taken : ∀ other, move ≠ take other) : (move.apply tally).numbers.Nodup := by
  cases move with
  | stay => exact unique
  | read => exact unique
  | clear => exact List.nodup_nil
  | lose => exact List.nodup_nil
  | add hRecNumber iAtFront =>
      rw [apply]
      split_ifs
      · exact unique
      · exact nodup_added unique
  | remove hRecNumber =>
      rw [apply]
      split_ifs
      · exact unique
      · exact unique.erase hRecNumber
  | count hVal =>
      rw [apply]
      split_ifs
      · exact unique
      · exact (nodup_added unique).filter _
      · exact unique.filter _
  | take other => exact absurd rfl (taken other)

theorem apply_valid (move : Move) (taken : ∀ other, move ≠ take other) :
    (move.apply tally).valid = tally.valid := by
  cases move with
  | take other => exact absurd rfl (taken other)
  | add hRecNumber iAtFront | remove hRecNumber | count hVal =>
      rw [apply]
      split_ifs <;> rfl
  | _ => rfl

/-- A record that is added. -/
theorem add_highest_iff (right : tally.Right) :
    Highest ((add hRecNumber iAtFront).apply tally).numbers
        ((add hRecNumber iAtFront).apply tally).count ↔
      (add hRecNumber iAtFront).Fits tally := by
  rw [apply, Fits]
  cases array : tally.array with
  | true => exact iff_of_true (by simpa using right.highest) (by simp)
  | false =>
      have before := tally.highest_iff.mp right.highest
      rw [Tally.highest_iff]
      simp only [Bool.false_eq_true, if_false, mem_added, true_imp_iff]
      by_cases member : hRecNumber ∈ tally.numbers
      · refine iff_of_true ?_ (absurd member)
        split_ifs with none
        · rw [if_pos none] at before
          intro _
          obtain ⟨number, among, nonneg⟩ := before ⟨_, member⟩
          exact ⟨number, Or.inr among, nonneg⟩
        · rw [if_neg none] at before
          refine ⟨Or.inr before.1, fun number either => ?_⟩
          rcases either with rfl | among
          · exact before.2 _ member
          · exact before.2 _ among
      · rw [forall_prop_of_true member]
        split_ifs with none
        · rw [if_pos none] at before
          constructor
          · intro found
            obtain ⟨number, rfl | among, nonneg⟩ := found ⟨_, Or.inl rfl⟩
            · exact Or.inr nonneg
            · exact Or.inl ⟨number, among⟩
          · rintro (others | nonneg) -
            · obtain ⟨number, among, nonneg⟩ := before others
              exact ⟨number, Or.inr among, nonneg⟩
            · exact ⟨_, Or.inl rfl, nonneg⟩
        · rw [if_neg none] at before
          constructor
          · intro found
            exact found.2 _ (Or.inl rfl)
          · intro below
            refine ⟨Or.inr before.1, fun number either => ?_⟩
            rcases either with rfl | among
            · exact below
            · exact before.2 _ among

/-- A record that is removed. -/
theorem remove_highest_iff (right : tally.Right) :
    Highest ((remove hRecNumber).apply tally).numbers ((remove hRecNumber).apply tally).count ↔
      (remove hRecNumber).Fits tally := by
  rw [apply, Fits]
  cases array : tally.array with
  | true => exact iff_of_true (by simpa using right.highest) (by simp)
  | false =>
      have before := tally.highest_iff.mp right.highest
      by_cases member : hRecNumber ∈ tally.numbers
      · rw [Tally.highest_iff]
        simp only [Bool.false_eq_true, if_false, right.unique.mem_erase_iff, true_imp_iff, member]
        split_ifs with none
        · constructor
          · rintro found ⟨number, among, other⟩
            obtain ⟨number, ⟨other, among⟩, nonneg⟩ := found ⟨number, other, among⟩
            exact ⟨number, among, other, nonneg⟩
          · rintro found ⟨number, other, among⟩
            obtain ⟨number, among, other, nonneg⟩ := found ⟨number, among, other⟩
            exact ⟨number, ⟨other, among⟩, nonneg⟩
        · rw [if_neg none] at before
          constructor
          · exact fun found => found.1.1.symm
          · exact fun other => ⟨⟨Ne.symm other, before.1⟩, fun number among => before.2 _ among.2⟩
      · refine iff_of_true ?_ fun _ among => absurd among member
        rw [if_neg (by decide), List.erase_of_not_mem member]
        exact right.highest

/-- A count that is set; a zero is refused for an array. -/
theorem count_highest_iff {hVal : Int} (legal : tally.array = true → hVal ≠ 0) :
    Highest ((count hVal).apply tally).numbers ((count hVal).apply tally).count ↔
      (count hVal).Fits tally := by
  rw [apply, Fits]
  cases array : tally.array with
  | true =>
      rw [if_pos rfl, if_pos rfl, Tally.count, if_neg (legal array)]
  | false =>
      rw [Tally.highest_iff]
      simp only [Bool.false_eq_true, if_false, List.mem_filter, decide_eq_true_eq]
      by_cases zero : hVal = 0
      · simp only [zero, ne_eq, not_true_eq_false, if_false, if_true, true_imp_iff]
        constructor
        · rintro found ⟨number, among, negative⟩
          obtain ⟨other, ⟨inside, below⟩, nonneg⟩ := found ⟨number, among, negative.le⟩
          have same : other = 0 := by omega
          exact same ▸ inside
        · rintro found ⟨number, among, below⟩
          by_cases negative : number < 0
          · exact ⟨0, ⟨found ⟨number, among, negative⟩, le_rfl⟩, le_rfl⟩
          · exact ⟨number, ⟨among, below⟩, by omega⟩
      · simp only [zero, ne_eq, not_false_eq_true, if_true, if_false, mem_added]
        exact iff_of_true ⟨⟨Or.inl trivial, le_rfl⟩, fun number among => among.2⟩ nofun

/-- No record is above a count that is set and fits. -/
theorem count_below {hVal : Int} (fits : (count hVal).Fits tally) :
    ∀ number ∈ ((count hVal).apply tally).numbers, number ≤ hVal := by
  rw [Fits] at fits
  rw [apply]
  cases array : tally.array with
  | true =>
    rw [if_pos array] at fits
    rw [if_pos rfl]
    intro number member
    rcases fits with ⟨empty, -⟩ | ⟨-, below⟩
    · rw [empty] at member
      cases member
    · exact below number member
  | false =>
    rw [if_neg nofun]
    intro number member
    exact of_decide_eq_true (List.mem_filter.mp member).2

/-- All records are lost. -/
theorem lose_highest_iff :
    Highest (lose.apply tally).numbers (lose.apply tally).count ↔ lose.Fits tally := by
  rw [Tally.highest_iff, apply, Fits]
  split_ifs with none
  · exact iff_of_true (fun found => absurd found.choose_spec List.not_mem_nil) none
  · exact iff_of_false (fun found => absurd found.1 List.not_mem_nil) none

/-- A move keeps the count right exactly when it fits. -/
theorem apply_right_iff (right : tally.Right) (move : Move) (legal : move.Legal tally) :
    (move.apply tally).Right ↔ move.Fits tally := by
  have unique (kept : ∀ other, move ≠ take other) : (move.apply tally).Right ↔
      Highest (move.apply tally).numbers (move.apply tally).count :=
    ⟨Tally.Right.highest, fun highest => ⟨(apply_valid move kept).trans right.valid,
      apply_unique move right.unique kept, highest⟩⟩
  cases move with
  | stay => exact iff_of_true right trivial
  | read =>
      rw [unique nofun]
      refine iff_of_true ?_ trivial
      rw [apply, tally.count_read]
      exact right.highest
  | clear => exact iff_of_true ⟨right.valid, List.nodup_nil, Or.inl ⟨rfl, rfl⟩⟩ trivial
  | add hRecNumber iAtFront => rw [unique nofun, add_highest_iff right]
  | remove hRecNumber => rw [unique nofun, remove_highest_iff right]
  | count hVal => rw [unique nofun, count_highest_iff legal]
  | take other => exact iff_of_true legal trivial
  | lose => rw [unique nofun, lose_highest_iff]

end Move

/-! ## The moves of a descriptor -/

namespace Desc

variable {pDesc : Desc} {hRecNumber : Int} {iAtFront : Bool}

def tally (pDesc : Desc) : Tally where
  numbers := pDesc.numbers
  hHighestCount := pDesc.pDescHeader.hHighestCount
  array := pDesc.iRecListType = .arrayList
  valid := pDesc.pDescHeader.valid

theorem findHighestRecCount_eq (pDesc : Desc) :
    pDesc.findHighestRecCount = highestOf pDesc.numbers := by
  rw [findHighestRecCount, highestOf, numbers, List.foldl_map]

/-- The count that is read and kept. -/
theorem getCount_valid (valid : pDesc.pDescHeader.valid = true) :
    pDesc.getCount.1 = .ok pDesc.tally.count ∧
      pDesc.getCount.2.tally = Move.read.apply pDesc.tally := by
  rw [getCount, if_neg (by simp [valid]), findHighestRecCount_eq]
  exact ⟨rfl, rfl⟩

theorem tally_update {change : DescRec → DescRec}
    (keeps : ∀ pDescRec, pDescRec.hRecNumber = hRecNumber →
      (change pDescRec).hRecNumber = hRecNumber) :
    (pDesc.update hRecNumber change).tally = pDesc.tally := by
  have same : (pDesc.update hRecNumber change).numbers = pDesc.numbers := map_modify keeps
  rw [tally, same]
  rfl

theorem tally_release (pDesc : Desc) (hRecNumber : Int) :
    (pDesc.releaseDescriptorRecByNum hRecNumber).tally =
      (Move.remove hRecNumber).apply pDesc.tally := by
  rw [releaseDescriptorRecByNum, Move.apply]
  cases list : pDesc.iRecListType with
  | arrayList => simp [tally, list]
  | linkedList => simp [tally, list, numbers, map_remove]

/-- A record that is found or added makes one move. -/
theorem tally_checkAndAdd (pDesc : Desc) (hRecNumber : Int) (iAtFront : Bool) :
    ((pDesc.checkAndAddDescRec hRecNumber iAtFront).elim pDesc Prod.fst).tally =
      (Move.add hRecNumber iAtFront).apply pDesc.tally := by
  rw [checkAndAddDescRec, Move.apply]
  cases found : pDesc.findDescRec hRecNumber with
  | some pDescRec =>
      have member : hRecNumber ∈ pDesc.tally.numbers := by
        by_contra missing
        rw [findDescRec, find_none_iff.mpr missing] at found
        cases found
      rw [Move.added, if_pos member, ite_self]
      rfl
  | none =>
      have missing : hRecNumber ∉ pDesc.tally.numbers := find_none_iff.mp found
      rw [Move.added, if_neg missing]
      cases list : pDesc.iRecListType with
      | arrayList => simp [tally, list]
      | linkedList => cases iAtFront <;> simp [tally, list, numbers, addDescriptorRec, newRec]

def paramMove (outside : Int → Int) (param : ParamBinding) : Move :=
  if (param.refused outside).isSome then .stay
  else if param.unbinds then .remove param.hRecNumber
  else .add param.hRecNumber false

theorem tally_bindParameter (pAPD : Desc) (outside : Int → Int) (param : ParamBinding) :
    (pAPD.bindParameter outside param).2.1.tally =
      (paramMove outside param).apply pAPD.tally := by
  rw [bindParameter, paramMove]
  cases param.refused outside with
  | some diagnostic => rfl
  | none =>
      cases param.unbinds with
      | true => exact tally_release pAPD param.hRecNumber
      | false =>
          have added := tally_checkAndAdd pAPD param.hRecNumber false
          simp only [Option.isSome_none, Bool.false_eq_true, if_false]
          rw [← added]
          cases pAPD.checkAndAddDescRec param.hRecNumber false with
          | none => rfl
          | some found => exact tally_update fun _ _ => rfl

def colMove (col : ColBinding) : Move :=
  if col.hCol = 0 then .stay
  else if col.unbinds then .remove col.hRecNumber
  else .add col.hRecNumber false

theorem tally_bindCol (pARD : Desc) (col : ColBinding) :
    (pARD.bindCol col).2.tally = (colMove col).apply pARD.tally := by
  rw [bindCol, colMove]
  by_cases zero : col.hCol = 0
  · rw [if_pos zero, if_pos zero]
    rfl
  · rw [if_neg zero, if_neg zero]
    cases col.unbinds with
    | true => exact tally_release pARD col.hRecNumber
    | false =>
        have added := tally_checkAndAdd pARD col.hRecNumber false
        simp only [Bool.false_eq_true, if_false]
        rw [← added]
        cases pARD.checkAndAddDescRec col.hRecNumber false with
        | none => rfl
        | some found => exact tally_update fun _ _ => rfl

def countMove (pDesc : Desc) (hVal : Int) : Move :=
  if hVal < 0 ∨ (hVal = 0 ∧
      ¬((pDesc.iType = .apd ∨ pDesc.iType = .ard) ∧ pDesc.iRecListType = .linkedList)) then .stay
  else .count hVal

theorem tally_releaseAbove (pDesc : Desc) (hVal : Int) :
    (pDesc.releaseAbove hVal).tally =
      if pDesc.tally.array then pDesc.tally
      else { pDesc.tally with numbers := pDesc.tally.numbers.filter (· ≤ hVal) } := by
  rw [releaseAbove]
  cases list : pDesc.iRecListType with
  | arrayList => simp [tally, list]
  | linkedList =>
      simp only [tally, numbers, list, if_true, List.filter_map]
      rfl

theorem tally_setCount (pDesc : Desc) (hVal : Int) :
    (pDesc.setCount hVal).2.tally = (pDesc.countMove hVal).apply pDesc.tally := by
  rw [countMove]
  by_cases invalid : hVal < 0 ∨ (hVal = 0 ∧
      ¬((pDesc.iType = .apd ∨ pDesc.iType = .ard) ∧ pDesc.iRecListType = .linkedList))
  · rw [setCount, if_pos invalid, if_pos invalid]
    rfl
  · rw [setCount, if_neg invalid, if_neg invalid, Move.apply]
    dsimp only
    generalize counting : ({ pDesc with
      pDescHeader := { pDesc.pDescHeader with hHighestCount := hVal } } : Desc) = counted
    have tallied : counted.tally = { pDesc.tally with hHighestCount := hVal } := by
      rw [← counting]
      rfl
    rw [tally_releaseAbove]
    by_cases zero : hVal = 0
    · simp only [zero, ne_eq, not_true_eq_false, if_false]
      rw [tallied, zero]
    · simp only [zero, ne_eq, not_false_eq_true, if_true]
      have added := tally_checkAndAdd counted hVal true
      rw [tallied, Move.apply] at added
      cases found : counted.checkAndAddDescRec hVal true with
      | none =>
          rw [found, Option.elim_none, tallied] at added
          dsimp only
          rw [tallied]
          cases array : pDesc.tally.array with
          | true => simp [array]
          | false =>
              have same := congrArg Tally.numbers added
              simp only [array, Bool.false_eq_true, if_false] at same
              simp [← same]
      | some pair =>
          rw [found, Option.elim_some] at added
          dsimp only
          rw [added]
          cases array : pDesc.tally.array <;> simp [array]

def fieldMove (pDesc : Desc) (hRecNumber : Int) (field : FieldIdentifier) (value : FieldValue) :
    Move :=
  if pDesc.isWritableField field = false then .stay
  else
    match field with
    | .record _ => if hRecNumber ≤ 0 then .stay else .add hRecNumber true
    | .header .count => pDesc.countMove value.hVal
    | .header _ => .stay

theorem legal_fieldMove (pDesc : Desc) (hRecNumber : Int) (field : FieldIdentifier)
    (value : FieldValue) : (pDesc.fieldMove hRecNumber field value).Legal pDesc.tally := by
  rw [fieldMove.eq_def]
  by_cases refused : pDesc.isWritableField field = false
  · rw [if_pos refused]
    trivial
  · rw [if_neg refused]
    cases field with
    | record field =>
        dsimp only
        split_ifs <;> trivial
    | header field =>
        cases field with
        | count =>
            dsimp only
            rw [countMove]
            split_ifs with invalid
            · trivial
            · intro array zero
              refine invalid (Or.inr ⟨zero, fun allowed => ?_⟩)
              simp [tally, allowed.2] at array
        | _ => trivial

/-- A count that is not refused. -/
theorem fieldMove_count {hRecNumber : Int} {value : FieldValue}
    (success : (pDesc.setDescField hRecNumber (.header .count) value false).1 = none) :
    pDesc.fieldMove hRecNumber (.header .count) value = .count value.hVal := by
  rw [setDescField.eq_def, Bool.false_or] at success
  rw [fieldMove.eq_def]
  by_cases refused : pDesc.isWritableField (.header .count) = false
  · rw [if_pos refused] at success
    cases success
  · rw [if_neg refused] at success ⊢
    dsimp only at success ⊢
    by_cases freed : pDesc.pDescHeader.valid = false
    · rw [if_pos freed] at success
      cases success
    · rw [if_neg freed, setHeaderField, setCount] at success
      rw [countMove]
      by_cases invalid : value.hVal < 0 ∨ (value.hVal = 0 ∧
          ¬((pDesc.iType = .apd ∨ pDesc.iType = .ard) ∧ pDesc.iRecListType = .linkedList))
      · rw [if_pos invalid] at success
        cases success
      · rw [if_neg invalid]

theorem setField_number (pDescRec : DescRec) (iType : DescType) (field : RecordField)
    (value : FieldValue) : (pDescRec.setField iType field value).hRecNumber =
      pDescRec.hRecNumber := by
  cases field <;> rfl

theorem tally_setRecordField (pDesc : Desc) {hRecNumber : Int} (positive : ¬hRecNumber ≤ 0)
    (field : RecordField) (value : FieldValue) :
    (pDesc.setRecordField hRecNumber field value).2.tally =
      (Move.add hRecNumber true).apply pDesc.tally := by
  have added := tally_checkAndAdd pDesc hRecNumber true
  rw [setRecordField, if_neg positive, ← added]
  cases pDesc.checkAndAddDescRec hRecNumber true with
  | none => rfl
  | some found =>
      cases field with
      | other hFieldIdentifier => rfl
      | _ => exact tally_update fun pDescRec number => (setField_number ..).trans number

theorem tally_setHeaderField (pDesc : Desc) {field : HeaderField} (value : FieldValue)
    (other : field ≠ .count) : (pDesc.setHeaderField field value).2.tally = pDesc.tally := by
  cases field with
  | count => exact absurd rfl other
  | arraySize | bindType =>
      dsimp only [setHeaderField]
      split_ifs <;> rfl
  | _ => rfl

theorem tally_setDescField (pDesc : Desc) (valid : pDesc.pDescHeader.valid = true)
    (hRecNumber : Int) (field : FieldIdentifier) (value : FieldValue) :
    (pDesc.setDescField hRecNumber field value false).2.tally =
      (pDesc.fieldMove hRecNumber field value).apply pDesc.tally := by
  rw [setDescField.eq_def, fieldMove.eq_def, Bool.false_or]
  by_cases refused : pDesc.isWritableField field = false
  · rw [if_pos refused, if_pos refused]
    rfl
  · rw [if_neg refused, if_neg refused]
    cases field with
    | record field =>
        dsimp only
        by_cases invalid : hRecNumber ≤ 0
        · rw [if_pos invalid, setRecordField, if_pos invalid]
          rfl
        · rw [if_neg invalid, tally_setRecordField pDesc invalid]
    | header field =>
        dsimp only
        rw [if_neg (by simp [valid])]
        by_cases count : field = .count
        · rw [count]
          exact tally_setCount pDesc value.hVal
        · rw [tally_setHeaderField pDesc value count]
          cases field with
          | count => exact absurd rfl count
          | _ => rfl

def fieldsMove (pDesc : Desc) (values : RecValues) : Move :=
  if values.hRecNumber ≤ 0 then .stay
  else if (recFields.all fun field => pDesc.isWritableField (.record field)) = false then .stay
  else if values.pData = 0 ∧ values.plIndicator = 0 ∧ pDesc.iType = .ard then
    .remove values.hRecNumber
  else .add values.hRecNumber true

theorem tally_setDescRec (pDesc : Desc) (values : RecValues) :
    (pDesc.setDescRec values).2.tally = (pDesc.fieldsMove values).apply pDesc.tally := by
  rw [setDescRec, fieldsMove]
  split_ifs
  · rfl
  · rfl
  · exact tally_release pDesc values.hRecNumber
  · have added := tally_checkAndAdd pDesc values.hRecNumber true
    rw [← added]
    cases pDesc.checkAndAddDescRec values.hRecNumber true with
    | none => rfl
    | some found => exact tally_update fun _ number => number

end Desc

/-! ## Every call -/

/-- A call that binds, sets, copies or reads. -/
inductive Call (Handle : Type) where
  | bindParameter (phdesc : Handle) (param : ParamBinding)
  | bindCol (phdesc : Handle) (col : ColBinding)
  | clearBindList (phdesc : Handle)
  | getCount (phdesc : Handle)
  | update (call : Update Handle)

/-- What a call reports: why it is refused, or the count that was asked for. -/
structure Report where
  refusal : Option Diagnostic := none
  count : Option Int := none
  deriving DecidableEq, Repr

def Report.ofCount : Except Diagnostic Int → Report
  | .error diagnostic => { refusal := some diagnostic }
  | .ok hHighestCount => { count := some hHighestCount }

namespace Descs

variable {Handle : Type} [DecidableEq Handle] (descs : Descs Handle) (outside : Int → Int)

def call : Call Handle → Report × Descs Handle
  | .bindParameter phdesc param =>
      let result := (descs phdesc).bindParameter outside param
      ({ refusal := result.1 }, descs.put phdesc result.2.1)
  | .bindCol phdesc col =>
      let result := (descs phdesc).bindCol col
      ({ refusal := result.1 }, descs.put phdesc result.2)
  | .clearBindList phdesc => ({}, descs.put phdesc (descs phdesc).clearBindList)
  | .getCount phdesc =>
      let result := (descs phdesc).getCount
      (.ofCount result.1, descs.put phdesc result.2)
  | .update call =>
      let result := descs.update call
      ({ refusal := result.1 }, result.2)

/-- The descriptor a call may change. -/
def place : Call Handle → Handle
  | .bindParameter phdesc _ | .bindCol phdesc _ | .clearBindList phdesc | .getCount phdesc
  | .update (.field phdesc _ _ _) | .update (.fields phdesc _)
  | .update (.copy _ phdesc) => phdesc

/-- The move it makes there; a copy onto itself has lost the records it takes. -/
def move : Call Handle → Move
  | .bindParameter _ param => Desc.paramMove outside param
  | .bindCol _ col => Desc.colMove col
  | .clearBindList _ => .clear
  | .getCount _ => .read
  | .update (.field phdesc hRecNumber field value) =>
      (descs phdesc).fieldMove hRecNumber field value
  | .update (.fields phdesc values) => (descs phdesc).fieldsMove values
  | .update (.copy phdescSrc phdescDest) =>
      if (descs phdescDest).iType = .ird ∨ (descs phdescDest).iType = .ipd then .stay
      else if phdescSrc = phdescDest then .lose
      else .take { (descs phdescSrc).tally with array := false }

variable {descs outside}

/-- A descriptor that is written makes the move of its tally. -/
theorem tally_put {phdesc : Handle} {pDesc : Desc} {move : Move}
    (made : pDesc.tally = move.apply (descs phdesc).tally) :
    (∀ other, other ≠ phdesc → descs.put phdesc pDesc other = descs other) ∧
      (descs.put phdesc pDesc phdesc).tally = move.apply (descs phdesc).tally := by
  refine ⟨fun other apart => put_other apart pDesc, ?_⟩
  rw [put_self]
  exact made

theorem tally_copy {phdescSrc phdescDest : Handle}
    (valid : ∀ phdesc, (descs phdesc).pDescHeader.valid = true)
    (taken : (descs phdescDest).iType ≠ .ird ∧ (descs phdescDest).iType ≠ .ipd) :
    ((descs.copyDesc phdescSrc phdescDest false).2 phdescDest).tally =
      if phdescSrc = phdescDest then { (descs phdescDest).tally with numbers := [], array := false }
      else { (descs phdescSrc).tally with array := false } := by
  have header : ((descs phdescDest).receive (descs phdescSrc)).pDescHeader =
      { (descs phdescSrc).pDescHeader with
        hAllocType := (descs phdescDest).pDescHeader.hAllocType } :=
    receive_header_iff.mpr (Or.inl ⟨valid phdescDest, valid phdescSrc⟩)
  have copied : ((descs phdescSrc).pDescRecHead.map DescRec.copied).map DescRec.hRecNumber =
      (descs phdescSrc).numbers := by
    rw [List.map_map]
    rfl
  obtain ⟨-, -, destination⟩ := @copyDesc_destination _ _ descs phdescSrc _ taken
  rw [destination]
  simp only [Desc.tally, header, Desc.numbers]
  split_ifs with same
  · rw [same]
    rfl
  · rw [copied]
    rfl

/-- A call leaves the other descriptors alone and makes its move. -/
theorem tally_call (valid : ∀ phdesc, (descs phdesc).pDescHeader.valid = true)
    (call : Call Handle) :
    (∀ other, other ≠ place call → (descs.call outside call).2 other = descs other) ∧
      ((descs.call outside call).2 (place call)).tally =
        (descs.move outside call).apply (descs (place call)).tally := by
  cases call with
  | bindParameter phdesc param => exact tally_put (Desc.tally_bindParameter _ outside param)
  | bindCol phdesc col => exact tally_put (Desc.tally_bindCol _ col)
  | clearBindList phdesc => exact @tally_put _ _ descs phdesc _ .clear rfl
  | getCount phdesc => exact tally_put (Desc.getCount_valid (valid phdesc)).2
  | update call =>
      cases call with
      | field phdesc hRecNumber field value =>
          exact tally_put (Desc.tally_setDescField _ (valid phdesc) hRecNumber field value)
      | fields phdesc values => exact tally_put (Desc.tally_setDescRec _ values)
      | copy phdescSrc phdescDest =>
          rw [Descs.call, place, update, move]
          by_cases refused : (descs phdescDest).iType = .ird ∨ (descs phdescDest).iType = .ipd
          · rw [copyDesc, if_pos ⟨rfl, refused⟩, if_pos refused]
            exact ⟨fun _ _ => rfl, rfl⟩
          · rw [if_neg refused]
            rw [not_or] at refused
            obtain ⟨-, others, -⟩ := @copyDesc_destination _ _ descs phdescSrc _ refused
            refine ⟨others, (tally_copy valid refused).trans ?_⟩
            split_ifs <;> rfl

end Descs

/-! ## Every sequence of calls -/

/-- A read would return the highest number of a record, and no number is there twice. -/
structure Desc.CountRight (pDesc : Desc) : Prop where
  unique : pDesc.numbers.Nodup
  read : ∃ count, pDesc.getCount.1 = .ok count ∧ Highest pDesc.numbers count

theorem Desc.countRight_iff {pDesc : Desc} : pDesc.CountRight ↔ pDesc.tally.Right := by
  constructor
  · rintro ⟨unique, count, read, highest⟩
    have valid : pDesc.pDescHeader.valid = true := by
      by_contra freed
      rw [getCount, if_pos (by simpa using freed)] at read
      cases read
    rw [(getCount_valid valid).1] at read
    cases read
    exact ⟨valid, unique, highest⟩
  · rintro ⟨valid, unique, highest⟩
    exact ⟨unique, _, (getCount_valid valid).1, highest⟩

/-- The descriptors, and the count that the last call has set. -/
structure Session (Handle : Type) where
  descs : Descs Handle
  counted : Option (Handle × Int) := none

namespace Session

variable {Handle : Type} [DecidableEq Handle] (outside : Int → Int)

/-- The count a call sets when it succeeds. -/
def asked : Call Handle → Option (Handle × Int)
  | .update (.field phdesc _ (.header .count) value) => some (phdesc, value.hVal)
  | _ => none

def call (session : Session Handle) (call : Call Handle) : Option (Session Handle) :=
  let result := session.descs.call outside call
  some { descs := result.2, counted := if result.1.refusal = none then asked call else none }

/-- The counts are right, and no record is above a count that was set. -/
structure Sound (session : Session Handle) : Prop where
  right : ∀ phdesc, (session.descs phdesc).CountRight
  counted : ∀ pair ∈ session.counted, ∀ number ∈ (session.descs pair.1).numbers, number ≤ pair.2

/-- The call's move fits the numbers and the count that are there before it. -/
def Keeps (session : Session Handle) (call : Call Handle) : Prop :=
  (session.descs.move outside call).Fits (session.descs (Descs.place call)).tally

variable {outside} {session : Session Handle}

theorem legal_move (sound : session.Sound) (call : Call Handle) :
    (session.descs.move outside call).Legal (session.descs (Descs.place call)).tally := by
  cases call with
  | bindParameter phdesc param =>
      rw [Descs.move, Desc.paramMove]
      split_ifs <;> trivial
  | bindCol phdesc col =>
      rw [Descs.move, Desc.colMove]
      split_ifs <;> trivial
  | clearBindList phdesc | getCount phdesc => trivial
  | update call =>
      cases call with
      | field phdesc hRecNumber field value => exact Desc.legal_fieldMove ..
      | fields phdesc values =>
          rw [Descs.move, Desc.fieldsMove]
          split_ifs <;> trivial
      | copy phdescSrc phdescDest =>
          rw [Descs.move]
          split_ifs
          · trivial
          · trivial
          · obtain ⟨valid, unique, highest⟩ := Desc.countRight_iff.mp (sound.right phdescSrc)
            exact ⟨valid, unique, highest⟩

/-- Behind a count that is set and fits no record is above it. -/
theorem counted_call (sound : session.Sound) {call : Call Handle}
    (keeps : session.Keeps outside call)
    (success : (session.descs.call outside call).1.refusal = none) :
    ∀ pair ∈ asked call, ∀ number ∈ ((session.descs.call outside call).2 pair.1).numbers,
      number ≤ pair.2 := by
  have valid (phdesc : Handle) : (session.descs phdesc).pDescHeader.valid = true :=
    (Desc.countRight_iff.mp (sound.right phdesc)).valid
  have made := (@Descs.tally_call _ _ session.descs outside valid call).2
  intro pair member
  rw [asked.eq_def] at member
  split at member
  · next phdesc hRecNumber value =>
    cases member
    have counts := @Desc.fieldMove_count (session.descs phdesc) hRecNumber value success
    rw [Keeps, Descs.move, Descs.place, counts] at keeps
    rw [Descs.move, Descs.place, counts] at made
    have below := Move.count_below keeps
    rw [← made] at below
    exact below
  · cases member

/-- A call keeps the session sound exactly when its move fits. -/
theorem sound_call_iff (sound : session.Sound) {call : Call Handle} {next : Session Handle}
    (move : session.call outside call = some next) : next.Sound ↔ session.Keeps outside call := by
  have valid (phdesc : Handle) : (session.descs phdesc).pDescHeader.valid = true :=
    (Desc.countRight_iff.mp (sound.right phdesc)).valid
  obtain ⟨others, made⟩ := @Descs.tally_call _ _ session.descs outside valid call
  have here : ((session.descs.call outside call).2 (Descs.place call)).CountRight ↔
      session.Keeps outside call := by
    rw [Desc.countRight_iff, made]
    exact Move.apply_right_iff (Desc.countRight_iff.mp (sound.right _)) _ (legal_move sound call)
  cases move
  constructor
  · exact fun behind => here.mp (behind.right (Descs.place call))
  · intro keeps
    refine ⟨fun phdesc => ?_, ?_⟩
    · by_cases same : phdesc = Descs.place call
      · rw [same]
        exact here.mpr keeps
      · dsimp only
        rw [others phdesc same]
        exact sound.right phdesc
    · dsimp only
      split_ifs with success
      · exact counted_call sound keeps success
      · nofun

/--
Along a sequence of calls every count is the highest number there is exactly when no record
is added above a count that is kept nor removed with it, no count is set for an array but
its own, and no descriptor that keeps a count is copied onto itself.
-/
theorem count_iff (outside : Int → Int) (descs : Descs Handle)
    (start : ∀ phdesc, (descs phdesc).CountRight) (calls : List (Call Handle)) :
    (∀ session ∈ visited (call outside) { descs } calls, session.Sound) ↔
      Guarded (call outside) (Keeps outside) { descs } calls := by
  have initial : Sound { descs } := ⟨start, fun pair member => absurd member (by simp)⟩
  refine @visited_iff_guarded _ _ _ _ (fun _ => True) Sound ?_ ?_ _ trivial initial calls
  · exact fun _ _ _ _ _ => trivial
  · exact fun _ _ _ _ sound move => sound_call_iff sound move

def column (hCol : Nat) : ColBinding where
  hCol
  hType := 1
  pValue := 1000
  cbLen := 10
  pcbLenInd := 0

/-- A descriptor of rows that is freshly allocated. -/
def freshRow : Descs Unit := fun _ => { iType := .ard, pDescHeader := { hAllocType := 1 } }

def preparedParams : Descs Unit := fun _ =>
  { iType := .ipd
    pDescHeader := { hAllocType := 1 }
    iRecListType := .arrayList
    pDescRecHead := [{ hRecNumber := 1 }, { hRecNumber := 2 }] }

/-- Columns that are bound before the count is read. -/
theorem count_columns :
    (∀ session ∈ visited (call fun _ => sqlNoType) { descs := freshRow }
        [.bindCol () (column 1), .bindCol () (column 2), .getCount ()], session.Sound) ↔
      Guarded (call fun _ => sqlNoType) (Keeps fun _ => sqlNoType) { descs := freshRow }
        [.bindCol () (column 1), .bindCol () (column 2), .getCount ()] :=
  count_iff _ freshRow (fun _ => ⟨List.nodup_nil, 0, rfl, Or.inl ⟨rfl, rfl⟩⟩) _

/-- A column is bound behind a read, and a count is set for an array that has more records. -/
theorem count_wrong :
    (∃ session ∈ visited (call fun _ => sqlNoType) { descs := freshRow }
        [.bindCol () (column 1), .getCount (), .bindCol () (column 2)],
      (session.descs ()).numbers = [1, 2] ∧ (session.descs ()).getCount.1 = .ok 1) ∧
    ∃ session ∈ visited (call fun _ => sqlNoType) { descs := preparedParams }
        [.update (.field () 0 (.header .count) ⟨1, [], 0⟩)],
      session.counted = some ((), 1) ∧ (session.descs ()).numbers = [1, 2] := by
  refine ⟨⟨_, .tail _ (.tail _ (.tail _ (.head _))), by decide, by decide⟩,
    ⟨_, .tail _ (.head _), by decide, by decide⟩⟩

end Session

end RedshiftOdbc.Descriptor

import RedshiftOdbc.Execute.MultiInsert

/-!
# The plan of an array insert

`getTotalMultiTuples` divides the rows of an array into batches.  Its divisions
are those of whole numbers while the number of all parameters fits a `long`.  A
product that does not fit is cut, and then the plan covers the rows only where
the cut loses a multiple of what an `int` can tell apart.
-/

namespace RedshiftOdbc.Execute

open RedshiftOdbc.Words

/--
The batches keep to the limit of parameters, and with the last one they have every
row once.
-/
structure Covers (numOfParamMarkers lArraySize : Nat)
    (iTotalMultiTuples iLastBatchTotalMultiTuples : Int) : Prop where
  some : 1 ≤ iTotalMultiTuples
  limit : iTotalMultiTuples * numOfParamMarkers ≤ padbMaxParameters
  last : 0 ≤ iLastBatchTotalMultiTuples ∧ iLastBatchTotalMultiTuples < iTotalMultiTuples ∨
    iLastBatchTotalMultiTuples = 0 ∧ iTotalMultiTuples = lArraySize
  rows : ∃ batches : Nat, 1 ≤ batches ∧
    (lArraySize : Int) = iTotalMultiTuples * batches + iLastBatchTotalMultiTuples
  rest : 0 < iLastBatchTotalMultiTuples ↔ ¬ iTotalMultiTuples ∣ lArraySize

/-- The number of all parameters as a `long`. -/
def lTotalParams (numOfParamMarkers lArraySize : Nat) : Int :=
  wrap 8 (numOfParamMarkers * lArraySize)

/-- The batches that the cut number of all parameters loses. -/
def lostBatches (numOfParamMarkers lArraySize : Nat) : Int :=
  (lArraySize / (padbMaxParameters / numOfParamMarkers) : Nat) -
    lTotalParams numOfParamMarkers lArraySize /
      (numOfParamMarkers * (padbMaxParameters / numOfParamMarkers) : Nat)

/--
The number of all parameters does not fit a `long`, and what is left of it gives the
plan of the rows all the same.
-/
def CutToPlan (numOfParamMarkers lArraySize : Nat) : Prop :=
  2 ^ 63 ≤ numOfParamMarkers * lArraySize ∧
    if (padbMaxParameters : Int) < lTotalParams numOfParamMarkers lArraySize then
      (2 ^ 32 : Int) ∣ (padbMaxParameters / numOfParamMarkers : Nat) *
        lostBatches numOfParamMarkers lArraySize
    else
      1 ≤ wrap 4 lArraySize ∧ wrap 4 lArraySize * numOfParamMarkers ≤ padbMaxParameters ∧
        wrap 4 lArraySize ∣ lArraySize

variable {numOfParamMarkers lArraySize : Nat}

theorem lTotalParams_fits (fits : numOfParamMarkers * lArraySize < 2 ^ 63) :
    lTotalParams numOfParamMarkers lArraySize = (numOfParamMarkers * lArraySize : Nat) := by
  rw [lTotalParams, ← Int.natCast_mul]
  exact wrap_of_range (by omega) (by omega)

/-- The plan of an array whose parameters fit one batch. -/
theorem getTotalMultiTuples_one
    (few : ¬ (padbMaxParameters : Int) < lTotalParams numOfParamMarkers lArraySize) :
    getTotalMultiTuples numOfParamMarkers lArraySize = (wrap 4 lArraySize, 0) := by
  rw [getTotalMultiTuples]
  exact if_neg few

/-- The remainder of the rows, from which a multiple of the tuples has been taken off. -/
theorem rows_sub (tuples : Nat) (batches : Int) :
    (lArraySize : Int) - tuples * batches = (lArraySize % tuples : Nat) +
      tuples * ((lArraySize / tuples : Nat) - batches) := by
  have whole := Nat.div_add_mod lArraySize tuples
  rw [Int.mul_sub, ← Int.natCast_mul]
  omega

/-- The plan of an array with more parameters than a batch can have. -/
theorem getTotalMultiTuples_many
    (many : (padbMaxParameters : Int) < lTotalParams numOfParamMarkers lArraySize) :
    getTotalMultiTuples numOfParamMarkers lArraySize =
      (((padbMaxParameters / numOfParamMarkers : Nat) : Int),
        wrap 4 ((lArraySize % (padbMaxParameters / numOfParamMarkers) : Nat) +
          (padbMaxParameters / numOfParamMarkers : Nat) *
            lostBatches numOfParamMarkers lArraySize)) := by
  rw [lostBatches, ← rows_sub, getTotalMultiTuples]
  dsimp only
  rw [← lTotalParams, if_pos many]
  congr 1
  rw [wrap_sub_wrap, Int.mul_comm, ← wrap_sub_wrap 4 lArraySize (_ * _), wrap_wrap_mul,
    wrap_sub_wrap, Int.mul_comm]

/-- As many tuples as one batch can have, and what is left of the rows. -/
theorem covers_of_rest (tuples : Nat) (positive : 0 < tuples)
    (limit : tuples * numOfParamMarkers ≤ padbMaxParameters) (enough : tuples ≤ lArraySize) :
    Covers numOfParamMarkers lArraySize tuples (lArraySize % tuples : Nat) := by
  have less := Nat.mod_lt lArraySize positive
  have whole := Nat.div_add_mod lArraySize tuples
  refine ⟨by omega, by exact_mod_cast limit, Or.inl ⟨by omega, by omega⟩,
    ⟨lArraySize / tuples, Nat.div_pos enough positive, by exact_mod_cast whole.symm⟩, ?_⟩
  rw [Int.natCast_dvd_natCast, Nat.dvd_iff_mod_eq_zero]
  omega

/-- A plan that covers the rows has their remainder for the last batch. -/
theorem Covers.last_eq {tuples : Nat} {last : Int}
    (covers : Covers numOfParamMarkers lArraySize tuples last) :
    last = (lArraySize % tuples : Nat) := by
  obtain ⟨batches, -, rows⟩ := covers.rows
  have cut : (lArraySize : Int) % tuples = last % tuples := by
    rw [rows, Int.mul_add_emod_self_left]
  rw [Int.natCast_emod, cut]
  rcases covers.last with ⟨lower, upper⟩ | ⟨rfl, -⟩
  · exact (Int.emod_eq_of_lt lower upper).symm
  · rw [Int.zero_emod]

/-- A small number is left of a cut one when a multiple of the range has been taken off. -/
theorem wrap_add_eq_iff (small : Nat) (bound : small < 32768) (more : Int) :
    wrap 4 (small + more) = small ↔ (2 ^ 32 : Int) ∣ more := by
  constructor
  · intro same
    have cut := wrap_emod 4 (small + more)
    rw [same] at cut
    omega
  · intro multiple
    have same : wrap 4 (small + more) = wrap 4 small := wrap_congr (by omega)
    rw [same]
    exact wrap_of_range (by omega) (by omega)

/-- A batch of one command divides the rows when it covers them. -/
theorem covers_one_iff (rows : 0 < lArraySize) (tuples : Int) :
    Covers numOfParamMarkers lArraySize tuples 0 ↔
      1 ≤ tuples ∧ tuples * numOfParamMarkers ≤ padbMaxParameters ∧ tuples ∣ lArraySize := by
  constructor
  · intro covers
    refine ⟨covers.some, covers.limit, ?_⟩
    by_contra rest
    exact absurd (covers.rest.mpr rest) (lt_irrefl 0)
  · rintro ⟨some, limit, batches, whole⟩
    have positive : 0 < batches := by
      by_contra none
      have product := Int.mul_nonpos_of_nonneg_of_nonpos (show 0 ≤ tuples by omega)
        (Int.not_lt.mp none)
      omega
    refine ⟨some, limit, Or.inl ⟨le_refl 0, some⟩, ⟨batches.toNat, by omega, ?_⟩, ?_⟩
    · rw [Int.toNat_of_nonneg positive.le, Int.add_zero]
      exact whole
    · exact ⟨fun more => absurd more (lt_irrefl 0), fun rest => absurd ⟨batches, whole⟩ rest⟩

theorem lostBatches_fits (some : 1 ≤ numOfParamMarkers)
    (fits : numOfParamMarkers * lArraySize < 2 ^ 63) :
    lostBatches numOfParamMarkers lArraySize = 0 := by
  rw [lostBatches, lTotalParams_fits fits, ← Int.natCast_ediv, Nat.mul_div_mul_left _ _ some,
    Int.sub_self]

/-- With more parameters than a batch can have, the plan is right up to the lost batches. -/
theorem covers_many_iff (some : 1 ≤ numOfParamMarkers) (few : numOfParamMarkers ≤ padbMaxParameters)
    (many : (padbMaxParameters : Int) < lTotalParams numOfParamMarkers lArraySize) :
    Covers numOfParamMarkers lArraySize
        (getTotalMultiTuples numOfParamMarkers lArraySize).1
        (getTotalMultiTuples numOfParamMarkers lArraySize).2 ↔
      (2 ^ 32 : Int) ∣ (padbMaxParameters / numOfParamMarkers : Nat) *
        lostBatches numOfParamMarkers lArraySize := by
  have positive : 0 < padbMaxParameters / numOfParamMarkers := Nat.div_pos few some
  have bound : padbMaxParameters / numOfParamMarkers < 32768 :=
    Nat.lt_of_le_of_lt (Nat.div_le_self _ _) (by decide)
  have limit : padbMaxParameters / numOfParamMarkers * numOfParamMarkers ≤ padbMaxParameters :=
    Nat.div_mul_le_self _ _
  rw [getTotalMultiTuples_many many]
  generalize lostBatches numOfParamMarkers lArraySize = lost
  generalize padbMaxParameters / numOfParamMarkers = tuples at *
  have less := Nat.mod_lt lArraySize positive
  have enough : tuples ≤ lArraySize := by
    by_contra fewer
    have product : numOfParamMarkers * lArraySize ≤ numOfParamMarkers * tuples :=
      Nat.mul_le_mul_left _ (by omega)
    rw [Nat.mul_comm numOfParamMarkers tuples] at product
    rw [padbMaxParameters] at limit many
    rw [lTotalParams_fits (by omega)] at many
    omega
  have same := wrap_add_eq_iff (lArraySize % tuples) (by omega) (tuples * lost)
  constructor
  · intro covers
    exact same.mp covers.last_eq
  · intro multiple
    rw [same.mpr multiple]
    exact covers_of_rest tuples positive limit enough

/-- The plan covers the rows when a `long` holds the number of all parameters. -/
theorem covers_of_fits (some : 1 ≤ numOfParamMarkers) (few : numOfParamMarkers ≤ padbMaxParameters)
    (rows : 1 ≤ lArraySize) (fits : numOfParamMarkers * lArraySize < 2 ^ 63) :
    Covers numOfParamMarkers lArraySize
      (getTotalMultiTuples numOfParamMarkers lArraySize).1
      (getTotalMultiTuples numOfParamMarkers lArraySize).2 := by
  by_cases many : (padbMaxParameters : Int) < lTotalParams numOfParamMarkers lArraySize
  · rw [covers_many_iff some few many, lostBatches_fits some fits, Int.mul_zero]
    exact dvd_zero _
  · rw [getTotalMultiTuples_one many, covers_one_iff rows]
    rw [lTotalParams_fits fits, padbMaxParameters] at many
    have narrow : lArraySize ≤ numOfParamMarkers * lArraySize := Nat.le_mul_of_pos_left _ some
    have same : wrap 4 lArraySize = lArraySize := wrap_of_range (by omega) (by omega)
    rw [same]
    refine ⟨by omega, ?_, Int.dvd_refl _⟩
    dsimp only
    rw [Int.mul_comm, padbMaxParameters]
    exact_mod_cast Int.not_lt.mp many

/--
The plan covers every row once exactly when the number of all parameters fits a
`long`, or what is left of the cut number gives the plan all the same.
-/
theorem getTotalMultiTuples_covers_iff (some : 1 ≤ numOfParamMarkers)
    (few : numOfParamMarkers ≤ padbMaxParameters) (rows : 1 ≤ lArraySize) :
    Covers numOfParamMarkers lArraySize
        (getTotalMultiTuples numOfParamMarkers lArraySize).1
        (getTotalMultiTuples numOfParamMarkers lArraySize).2 ↔
      numOfParamMarkers * lArraySize < 2 ^ 63 ∨ CutToPlan numOfParamMarkers lArraySize := by
  by_cases fits : numOfParamMarkers * lArraySize < 2 ^ 63
  · exact iff_of_true (covers_of_fits some few rows fits) (Or.inl fits)
  · have large : 2 ^ 63 ≤ numOfParamMarkers * lArraySize := Nat.not_lt.mp fits
    by_cases many : (padbMaxParameters : Int) < lTotalParams numOfParamMarkers lArraySize
    · rw [covers_many_iff some few many, CutToPlan, if_pos many]
      simp only [fits, large, false_or, true_and]
    · rw [getTotalMultiTuples_one many, CutToPlan, if_neg many]
      simp only [fits, large, false_or, true_and]
      exact covers_one_iff rows _

/-- Three parameters of a hundred thousand rows. -/
theorem getTotalMultiTuples_covers_three : Covers 3 100000 (getTotalMultiTuples 3 100000).1
    (getTotalMultiTuples 3 100000).2 :=
  (getTotalMultiTuples_covers_iff (by decide) (by decide) (by decide)).mpr (Or.inl (by decide))

/-- Two parameters of so many rows that a `long` does not hold their number. -/
theorem getTotalMultiTuples_covers_wrong : ¬ ∀ numOfParamMarkers lArraySize : Nat,
    1 ≤ numOfParamMarkers → numOfParamMarkers ≤ padbMaxParameters → 1 ≤ lArraySize →
    lArraySize < 2 ^ 63 → Covers numOfParamMarkers lArraySize
      (getTotalMultiTuples numOfParamMarkers lArraySize).1
      (getTotalMultiTuples numOfParamMarkers lArraySize).2 := by
  intro every
  have covers := every 2 (2 ^ 62) (by decide) (by decide) (by decide) (by decide)
  have none : (getTotalMultiTuples 2 (2 ^ 62 : Nat)).1 = 0 := by decide
  have some := covers.some
  omega

end RedshiftOdbc.Execute

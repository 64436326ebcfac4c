import Mathlib.Data.Int.DivMod
import Mathlib.Tactic.Ring

/-!
# Fixed-width words as bytes

A word of `width` bytes is written least significant byte first (`little`) or
most significant byte first (`big`).  A signed word stands for its value less
`256 ^ width` from half the range on, so that the two's complement image of a
number in range reads back as the number itself.
-/

namespace RedshiftOdbc.Words

/-- The value of a byte string, least significant byte first. -/
def ofLittle : List UInt8 → Nat
  | [] => 0
  | byte :: rest => byte.toNat + 256 * ofLittle rest

/-- The `width` low-order bytes of a number, least significant byte first. -/
def little : Nat → Nat → List UInt8
  | 0, _ => []
  | width + 1, value => UInt8.ofNat value :: little width (value / 256)

/-- The same bytes, most significant byte first. -/
def big (width value : Nat) : List UInt8 := (little width value).reverse

/-- The value of a byte string, most significant byte first. -/
def ofBig (bytes : List UInt8) : Nat := ofLittle bytes.reverse

@[simp]
theorem little_length (width value : Nat) : (little width value).length = width := by
  induction width generalizing value with
  | zero => rfl
  | succ width ih => simp [little, ih]

@[simp]
theorem big_length (width value : Nat) : (big width value).length = width := by
  simp [big]

theorem ofLittle_lt (bytes : List UInt8) : ofLittle bytes < 256 ^ bytes.length := by
  induction bytes with
  | nil => simp [ofLittle]
  | cons byte rest ih =>
      have small : byte.toNat < 256 := byte.toNat_lt
      rw [ofLittle, List.length_cons, Nat.pow_succ]
      omega

theorem little_zero (width : Nat) : little width 0 = List.replicate width 0 := by
  induction width with
  | zero => rfl
  | succ width ih =>
      rw [little, Nat.zero_div, ih]
      rfl

/-- The low-order bytes of a number and then those of what is above them. -/
theorem little_add (low high value : Nat) :
    little (low + high) value = little low value ++ little high (value / 256 ^ low) := by
  induction low generalizing value with
  | zero => simp [little]
  | succ low ih =>
      rw [Nat.succ_add, little, little, ih, Nat.div_div_eq_div_mul, Nat.pow_succ',
        List.cons_append]

/-- One more byte of a byte string. -/
theorem ofLittle_take_succ (bytes : List UInt8) (count : Nat) :
    ofLittle (bytes.take (count + 1)) =
      ofLittle (bytes.take count) + (bytes.getD count 0).toNat * 256 ^ count := by
  induction bytes generalizing count with
  | nil => simp [ofLittle]
  | cons byte rest ih =>
      cases count with
      | zero => simp [ofLittle]
      | succ count =>
          rw [List.take_succ_cons, ofLittle, ih, List.take_succ_cons, ofLittle,
            List.getD_cons_succ]
          ring

/-- The low-order bytes of a byte string. -/
theorem ofLittle_take (bytes : List UInt8) (count : Nat) :
    ofLittle (bytes.take count) = ofLittle bytes % 256 ^ count := by
  induction bytes generalizing count with
  | nil => simp [ofLittle]
  | cons byte rest ih =>
      cases count with
      | zero => simp [ofLittle, Nat.mod_one]
      | succ count =>
          have small : byte.toNat < 256 := byte.toNat_lt
          have low : (byte.toNat + 256 * ofLittle rest) % 256 = byte.toNat := by omega
          have high : (byte.toNat + 256 * ofLittle rest) / 256 = ofLittle rest := by omega
          rw [List.take_succ_cons, ofLittle, ih, ofLittle, Nat.pow_succ', Nat.mod_mul, low, high]

theorem ofLittle_little {width value : Nat} (fits : value < 256 ^ width) :
    ofLittle (little width value) = value := by
  induction width generalizing value with
  | zero =>
      have zero : value = 0 := by simpa using fits
      simp [little, ofLittle, zero]
  | succ width ih =>
      have inner : value / 256 < 256 ^ width := by
        rw [Nat.pow_succ] at fits
        omega
      rw [little, ofLittle, ih inner, UInt8.toNat_ofNat']
      omega

/-- A byte string is the word of its value. -/
theorem little_ofLittle (bytes : List UInt8) : little bytes.length (ofLittle bytes) = bytes := by
  induction bytes with
  | nil => rfl
  | cons byte rest ih =>
      have small : byte.toNat < 256 := byte.toNat_lt
      have low : (byte.toNat + 256 * ofLittle rest) % 256 = byte.toNat := by omega
      have high : (byte.toNat + 256 * ofLittle rest) / 256 = ofLittle rest := by omega
      have same : UInt8.ofNat (byte.toNat + 256 * ofLittle rest) = byte := by
        rw [← UInt8.toNat_inj, UInt8.toNat_ofNat', low]
      rw [List.length_cons, ofLittle, little, high, ih, same]

theorem ofBig_big {width value : Nat} (fits : value < 256 ^ width) :
    ofBig (big width value) = value := by
  rw [ofBig, big, List.reverse_reverse, ofLittle_little fits]

/-- A byte string has the value zero exactly when all its bytes are zero. -/
theorem ofLittle_eq_zero (bytes : List UInt8) :
    ofLittle bytes = 0 ↔ ∀ byte ∈ bytes, byte = 0 := by
  induction bytes with
  | nil => simp [ofLittle]
  | cons byte rest ih =>
      have bridge : byte.toNat = 0 ↔ byte = 0 := UInt8.toNat_inj (b := 0)
      rw [ofLittle, List.forall_mem_cons, ← ih, ← bridge]
      omega

/-- Two's complement image of a number in a word of `width` bytes. -/
def unsigned (width : Nat) (value : Int) : Nat := (value % (256 ^ width : Nat)).toNat

/-- The number a word of `width` bytes stands for when it is read as signed. -/
def signed (width value : Nat) : Int :=
  if 2 * value < 256 ^ width then value else value - (256 ^ width : Nat)

theorem unsigned_lt (width : Nat) (value : Int) : unsigned width value < 256 ^ width := by
  have positive : (0 : Int) < (256 ^ width : Nat) := by
    exact_mod_cast Nat.pow_pos (by decide : 0 < 256)
  have upper := Int.emod_lt_of_pos value positive
  have lower := Int.emod_nonneg value (Int.ne_of_gt positive)
  rw [unsigned]
  omega

/-- A number in range is its own image. -/
theorem unsigned_natCast {width value : Nat} (small : value < 256 ^ width) :
    unsigned width value = value := by
  have bound : (value : Int) < (256 ^ width : Nat) := by exact_mod_cast small
  rw [unsigned, Int.emod_eq_of_lt (Int.natCast_nonneg value) bound, Int.toNat_natCast]

theorem signed_unsigned {width : Nat} {value : Int}
    (lower : -((256 ^ width : Nat) : Int) ≤ 2 * value)
    (upper : 2 * value < ((256 ^ width : Nat) : Int)) :
    signed width (unsigned width value) = value := by
  have positive : (0 : Int) < (256 ^ width : Nat) := by
    exact_mod_cast Nat.pow_pos (by decide : 0 < 256)
  have nonneg := Int.emod_nonneg value (Int.ne_of_gt positive)
  have cast : ((unsigned width value : Nat) : Int) = value % (256 ^ width : Nat) := by
    rw [unsigned, Int.toNat_of_nonneg nonneg]
  rw [signed]
  by_cases sign : 0 ≤ value
  · have same : value % (256 ^ width : Nat) = value := Int.emod_eq_of_lt sign (by omega)
    rw [if_pos (by omega), cast, same]
  · have shifted : value % (256 ^ width : Nat) = value + (256 ^ width : Nat) := by
      rw [← Int.add_emod_right]
      exact Int.emod_eq_of_lt (by omega) (by omega)
    rw [if_neg (by omega), cast, shifted]
    omega

/-- A word is the image of the number it stands for. -/
theorem unsigned_signed {width value : Nat} (fits : value < 256 ^ width) :
    unsigned width (signed width value) = value := by
  have range : (value : Int) < (256 ^ width : Nat) := by exact_mod_cast fits
  rw [signed]
  split
  · exact unsigned_natCast fits
  · rw [unsigned, Int.sub_emod_right, Int.emod_eq_of_lt (Int.natCast_nonneg value) range,
      Int.toNat_natCast]

/-- A number cut down to a signed word of `width` bytes. -/
def wrap (width : Nat) (value : Int) : Int := signed width (unsigned width value)

theorem wrap_of_range {width : Nat} {value : Int}
    (lower : -((256 ^ width : Nat) : Int) ≤ 2 * value)
    (upper : 2 * value < ((256 ^ width : Nat) : Int)) : wrap width value = value :=
  signed_unsigned lower upper

theorem wrap_emod (width : Nat) (value : Int) :
    wrap width value % (256 ^ width : Nat) = value % (256 ^ width : Nat) := by
  have positive : (0 : Int) < (256 ^ width : Nat) := by
    exact_mod_cast Nat.pow_pos (by decide : 0 < 256)
  have cast : ((unsigned width value : Nat) : Int) = value % (256 ^ width : Nat) := by
    rw [unsigned, Int.toNat_of_nonneg (Int.emod_nonneg value (Int.ne_of_gt positive))]
  rw [wrap, signed]
  split
  · rw [cast, Int.emod_emod_of_dvd _ (dvd_refl _)]
  · rw [cast, Int.sub_emod_right, Int.emod_emod_of_dvd _ (dvd_refl _)]

theorem wrap_congr {width : Nat} {first second : Int}
    (same : first % (256 ^ width : Nat) = second % (256 ^ width : Nat)) :
    wrap width first = wrap width second := by
  rw [wrap, unsigned, same, wrap, unsigned]

/-- Cutting a summand down first does not matter. -/
theorem wrap_wrap_add (width : Nat) (first second : Int) :
    wrap width (wrap width first + second) = wrap width (first + second) := by
  refine wrap_congr ?_
  rw [Int.add_emod, wrap_emod, ← Int.add_emod]

/-- Cutting a factor down first does not matter. -/
theorem wrap_wrap_mul (width : Nat) (first second : Int) :
    wrap width (wrap width first * second) = wrap width (first * second) := by
  refine wrap_congr ?_
  rw [Int.mul_emod, wrap_emod, ← Int.mul_emod]

/-- Cutting down what is subtracted first does not matter. -/
theorem wrap_sub_wrap (width : Nat) (first second : Int) :
    wrap width (first - wrap width second) = wrap width (first - second) := by
  refine wrap_congr ?_
  rw [Int.sub_emod, wrap_emod, ← Int.sub_emod]

/-- A number that was cut down is below half the range. -/
theorem wrap_lt (width : Nat) (value : Int) : 2 * wrap width value < (256 ^ width : Nat) := by
  have bound := unsigned_lt width value
  rw [wrap, signed]
  split <;> omega

theorem le_wrap (width : Nat) (value : Int) : -((256 ^ width : Nat) : Int) ≤ 2 * wrap width value := by
  rw [wrap, signed]
  split <;> omega

/-- A word below half the range reads as the same number. -/
theorem signed_of_lt {width value : Nat} (small : 2 * value < 256 ^ width) :
    signed width value = value := by
  rw [signed, if_pos small]

end RedshiftOdbc.Words

import Mathlib.Data.BitVec

/-!
Words as numbers and as fields. A signed sum, difference or product is the one of the integers as
long as that fits the width; a field taken out by a shift and a mask is a slice.
-/

namespace VideoPipeline.Lib

variable {w : ℕ}

/-! ### Signed arithmetic -/

/-- The integers that `w` bits hold in two's complement. -/
def Fits (w : ℕ) (z : ℤ) : Prop := -2 ^ w ≤ z * 2 ∧ z * 2 < 2 ^ w

lemma bmod_of_fits {z : ℤ} (h : Fits w z) : z.bmod (2 ^ w) = z :=
  Int.bmod_eq_of_le_mul_two (by exact_mod_cast h.1) (by exact_mod_cast h.2)

section Operators

variable {x y : BitVec w} {a b : ℤ}

lemma toInt_add_of_fits (hx : x.toInt = a) (hy : y.toInt = b) (h : Fits w (a + b)) :
    (x + y).toInt = a + b := by
  rw [BitVec.toInt_add, hx, hy, bmod_of_fits h]

lemma toInt_sub_of_fits (hx : x.toInt = a) (hy : y.toInt = b) (h : Fits w (a - b)) :
    (x - y).toInt = a - b := by
  rw [BitVec.toInt_sub, hx, hy, bmod_of_fits h]

lemma toInt_mul_of_fits (hx : x.toInt = a) (hy : y.toInt = b) (h : Fits w (a * b)) :
    (x * y).toInt = a * b := by
  rw [BitVec.toInt_mul, hx, hy, bmod_of_fits h]

end Operators

/-- Zeros in front change no unsigned value. -/
lemma toNat_zero_append {k : ℕ} (x : BitVec w) : ((0 : BitVec k) ++ x).toNat = x.toNat := by
  rw [BitVec.toNat_append]
  simp

/-- Zeros in front make an unsigned word a signed one of the same value. -/
lemma toInt_zero_append {k : ℕ} (hk : 0 < k) (x : BitVec w) :
    ((0 : BitVec k) ++ x).toInt = x.toNat := by
  rw [BitVec.toInt_append, if_neg (by simpa using hk.ne')]
  simp

/-- Inverting and adding one is the absolute value of a negative word. -/
lemma toNat_abs {x : BitVec w} {b : Bool} (hb : b = x.msb) :
    ((if b then ~~~x + 1 else x : BitVec w).toNat : ℤ) = |x.toInt| := by
  subst hb
  cases h : x.msb with
  | false =>
    rw [if_neg Bool.false_ne_true, BitVec.toInt_eq_toNat_of_msb h, abs_of_nonneg (by omega)]
  | true =>
    have hneg := BitVec.toInt_neg_of_msb_true h
    rw [if_pos rfl, abs_of_neg hneg, BitVec.toInt_eq_neg_toNat_neg_of_msb_true h, neg_neg,
      BitVec.neg_eq_not_add]
    rfl

/-- The lower bits of a signed word are its value, when they hold it. -/
lemma toNat_slice {x : BitVec w} {k : ℕ} (h₀ : 0 ≤ x.toInt) (hk : x.toInt < 2 ^ k) :
    ((x.extractLsb' 0 k).toNat : ℤ) = x.toInt := by
  have hmsb : x.msb = false := by
    by_contra h
    have hneg := BitVec.toInt_neg_of_msb_true (Bool.eq_true_of_not_eq_false h)
    omega
  have hint := BitVec.toInt_eq_toNat_of_msb hmsb
  rw [hint] at hk ⊢
  rw [BitVec.extractLsb'_toNat, Nat.shiftRight_zero, Nat.mod_eq_of_lt (by exact_mod_cast hk)]

/-! ### Fields -/

/-- A slice that reaches up to where the value ends drops no bit above it. -/
lemma toNat_slice_of_lt {x : BitVec w} {s k : ℕ} (h : x.toNat < 2 ^ (s + k)) :
    (x.extractLsb' s k).toNat = x.toNat / 2 ^ s := by
  have hdiv : x.toNat / 2 ^ s < 2 ^ k := by
    rw [Nat.div_lt_iff_lt_mul (Nat.two_pow_pos s), ← pow_add, Nat.add_comm]
    exact h
  rw [BitVec.extractLsb'_toNat, Nat.shiftRight_eq_div_pow, Nat.mod_eq_of_lt hdiv]

/-- Above the value there are only zeros. -/
lemma slice_eq_zero_of_lt {x : BitVec w} {s k : ℕ} (h : x.toNat < 2 ^ s) :
    x.extractLsb' s k = 0 := by
  apply BitVec.eq_of_toNat_eq
  rw [BitVec.extractLsb'_toNat, Nat.shiftRight_eq_div_pow, Nat.div_eq_of_lt h]
  simp

lemma toNat_append_eq {v : ℕ} (x : BitVec v) (y : BitVec w) :
    (x ++ y).toNat = x.toNat * 2 ^ w + y.toNat := by
  rw [BitVec.toNat_append, ← Nat.shiftLeft_add_eq_or_of_lt y.isLt, Nat.shiftLeft_eq]

lemma getLsbD_append_high {v : ℕ} (x : BitVec v) (y : BitVec w) (i : ℕ) :
    (x ++ y).getLsbD (w + i) = x.getLsbD i := by
  simp [BitVec.getLsbD_append]

lemma getLsbD_append_low {v i : ℕ} (x : BitVec v) (y : BitVec w) (h : i < w) :
    (x ++ y).getLsbD i = y.getLsbD i := by
  simp [BitVec.getLsbD_append, h]

/-- A shift and a mask are a slice, in any width that holds the word. -/
lemma shift_mask {v : ℕ} (x : BitVec v) (s n : ℕ) (h : v ≤ w) :
    (x.setWidth w >>> s) &&& BitVec.ofNat w (2 ^ n - 1) = (x.extractLsb' s n).setWidth w := by
  apply BitVec.eq_of_getLsbD_eq
  intro i hi
  have hx (hw : w ≤ s + i) : x.getLsbD (s + i) = false := BitVec.getLsbD_of_ge x _ (by omega)
  simp only [BitVec.getLsbD_and, BitVec.getLsbD_ushiftRight, BitVec.getLsbD_ofNat,
    Nat.testBit_two_pow_sub_one, BitVec.getLsbD_setWidth, BitVec.getLsbD_extractLsb', hi]
  by_cases hw : s + i < w
  · simp [hw, Bool.and_comm]
  · simp [hx (by omega)]

lemma shift_mask_self (x : BitVec w) (s n : ℕ) :
    (x >>> s) &&& BitVec.ofNat w (2 ^ n - 1) = (x.extractLsb' s n).setWidth w := by
  have h := shift_mask (w := w) x s n le_rfl
  rwa [BitVec.setWidth_eq] at h

/-- A shift alone is a slice too. -/
lemma shift_eq {v : ℕ} (x : BitVec v) (s : ℕ) (h : v ≤ w) :
    x.setWidth w >>> s = (x.extractLsb' s (v - s)).setWidth w := by
  apply BitVec.eq_of_getLsbD_eq
  intro i hi
  have hx (hv : v ≤ s + i) : x.getLsbD (s + i) = false := BitVec.getLsbD_of_ge x _ hv
  simp only [BitVec.getLsbD_ushiftRight, BitVec.getLsbD_setWidth, BitVec.getLsbD_extractLsb', hi]
  by_cases hv : s + i < v
  · simp [show s + i < w by omega, show i < v - s by omega]
  · simp [hx (by omega)]

/-- Sixteen bits are two bytes. -/
lemma bytes_append (x : BitVec 16) : x.extractLsb' 8 8 ++ x.extractLsb' 0 8 = x := by
  rw [BitVec.extractLsb'_append_extractLsb'_eq_extractLsb' (by omega)]
  exact BitVec.extractLsb'_eq_self

end VideoPipeline.Lib

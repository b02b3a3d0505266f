import Mathlib.Algebra.BigOperators.Ring.Finset
import Mathlib.Algebra.Order.BigOperators.Group.Finset

/-!
Weighted means of natural numbers, rounded down. A mean lies between any bounds of its values, it
moves with each of them, and the weighted sum it is taken from is at most the bound times the
weight, which is what decides the number of bits it needs.
-/

namespace VideoPipeline.Lib

variable {ι : Type*} (s : Finset ι) (w x : ι → ℕ)

/-- The sum of the values, each times its weight. -/
def weightedSum : ℕ := ∑ i ∈ s, w i * x i

/-- The weighted mean, rounded down. -/
def weightedMean : ℕ := weightedSum s w x / ∑ i ∈ s, w i

variable {s w x} {y : ι → ℕ} {a b : ℕ}

lemma weightedSum_mono (h : ∀ i ∈ s, x i ≤ y i) : weightedSum s w x ≤ weightedSum s w y :=
  Finset.sum_le_sum fun i hi => Nat.mul_le_mul_left (w i) (h i hi)

lemma weightedSum_const : weightedSum s w (fun _ => a) = (∑ i ∈ s, w i) * a :=
  (Finset.sum_mul s w a).symm

lemma weightedSum_le (h : ∀ i ∈ s, x i ≤ b) : weightedSum s w x ≤ (∑ i ∈ s, w i) * b :=
  weightedSum_const (s := s) (w := w) (a := b) ▸ weightedSum_mono h

lemma le_weightedSum (h : ∀ i ∈ s, a ≤ x i) : (∑ i ∈ s, w i) * a ≤ weightedSum s w x :=
  weightedSum_const (s := s) (w := w) (a := a) ▸ weightedSum_mono h

/-- Values of `k` bits under weights that add up to `2 ^ m` at most have a sum of `m + k` bits. -/
theorem weightedSum_lt {m k : ℕ} (hw : ∑ i ∈ s, w i ≤ 2 ^ m) (h : ∀ i ∈ s, x i < 2 ^ k) :
    weightedSum s w x < 2 ^ (m + k) := by
  have hk := Nat.two_pow_pos k
  have hm := Nat.two_pow_pos m
  calc weightedSum s w x ≤ (∑ i ∈ s, w i) * (2 ^ k - 1) :=
        weightedSum_le fun i hi => Nat.le_sub_one_of_lt (h i hi)
    _ ≤ 2 ^ m * (2 ^ k - 1) := Nat.mul_le_mul_right _ hw
    _ < 2 ^ m * 2 ^ k := Nat.mul_lt_mul_of_pos_left (by omega) hm
    _ = 2 ^ (m + k) := (pow_add 2 m k).symm

/-- A mean is at most what all its values are at most. -/
theorem weightedMean_le (h : ∀ i ∈ s, x i ≤ b) : weightedMean s w x ≤ b :=
  Nat.div_le_of_le_mul (weightedSum_le h)

/-- A mean is at least what all its values are at least. -/
theorem le_weightedMean (hw : 0 < ∑ i ∈ s, w i) (h : ∀ i ∈ s, a ≤ x i) :
    a ≤ weightedMean s w x := by
  rw [weightedMean, Nat.le_div_iff_mul_le hw, Nat.mul_comm]
  exact le_weightedSum h

theorem weightedMean_mono (h : ∀ i ∈ s, x i ≤ y i) : weightedMean s w x ≤ weightedMean s w y :=
  Nat.div_le_div_right (weightedSum_mono h)

end VideoPipeline.Lib

import Mathlib.Data.Nat.Count
import Mathlib.Data.BitVec

/-!
Synchronous machines: a state that moves once a clock edge, by a step that reads the inputs of
the cycle. The run of a machine, the rule that carries an invariant along it, the projection of
a run to a part of its state, and the registers every design is made of: the one with an enable,
the shift register and the counter that wraps.
-/

namespace VideoPipeline.Lib

/-! ### Runs -/

section Runs

variable {σ τ ι κ : Type*}

/-- The state of the machine after `n` clock edges, with the input `i n` in cycle `n`. -/
def run (step : σ → ι → σ) (s₀ : σ) (i : ℕ → ι) : ℕ → σ
  | 0 => s₀
  | n + 1 => step (run step s₀ i n) (i n)

variable {step : σ → ι → σ} {s₀ : σ} {i : ℕ → ι}

@[simp] lemma run_zero : run step s₀ i 0 = s₀ := rfl

lemma run_succ (n : ℕ) : run step s₀ i (n + 1) = step (run step s₀ i n) (i n) := rfl

/-- **Invariants along a run.** What holds of the initial state, and is kept by the step of
every cycle of the run, holds after every edge. -/
theorem run_invariant {P : ℕ → σ → Prop} (h₀ : P 0 s₀)
    (hstep : ∀ n, P n (run step s₀ i n) → P (n + 1) (step (run step s₀ i n) (i n))) (n : ℕ) :
    P n (run step s₀ i n) := by
  induction n with
  | zero => exact h₀
  | succ n ih => exact hstep n ih

/-- **Projection of a run.** A part of the state that moves by a step of its own, reading what
`g` takes from the rest, follows the run of that step. -/
theorem run_proj {step' : τ → κ → τ} (f : σ → τ) (g : σ → ι → κ)
    (h : ∀ s x, f (step s x) = step' (f s) (g s x)) (n : ℕ) :
    f (run step s₀ i n) = run step' (f s₀) (fun m => g (run step s₀ i m) (i m)) n := by
  induction n with
  | zero => rfl
  | succ n ih => rw [run_succ, h, run_succ, ih]

end Runs

/-! ### Machines that stand still -/

section Stutter

variable {σ τ ι : Type*} {step : σ → ι → σ} {s₀ s₁ : σ} {i j : ℕ → ι}

/-- **Runs with gaps.** A part of the state that moves in the cycles of a kind only, by what `R`
compares of their inputs, agrees in two runs after as many cycles of that kind. -/
theorem run_stutter {f : σ → τ} {v : ι → Prop} [DecidablePred v] {R : ι → ι → Prop}
    (idle : ∀ s x, ¬ v x → f (step s x) = f s)
    (move : ∀ s s' x y, v x → v y → f s = f s' → R x y → f (step s x) = f (step s' y))
    (h₀ : f s₀ = f s₁)
    (h : ∀ n m, v (i n) → v (j m) →
      Nat.count (fun k => v (i k)) n = Nat.count (fun k => v (j k)) m → R (i n) (j m))
    (n m : ℕ) (hnm : Nat.count (fun k => v (i k)) n = Nat.count (fun k => v (j k)) m) :
    f (run step s₀ i n) = f (run step s₁ j m) := by
  induction n generalizing m with
  | zero =>
    -- the other run has stood still so far
    induction m with
    | zero => exact h₀
    | succ m ih =>
      rw [Nat.count_succ, Nat.count_zero] at hnm
      have hv : ¬ v (j m) := by
        intro hv
        rw [if_pos hv] at hnm
        omega
      rw [if_neg hv] at hnm
      rw [run_succ m, idle _ _ hv]
      exact ih hnm
  | succ n ih =>
    rw [Nat.count_succ] at hnm
    by_cases hi : v (i n)
    · rw [if_pos hi] at hnm
      induction m with
      | zero =>
        rw [Nat.count_zero] at hnm
        omega
      | succ m ihm =>
        rw [Nat.count_succ] at hnm
        by_cases hj : v (j m)
        · rw [if_pos hj, Nat.add_right_cancel_iff] at hnm
          rw [run_succ, run_succ]
          exact move _ _ _ _ hi hj (ih m hnm) (h n m hi hj hnm)
        · rw [if_neg hj] at hnm
          rw [run_succ m, idle _ _ hj]
          exact ihm hnm
    · rw [if_neg hi] at hnm
      rw [run_succ n, idle _ _ hi]
      exact ih m hnm

end Stutter

/-! ### Registers with an enable -/

section Enable

variable {α : Type*} {x y : ℕ → α} {v : ℕ → Prop} [DecidablePred v]

/-- A register with an enable holds what it took last. -/
theorem register_of_last (h : ∀ n, x (n + 1) = if v n then y n else x n) {m n : ℕ} (hm : v m)
    (hmn : m < n) (hlast : ∀ k, m < k → k < n → ¬ v k) : x n = y m := by
  induction n, hmn using Nat.le_induction with
  | base => rw [Nat.succ_eq_add_one, h, if_pos hm]
  | succ n hn ih =>
    rw [h, if_neg (hlast n hn (by omega))]
    exact ih fun k h1 h2 => hlast k h1 (by omega)

/-- Until it takes something, it holds what it was set to. -/
theorem register_of_none (h : ∀ n, x (n + 1) = if v n then y n else x n) {n : ℕ}
    (hno : ∀ k < n, ¬ v k) : x n = x 0 := by
  induction n with
  | zero => rfl
  | succ n ih =>
    rw [h, if_neg (hno n (by omega))]
    exact ih fun k hk => hno k (by omega)

end Enable

/-! ### Shift registers -/

section Shift

variable {w : ℕ} {p : ℕ → BitVec w} {c : ℕ → Bool}

lemma shiftConcat_bit_zero (x : BitVec w) (b : Bool) (hw : 0 < w) :
    (x.shiftConcat b).getLsbD 0 = b := by
  simp [hw]

lemma shiftConcat_bit_succ (x : BitVec w) (b : Bool) {j : ℕ} (hj : j + 1 < w) :
    (x.shiftConcat b).getLsbD (j + 1) = x.getLsbD j := by
  rw [BitVec.getLsbD_shiftConcat, if_neg (Nat.succ_ne_zero j), decide_eq_true hj, Bool.true_and,
    Nat.add_sub_cancel]

/-- What was shifted in at cycle `n` stands at bit `j` after `j + 1` edges. -/
theorem shift_bit (h : ∀ n, p (n + 1) = (p n).shiftConcat (c n)) {j : ℕ} (hj : j < w) (n : ℕ) :
    (p (n + j + 1)).getLsbD j = c n := by
  induction j with
  | zero => rw [Nat.add_zero, h, shiftConcat_bit_zero _ _ hj]
  | succ j ih => rw [← Nat.add_assoc, h, shiftConcat_bit_succ _ _ hj, ih (by omega)]

/-- Before anything reached it, bit `j` holds what the register was set to. -/
theorem shift_bit_init (h : ∀ n, p (n + 1) = (p n).shiftConcat (c n)) {j n : ℕ} (hj : j < w)
    (hn : n ≤ j) : (p n).getLsbD j = (p 0).getLsbD (j - n) := by
  induction n generalizing j with
  | zero => rfl
  | succ n ih =>
    rw [h, BitVec.getLsbD_shiftConcat, if_neg (by omega), ih (by omega) (by omega)]
    simp [hj, show j - 1 - n = j - (n + 1) by omega]

end Shift

/-! ### Counters that wrap -/

lemma succ_mod_of_lt {n N : ℕ} (h : n % N + 1 < N) : (n + 1) % N = n % N + 1 := by
  rw [Nat.add_mod_eq_ite, Nat.mod_eq_of_lt (a := 1) (by omega), if_neg (by omega)]

lemma succ_div_of_lt {n N : ℕ} (h : n % N + 1 < N) : (n + 1) / N = n / N := by
  have hdiv := Nat.div_add_mod n N
  rw [Nat.div_eq_iff (by omega)]
  rw [Nat.mul_comm] at hdiv
  omega

lemma succ_mod_of_last {n N : ℕ} (h : n % N + 1 = N) : (n + 1) % N = 0 := by
  have hdiv := Nat.div_add_mod n N
  have : n + 1 = N * (n / N + 1) := by rw [Nat.mul_add]; omega
  rw [this, Nat.mul_mod_right]

lemma succ_div_of_last {n N : ℕ} (h : n % N + 1 = N) : (n + 1) / N = n / N + 1 := by
  have hdiv := Nat.div_add_mod n N
  have : n + 1 = N * (n / N + 1) := by rw [Nat.mul_add]; omega
  rw [this, Nat.mul_div_cancel_left _ (by omega)]

section Wrap

variable {w n : ℕ} {c T : BitVec w}

lemma toNat_one_of_pos (hT : 0 < T.toNat) : (1 : BitVec w).toNat = 1 := by
  have hw : w ≠ 0 := by rintro rfl; simp [BitVec.of_length_zero] at hT
  exact BitVec.toNat_one (by omega)

lemma toNat_last (hT : 0 < T.toNat) : (T - 1).toNat = T.toNat - 1 := by
  have h1 := toNat_one_of_pos hT
  rw [BitVec.toNat_sub_of_le (by rw [BitVec.le_def]; omega), h1]

/-- A register at `n` modulo `T` is not at its last value as long as `n + 1` does not wrap. -/
lemma wrap_lt_last (hT : 0 < T.toNat) (hc : c.toNat = n % T.toNat) :
    c < T - 1 ↔ n % T.toNat + 1 < T.toNat := by
  rw [BitVec.lt_def, toNat_last hT, hc]
  omega

/-- **The register that counts to `T - 1` and wraps counts modulo `T`.** -/
theorem wrap_toNat (hT : 0 < T.toNat) (hc : c.toNat = n % T.toNat) :
    (if c < T - 1 then c + 1 else 0).toNat = (n + 1) % T.toNat := by
  have hlt := Nat.mod_lt n hT
  have h1 := toNat_one_of_pos hT
  by_cases h : n % T.toNat + 1 < T.toNat
  · have hT2 := T.isLt
    rw [if_pos ((wrap_lt_last hT hc).2 h), succ_mod_of_lt h, BitVec.toNat_add_of_lt (by omega),
      hc, h1]
  · rw [if_neg (mt (wrap_lt_last hT hc).1 h), succ_mod_of_last (by omega)]
    simp

end Wrap

/-! ### Counting the cycles of a kind -/

/-- Where a count has a closed form that moves as the count does, it is the count. -/
theorem count_eq_of_step {p : ℕ → Prop} [DecidablePred p] {f : ℕ → ℕ} (h₀ : f 0 = 0)
    (h : ∀ n, f (n + 1) = f n + if p n then 1 else 0) (n : ℕ) : Nat.count p n = f n := by
  induction n with
  | zero => rw [Nat.count_zero, h₀]
  | succ n ih => rw [Nat.count_succ, h, ih]

/-- The cycles of a kind in a stretch of time, when `t k` is the `k`-th of them. -/
theorem filter_range' {p : ℕ → Prop} [DecidablePred p] {t : ℕ → ℕ}
    (h : ∀ n, p n → t (Nat.count p n) = n) (a m : ℕ) :
    (List.range' a m).filter (fun n => p n) =
      (List.range' (Nat.count p a) (Nat.count p (a + m) - Nat.count p a)).map t := by
  induction m with
  | zero => simp
  | succ m ih =>
    have hmono : Nat.count p a ≤ Nat.count p (a + m) := Nat.count_monotone p (by omega)
    rw [List.range'_1_concat, List.filter_append, ih, ← Nat.add_assoc, Nat.count_succ]
    by_cases hp : p (a + m)
    · have hlast : Nat.count p a + (Nat.count p (a + m) - Nat.count p a) = Nat.count p (a + m) := by
        omega
      rw [if_pos hp, Nat.sub_add_comm hmono, List.range'_1_concat, List.map_append, hlast,
        List.map_singleton, h _ hp]
      simp [hp]
    · rw [if_neg hp]
      simp [hp]

end VideoPipeline.Lib

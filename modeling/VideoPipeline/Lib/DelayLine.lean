import Mathlib.Data.Nat.Count
import Mathlib.Logic.Function.Basic

/-!
A memory read and then written at a rotating address is a delay line. The contents of a memory
after a sequence of writes, the address sequences that visit a fixed set of places in the same
order again and again, and the value such a sequence reads: what was written one rotation ago,
or what the memory held at the start.
-/

namespace VideoPipeline.Lib

variable {A D : Type*} [DecidableEq A]

/-- The memory `m` after the writes of `d 0, …, d (k - 1)` at `a 0, …, a (k - 1)`. -/
def writes (m : A → D) (a : ℕ → A) (d : ℕ → D) : ℕ → A → D
  | 0 => m
  | k + 1 => Function.update (writes m a d k) (a k) (d k)

/-- `a` rotates through `N` places: it repeats after `N` steps and not before. -/
structure Rotates (a : ℕ → A) (N : ℕ) : Prop where
  pos : 0 < N
  period : ∀ k, a (k + N) = a k
  distinct : ∀ i j, i < j → j < i + N → a i ≠ a j

/-- The `k`-th value a delay line of length `N` gives back. -/
def delayed (m : A → D) (a : ℕ → A) (d : ℕ → D) (N k : ℕ) : D :=
  if k < N then m (a k) else d (k - N)

variable {m : A → D} {a : ℕ → A} {d : ℕ → D} {N : ℕ}

omit [DecidableEq A] in
lemma delayed_of_le {k : ℕ} (h : N ≤ k) : delayed m a d N k = d (k - N) := if_neg (by omega)

omit [DecidableEq A] in
lemma delayed_of_lt {k : ℕ} (h : k < N) : delayed m a d N k = m (a k) := if_pos h

/-- A place that is not written keeps its contents. -/
lemma writes_of_ne {b : A} {k j : ℕ} (h : ∀ i, k ≤ i → i < k + j → a i ≠ b) :
    writes m a d (k + j) b = writes m a d k b := by
  induction j with
  | zero => rfl
  | succ j ih =>
    rw [← Nat.add_assoc, writes, Function.update_of_ne (h (k + j) (by omega) (by omega)).symm]
    exact ih fun i h1 h2 => h i h1 (by omega)

/-- A place that is not written again holds what was written last. -/
lemma writes_of_last {k j : ℕ} (hj : j < k) (h : ∀ i, j < i → i < k → a i ≠ a j) :
    writes m a d k (a j) = d j := by
  obtain ⟨l, rfl⟩ := Nat.exists_eq_add_of_le hj
  have hkeep := writes_of_ne (m := m) (a := a) (d := d) (b := a j) (k := j + 1) (j := l)
    fun i h1 h2 => h i h1 h2
  rw [hkeep, writes, Function.update_self]

/-- **A rotating memory is a delay line.** The place about to be written for the `k`-th time
holds what was written one rotation ago. -/
theorem writes_rotates (h : Rotates a N) (k : ℕ) : writes m a d k (a k) = delayed m a d N k := by
  by_cases hk : k < N
  · have h0 := writes_of_ne (m := m) (a := a) (d := d) (b := a k) (k := 0) (j := k)
      fun i _ hi => h.distinct i k (by omega) (by omega)
    rw [Nat.zero_add] at h0
    rw [delayed_of_lt hk, h0, writes]
  · obtain ⟨j, rfl⟩ := Nat.exists_eq_add_of_le' (not_lt.1 hk)
    rw [delayed_of_le (by omega), h.period, Nat.add_sub_cancel]
    have hN := h.pos
    exact writes_of_last (by omega) fun i h1 h2 => (h.distinct j i h1 h2).symm

end VideoPipeline.Lib

import Mathlib.Tactic.IntervalCases
import VideoPipeline.Top.VSync

/-!
The flush of the FIFO. `vga_frame_done` is up for one edge of `clk_50m_sys`, and the flush logic
samples it at the edges of `clk_25m_vga`; it sees it exactly when one edge of `clk_50m_sys` falls
in the cycle in which the vertical sync rises. Then the clear is up in the cycles 3 to 11 after
the rise, and otherwise it stays down for the whole frame.
-/

namespace VideoPipeline.Top

open VideoPipeline.Lib VideoPipeline.Vga VideoPipeline.Image VideoPipeline.Read

namespace Run

variable (r : Run)

/-- The last rise before cycle `t` was in a cycle with one edge of `clk_50m_sys`. -/
def Triggered (t : ℕ) : Prop := (r.burst (t - vsPhase t)).length = 1

instance : DecidablePred r.Triggered := fun t => by unfold Triggered; infer_instance

/-- `fifo_aclr` is up in cycle `t`. -/
def Aclr (t : ℕ) : Prop := (r.start t).fifoAclr = true

/-- The cycle `t` is one of those in which a flush clears the FIFO. -/
def Flushing (t : ℕ) : Prop := r.Triggered t ∧ 3 ≤ vsPhase t ∧ vsPhase t ≤ 11

instance : DecidablePred r.Flushing := fun t => by unfold Flushing; infer_instance

variable {r} {t : ℕ}

/-! ### What the flush logic samples -/

lemma vsPhase_le_of_lt (h : vsPhase t < 410394) : vsPhase t ≤ t := by
  unfold vsPhase at h ⊢
  omega

/-- A cycle comes as many cycles after a rise as its phase says. -/
lemma exists_rise (h : vsPhase t ≤ t) : ∃ t₀, vsPhase t₀ = 0 ∧ t = t₀ + vsPhase t := by
  refine ⟨t - vsPhase t, ?_, by omega⟩
  unfold vsPhase at h ⊢
  omega

lemma triggered_succ (h : vsPhase (t + 1) ≠ 0) : r.Triggered (t + 1) ↔ r.Triggered t := by
  unfold Triggered
  rw [vsPhase_succ h, Nat.add_sub_add_right]

/-- At the end of a cycle `vga_frame_done` is up just when the vertical sync rose in this cycle
and one edge of `clk_50m_sys` followed. -/
theorem vgaFrameDone_final (hl : r.Linked) (t : ℕ) :
    (r.final t).vgaFrameDone = decide (vsPhase t = 0 ∧ r.Triggered t) := by
  have hle := vsPhase_le_since hl t (r.burst t).length
  have hlen := hl.eq_zero_or t
  rw [final_eq, (synced hl le_rfl).done, decide_eq_decide]
  unfold Triggered
  constructor
  · intro h
    have hz : t = 0 → vsPhase t = 410394 := by rintro rfl; rfl
    have h0 : vsPhase t = 0 := by omega
    rw [h0, Nat.sub_zero]
    omega
  · rintro ⟨h0, h1⟩
    rw [h0, Nat.sub_zero] at h1
    have hs := since_zero_of_rises (r := r) h0
    unfold since at hs ⊢
    omega

lemma fifoClrSync_succ (hl : r.Linked) (t : ℕ) : (r.start (t + 1)).fifoClrSync =
    (r.start t).fifoClrSync.shiftConcat (decide (vsPhase t = 0 ∧ r.Triggered t)) := by
  rw [start_succ, ← vgaFrameDone_final hl, ← fifoClrSync_point (i := (r.burst t).length)]
  rfl

/-- The flush starts two cycles after the rise that triggers it. -/
theorem clrStart_start (hl : r.Linked) (t : ℕ) :
    (r.start t).clrStart = decide (vsPhase t = 2 ∧ r.Triggered t) := by
  unfold DoanTop.clrStart
  rcases Nat.lt_or_ge t 2 with ht | ht
  · -- nothing was sampled yet
    have hinit := shift_bit_init (p := fun t => (r.start t).fifoClrSync) (fifoClrSync_succ hl)
      (show 1 < 2 by omega) (show t ≤ 1 by omega)
    have h0 : (r.start 0).fifoClrSync.getLsbD (1 - t) = false := by
      change (0 : BitVec 2).getLsbD (1 - t) = false
      simp
    have hz : vsPhase t ≠ 2 := by unfold vsPhase; omega
    rw [hinit, h0, Bool.false_and, eq_comm, decide_eq_false_iff_not]
    intro h
    exact hz h.1
  · obtain ⟨u, rfl⟩ := Nat.exists_eq_add_of_le' ht
    have h1 := shift_bit (p := fun t => (r.start t).fifoClrSync) (fifoClrSync_succ hl)
      (show 1 < 2 by omega) u
    have h0 := shift_bit (p := fun t => (r.start t).fifoClrSync) (fifoClrSync_succ hl)
      (show 0 < 2 by omega) (u + 1)
    rw [show u + 2 = u + 1 + 0 + 1 by omega, h0, show u + 1 + 0 + 1 = u + 1 + 1 by omega, h1]
    have hph : vsPhase (u + 1 + 1) = 2 ↔ vsPhase u = 0 := by unfold vsPhase; omega
    by_cases hu : vsPhase u = 0
    · have e1 : vsPhase (u + 1) ≠ 0 := by unfold vsPhase at hu ⊢; omega
      have e2 : vsPhase (u + 1 + 1) ≠ 0 := by unfold vsPhase at hu ⊢; omega
      simp [hph, hu, e1, triggered_succ e2, triggered_succ e1]
    · simp [hph, hu]

/-! ### The clear in closed form -/

lemma flushing_succ (h : vsPhase (t + 1) ≠ 0) :
    r.Flushing (t + 1) ↔ r.Triggered t ∧ 2 ≤ vsPhase t ∧ vsPhase t ≤ 10 := by
  unfold Flushing
  rw [triggered_succ h, vsPhase_succ h]
  constructor <;> rintro ⟨h1, h2, h3⟩ <;> exact ⟨h1, by omega, by omega⟩

lemma clrStart_final (hl : r.Linked) (t : ℕ) :
    (r.final t).clrStart = decide (vsPhase t = 2 ∧ r.Triggered t) := by
  rw [← clrStart_start hl, final_eq, DoanTop.clrStart, fifoClrSync_point]
  rfl

lemma not_flushing_of_rise (h : vsPhase (t + 1) = 0) : ¬ r.Flushing t ∧ ¬ r.Flushing (t + 1) := by
  have hlast := vsPhase_of_succ_eq_zero h
  constructor <;> rintro ⟨-, h1, h2⟩ <;> omega

lemma ofNat_ne_zero {k : ℕ} (h : k ≤ 8) : BitVec.ofNat 4 k ≠ 0 ↔ k ≠ 0 := by
  interval_cases k <;> decide

/-- One step of a counter that counts down to zero. -/
lemma countdown {k : ℕ} (h : k ≤ 8) :
    (if BitVec.ofNat 4 k ≠ 0 then BitVec.ofNat 4 k - 1 else BitVec.ofNat 4 k) =
      BitVec.ofNat 4 (k - 1) := by
  interval_cases k <;> rfl

variable (r) in
/-- The cycles of the flush that are left after cycle `t`. -/
def holdLeft (t : ℕ) : ℕ := if r.Flushing t then 11 - vsPhase t else 0

lemma holdLeft_le (t : ℕ) : r.holdLeft t ≤ 8 := by
  unfold holdLeft
  split_ifs with h
  · have := h.2
    omega
  · omega

lemma holdLeft_succ (t : ℕ) : r.holdLeft (t + 1) =
    if vsPhase t = 2 ∧ r.Triggered t then 8 else r.holdLeft t - 1 := by
  unfold holdLeft
  by_cases h0 : vsPhase (t + 1) = 0
  · obtain ⟨h1, h2⟩ := not_flushing_of_rise (r := r) h0
    have hlast := vsPhase_of_succ_eq_zero h0
    rw [if_neg h1, if_neg h2, if_neg (by omega)]
  · rw [vsPhase_succ h0]
    simp only [flushing_succ h0]
    unfold Flushing
    by_cases hT : r.Triggered t
    · simp only [hT, true_and, and_true]
      split_ifs <;> omega
    · simp [hT]

/-- The hold counter counts the cycles of the flush down. -/
theorem fifoClrCnt_start (hl : r.Linked) (t : ℕ) :
    (r.start t).fifoClrCnt = BitVec.ofNat 4 (r.holdLeft t) := by
  induction t with
  | zero =>
    rw [holdLeft, if_neg fun h => absurd h.2.2 (by simp [vsPhase])]
    rfl
  | succ t ih =>
    have hstep : (r.start (t + 1)).fifoClrCnt =
        if (r.final t).clrStart then 8
        else if (r.start t).fifoClrCnt ≠ 0 then (r.start t).fifoClrCnt - 1
        else (r.start t).fifoClrCnt := by
      rw [start_succ, ← fifoClrCnt_point (i := (r.burst t).length)]
      rfl
    rw [hstep, clrStart_final hl, ih, holdLeft_succ]
    by_cases h : vsPhase t = 2 ∧ r.Triggered t
    · rw [if_pos (decide_eq_true h), if_pos h]
      rfl
    · rw [if_neg (by rwa [decide_eq_true_eq]), if_neg h]
      exact countdown (holdLeft_le t)

theorem nextAclr_final (hl : r.Linked) (t : ℕ) :
    (r.final t).nextAclr = decide (r.Flushing (t + 1)) := by
  have hcnt : (r.final t).fifoClrCnt ≠ 0 ↔ r.Flushing t ∧ vsPhase t ≤ 10 := by
    rw [final_eq, fifoClrCnt_point, fifoClrCnt_start hl, ofNat_ne_zero (holdLeft_le t), holdLeft]
    split_ifs with hf
    · simp only [hf, true_and]
      omega
    · simp [hf]
  rw [DoanTop.nextAclr, clrStart_final hl, ← Bool.decide_or, decide_eq_decide, hcnt]
  by_cases h0 : vsPhase (t + 1) = 0
  · obtain ⟨h1, h2⟩ := not_flushing_of_rise (r := r) h0
    have hlast := vsPhase_of_succ_eq_zero h0
    simp [h1, h2, hlast]
  · rw [flushing_succ h0, Flushing]
    by_cases hT : r.Triggered t
    · simp only [hT, and_true, true_and]
      omega
    · simp [hT]

/-- **When the FIFO is in clear.** -/
theorem aclr_iff (hl : r.Linked) (t : ℕ) : r.Aclr t ↔ t = 0 ∨ r.Flushing t := by
  cases t with
  | zero => exact ⟨fun _ => Or.inl rfl, fun _ => rfl⟩
  | succ t =>
    rw [Aclr, fifoAclr_start_succ, nextAclr_final hl, decide_eq_true_eq]
    simp

/-! ### One flush for each frame -/

variable (r) in
/-- `vga_req` is up in cycle `t`. -/
def VgaReq (t : ℕ) : Prop := (r.start t).vgaReq = true

variable (r) in
/-- **Every frame flushes the FIFO exactly once.** -/
structure FlushesOnce : Prop where
  /-- Between a rise and the next request the clear is up in one interval of eight cycles or
  more, and in no other cycle. -/
  once : ∀ t₀ t₁, r.Rises t₀ → t₀ ≤ t₁ → r.VgaReq t₁ → (∀ t, t₀ ≤ t → t < t₁ → ¬ r.VgaReq t) →
    ∃ a b, t₀ < a ∧ a + 8 ≤ b ∧ b ≤ t₁ ∧
      ∀ t, t₀ ≤ t → t ≤ t₁ → (r.Aclr t ↔ a ≤ t ∧ t < b)
  /-- After the release from reset the clear is up only between a rise and the next request. -/
  only : ∀ t, 1 ≤ t → r.Aclr t → ∃ t₀ ≤ t, r.Rises t₀ ∧ ∀ u, t₀ ≤ u → u ≤ t → ¬ r.VgaReq u

lemma vgaReq_iff (t : ℕ) : r.VgaReq t ↔ Requests t := by
  rw [VgaReq, vgaReq_start, decide_eq_true_eq]

/-- In the blanking after a rise the phase counts the cycles since it. -/
lemma vsPhase_add {t₀ k : ℕ} (h : vsPhase t₀ = 0) (hk : k < 420000) : vsPhase (t₀ + k) = k := by
  unfold vsPhase at h ⊢
  omega

lemma not_requests_add {t₀ k : ℕ} (h : vsPhase t₀ = 0) (hk : k < 26554) : ¬ Requests (t₀ + k) := by
  intro hr
  have := (vsPhase_of_requests hr).1
  rw [vsPhase_add h (by omega)] at this
  omega

lemma requests_first {t₀ : ℕ} (h : vsPhase t₀ = 0) : Requests (t₀ + 26554) := by
  unfold vsPhase at h
  unfold Requests
  omega

lemma flushing_add {t₀ k : ℕ} (h : vsPhase t₀ = 0) (hk : k < 420000) :
    r.Flushing (t₀ + k) ↔ (r.burst t₀).length = 1 ∧ 3 ≤ k ∧ k ≤ 11 := by
  rw [Flushing, Triggered, vsPhase_add h hk, Nat.add_sub_cancel]

lemma aclr_add (hl : r.Linked) {t₀ k : ℕ} (h : vsPhase t₀ = 0) (hk : k < 420000) :
    r.Aclr (t₀ + k) ↔ (r.burst t₀).length = 1 ∧ 3 ≤ k ∧ k ≤ 11 := by
  have hpos : t₀ + k ≠ 0 := by
    unfold vsPhase at h
    omega
  rw [aclr_iff hl, flushing_add h hk]
  exact or_iff_right hpos

/-- After the release from reset the clear is up in the blanking after a rise only. -/
lemma rise_of_aclr (hl : r.Linked) (ht : 1 ≤ t) (hclr : r.Aclr t) :
    ∃ t₀ ≤ t, r.Rises t₀ ∧ ∀ u, t₀ ≤ u → u ≤ t → ¬ r.VgaReq u := by
  rcases (aclr_iff hl t).1 hclr with h0 | hf
  · omega
  · have h11 := hf.2
    obtain ⟨t₀, h0, e⟩ := exists_rise (vsPhase_le_of_lt (show vsPhase t < 410394 by omega))
    refine ⟨t₀, by omega, (rises_iff t₀).2 h0, ?_⟩
    intro u h1 h2 hreq
    obtain ⟨k, rfl⟩ := Nat.exists_eq_add_of_le h1
    exact not_requests_add h0 (by omega) ((vgaReq_iff _).1 hreq)

/-- A frame that is flushed has one edge of `clk_50m_sys` in the cycle of its rise. -/
lemma FlushesOnce.length_eq_one (hl : r.Linked) (h : r.FlushesOnce) {t₀ : ℕ} (ht : r.Rises t₀) :
    (r.burst t₀).length = 1 := by
  have h0 := (rises_iff t₀).1 ht
  obtain ⟨a, b, ha, hab, hb, hclr⟩ := h.once t₀ (t₀ + 26554) ht (by omega)
    ((vgaReq_iff _).2 (requests_first h0)) (by
      intro t h1 h2 hreq
      obtain ⟨k, rfl⟩ := Nat.exists_eq_add_of_le h1
      exact not_requests_add h0 (by omega) ((vgaReq_iff _).1 hreq))
  obtain ⟨k, rfl⟩ := Nat.exists_eq_add_of_le ha.le
  exact ((aclr_add hl h0 (by omega)).1 ((hclr _ (by omega) (by omega)).2 ⟨le_rfl, by omega⟩)).1

/-- **When every frame is flushed once**: just when one edge of `clk_50m_sys`, not two, falls in
the cycle of every rise. -/
theorem flushesOnce_iff (h : r.TwoToOne) :
    r.FlushesOnce ↔ ∀ t₀, r.Rises t₀ → (r.burst t₀).length = 1 := by
  have hl := h.linked
  constructor
  · intro hf t₀ ht
    exact hf.length_eq_one hl ht
  · intro hone
    constructor
    · intro t₀ t₁ ht h01 hreq hno
      have h0 := (rises_iff t₀).1 ht
      -- the next request is the one 26554 cycles after the rise
      have hle : t₁ ≤ t₀ + 26554 := by
        by_contra hlt
        exact hno _ (by omega) (by omega) ((vgaReq_iff _).2 (requests_first h0))
      have hge : t₀ + 26554 ≤ t₁ := by
        by_contra hlt
        obtain ⟨k, rfl⟩ := Nat.exists_eq_add_of_le h01
        exact not_requests_add h0 (by omega) ((vgaReq_iff _).1 hreq)
      refine ⟨t₀ + 3, t₀ + 12, by omega, by omega, by omega, ?_⟩
      intro t h1 h2
      obtain ⟨k, rfl⟩ := Nat.exists_eq_add_of_le h1
      rw [aclr_add hl h0 (by omega)]
      simp only [hone t₀ ht, true_and]
      omega
    · intro t ht hclr
      exact rise_of_aclr hl ht hclr

/-- A run with `n` edges of `clk_50m_sys` in each cycle and nothing to do. -/
def idle (n : ℕ) : Run where
  m := blankInit 30
  mem := fun a => a.setWidth 16
  burst := fun _ => List.replicate n ⟨false, false, false, 0⟩
  vga := fun _ => ⟨false, 0⟩

lemma twoToOne_idle {n : ℕ} (h : n = 1 ∨ n = 2) : (idle n).TwoToOne := by
  intro t _
  rw [idle, List.length_replicate]
  exact h

theorem flushesOnce_iff_idle :
    (idle 1).FlushesOnce ↔ ∀ t₀, (idle 1).Rises t₀ → ((idle 1).burst t₀).length = 1 :=
  flushesOnce_iff (twoToOne_idle (Or.inl rfl))

/-- With two edges of `clk_50m_sys` in each cycle no frame is flushed. -/
theorem not_all_flushesOnce : ¬ ∀ r : Run, r.TwoToOne → r.FlushesOnce := by
  intro h
  have h2 : (idle 2).TwoToOne := twoToOne_idle (Or.inr rfl)
  have hr : (idle 2).Rises 9606 := (rises_iff _).2 (by simp [vsPhase])
  have := (h _ h2).length_eq_one h2.linked hr
  rw [idle, List.length_replicate] at this
  omega

end Run

end VideoPipeline.Top

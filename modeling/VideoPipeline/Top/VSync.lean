import VideoPipeline.Top.System

/-!
The vertical sync on its way through the 50 MHz domain. `VGA_VS` is sampled twice, its rising
edge is `vga_frame_done`, which is sampled three times in the controller, and the rising edge of
that is `vga_done_pulse`. How far a rise has come is told by the number of edges of
`clk_50m_sys` since it.
-/

namespace VideoPipeline.Top

open VideoPipeline.Lib VideoPipeline.Vga VideoPipeline.Read

namespace Run

variable (r : Run)

/-- `VGA_VS` goes from 0 to 1 at the edge that starts cycle `t`. -/
def Rises : ℕ → Prop
  | 0 => False
  | t + 1 => (r.start t).vgaVs = false ∧ (r.start (t + 1)).vgaVs = true

instance : DecidablePred r.Rises := fun t => by cases t <;> unfold Rises <;> infer_instance

/-- The edges of `clk_50m_sys` from the last rise to the start of cycle `t`; before the first
rise, as if one had been long ago. -/
def sinceStart : ℕ → ℕ
  | 0 => 420000
  | t + 1 => if vsPhase (t + 1) = 0 then 0 else sinceStart t + (r.burst t).length

/-- The edges of `clk_50m_sys` since the last rise. -/
def since (t i : ℕ) : ℕ := r.sinceStart t + i

variable {r}

theorem rises_iff (t : ℕ) : r.Rises t ↔ vsPhase t = 0 := by
  cases t with
  | zero => simp [Rises, vsPhase]
  | succ t =>
    rw [Rises, vgaVs_start, vgaVs_start, decide_eq_false_iff_not, decide_eq_true_eq]
    unfold vsPhase
    omega

lemma since_zero_of_rises {t : ℕ} (h : vsPhase t = 0) : r.since t 0 = 0 := by
  cases t with
  | zero => simp [vsPhase] at h
  | succ t => rw [since, sinceStart, if_pos h]

lemma since_zero : r.since 0 0 = 420000 := rfl

lemma since_succ (t i : ℕ) : r.since t (i + 1) = r.since t i + 1 := rfl

lemma since_cycle {t : ℕ} (h : vsPhase (t + 1) ≠ 0) :
    r.since (t + 1) 0 = r.since t (r.burst t).length := by
  rw [since, sinceStart, if_neg h]
  rfl

/-- There is at least one edge of `clk_50m_sys` in each cycle since the rise. -/
lemma vsPhase_le_since (hl : r.Linked) (t i : ℕ) : vsPhase t + i ≤ r.since t i := by
  have h (t : ℕ) : vsPhase t ≤ r.sinceStart t := by
    induction t with
    | zero => exact (by omega : (0 + 410394) % 420000 ≤ 420000)
    | succ t ih =>
      rw [sinceStart]
      split_ifs with h0
      · omega
      · have h1 := vsPhase_succ h0
        rcases hl.eq_zero_or t with rfl | ht
        · unfold vsPhase
          simp [sinceStart]
          omega
        · omega
  have := h t
  rw [since]
  omega

/-! ### The two edge detectors -/

/-- What the registers of both edge detectors hold at a point of the run. -/
structure Synced (r : Run) (t i : ℕ) : Prop where
  done : (r.point t i).vgaFrameDone = decide (r.since t i = 1)
  pulse0 : (r.point t i).path.ctl.vgaDoneSync.getLsbD 0 = decide (r.since t i = 2)
  pulse1 : (r.point t i).path.ctl.vgaDoneSync.getLsbD 1 = decide (r.since t i = 3)
  pulse2 : (r.point t i).path.ctl.vgaDoneSync.getLsbD 2 = decide (r.since t i = 4)
  high : vsPhase t < 418400 → (r.point t i).vsSync.getLsbD 0 = decide (1 ≤ r.since t i) ∧
    (r.point t i).vsSync.getLsbD 1 = decide (2 ≤ r.since t i)
  low0 : 418400 ≤ vsPhase t → 418401 ≤ vsPhase t + i →
    (r.point t i).vsSync.getLsbD 0 = false
  low1 : 418400 ≤ vsPhase t → 418402 ≤ vsPhase t + i →
    (r.point t i).vsSync.getLsbD 1 = false

lemma synced_zero : Synced r 0 0 := by
  have h := since_zero (r := r)
  have hv : (r.point 0 0).vsSync = 0b11 := rfl
  have hd : (r.point 0 0).path.ctl.vgaDoneSync = 0 := rfl
  constructor
  · rw [h, DoanTop.vgaFrameDone, hv]
    simp
  · rw [h, hd]
    simp
  · rw [h, hd]
    simp
  · rw [h, hd]
    simp
  · rw [h, hv]
    simp
  · intro hp
    simp [vsPhase] at hp
  · intro hp
    simp [vsPhase] at hp

lemma Synced.edge50 (hl : r.Linked) {t i : ℕ} {x : SysIn} (hx : (r.burst t)[i]? = some x)
    (h : Synced r t i) : Synced r t (i + 1) := by
  have hvs := vgaVs_point (r := r) t i
  have hle := vsPhase_le_since hl t i
  have h0 : (r.point t (i + 1)).vsSync.getLsbD 0 = (r.point t i).vgaVs := by
    rw [point_succ hx, DoanTop.vsSync_edge50, shiftConcat_bit_zero _ _ (by omega)]
  have h1 : (r.point t (i + 1)).vsSync.getLsbD 1 = (r.point t i).vsSync.getLsbD 0 := by
    rw [point_succ hx, DoanTop.vsSync_edge50, shiftConcat_bit_succ _ _ (by omega)]
  have hd0 : (r.point t (i + 1)).path.ctl.vgaDoneSync.getLsbD 0 = (r.point t i).vgaFrameDone := by
    rw [point_succ hx, DoanTop.vgaDoneSync_edge50, shiftConcat_bit_zero _ _ (by omega)]
  have hd (j : ℕ) (hj : j + 1 < 3) : (r.point t (i + 1)).path.ctl.vgaDoneSync.getLsbD (j + 1) =
      (r.point t i).path.ctl.vgaDoneSync.getLsbD j := by
    rw [point_succ hx, DoanTop.vgaDoneSync_edge50, shiftConcat_bit_succ _ _ hj]
  constructor
  · -- the sample is new only in the first cycles after a rise
    unfold DoanTop.vgaFrameDone
    rw [h0, h1, hvs, since_succ]
    by_cases hp : vsPhase t < 418400
    · rw [(h.high hp).1, decide_eq_true hp, Bool.and_true, ← decide_not]
      simp only [decide_eq_decide]
      omega
    · simp [hp]
      omega
  · rw [hd0, h.done, since_succ]
    simp
  · rw [hd 0 (by omega), h.pulse0, since_succ]
    simp
  · rw [hd 1 (by omega), h.pulse1, since_succ]
    simp
  · intro hp
    rw [h0, h1, hvs, (h.high hp).1, since_succ]
    simp [hp]
  · intro hp _
    rw [h0, hvs]
    simp
    omega
  · intro hp hi
    rw [h1]
    exact h.low0 hp (by omega)

lemma Synced.edge25 (hl : r.Linked) {t : ℕ} (h : Synced r t (r.burst t).length) :
    Synced r (t + 1) 0 := by
  have hle := vsPhase_le_since hl t (r.burst t).length
  have hvs : (r.point (t + 1) 0).vsSync = (r.final t).vsSync := by
    rw [point_zero, start_succ]
    rfl
  have hds : (r.point (t + 1) 0).path.ctl.vgaDoneSync = (r.final t).path.ctl.vgaDoneSync := by
    rw [point_zero, start_succ]
    rfl
  have hfd : (r.point (t + 1) 0).vgaFrameDone = (r.final t).vgaFrameDone := by
    unfold DoanTop.vgaFrameDone
    rw [hvs]
  by_cases h0 : vsPhase (t + 1) = 0
  · -- everything of the rise before has passed, and the low level was sampled twice
    have hlast := vsPhase_of_succ_eq_zero h0
    have hj := since_zero_of_rises (r := r) h0
    constructor <;> try rw [hj]
    · rw [hfd, final_eq, h.done]
      simp
      omega
    · rw [hds, final_eq, h.pulse0]
      simp
      omega
    · rw [hds, final_eq, h.pulse1]
      simp
      omega
    · rw [hds, final_eq, h.pulse2]
      simp
      omega
    · intro _
      rw [hvs, final_eq, h.low0 (by omega) (by omega), h.low1 (by omega) (by omega)]
      simp
    · intro hp
      omega
    · intro hp
      omega
  · have hp := vsPhase_succ h0
    have hj := since_cycle (r := r) h0
    have hlen := hl.eq_zero_or t
    have hz : t = 0 → vsPhase t = 410394 := by rintro rfl; rfl
    constructor <;> try rw [hj]
    · rw [hfd, final_eq, h.done]
    · rw [hds, final_eq, h.pulse0]
    · rw [hds, final_eq, h.pulse1]
    · rw [hds, final_eq, h.pulse2]
    · intro hlt
      rw [hvs, final_eq]
      exact h.high (by omega)
    · intro _ hi
      rw [hvs, final_eq]
      exact h.low0 (by omega) (by omega)
    · intro _ hi
      rw [hvs, final_eq]
      exact h.low1 (by omega) (by omega)

/-- **The edge detectors follow the rises.** -/
theorem synced (hl : r.Linked) {t i : ℕ} (hi : i ≤ (r.burst t).length) : Synced r t i :=
  invariant synced_zero (fun _ _ _ hx h => h.edge50 hl hx) (fun _ h => h.edge25 hl) hi

/-- `vga_done_pulse` is seen by the fourth edge after a rise, and by no other. -/
theorem vgaDonePulse_point (hl : r.Linked) {t i : ℕ} (hi : i ≤ (r.burst t).length) :
    (r.point t i).path.ctl.vgaDonePulse = decide (r.since t i = 3) := by
  unfold SdramReadController.vgaDonePulse
  rw [(synced hl hi).pulse1, (synced hl hi).pulse2]
  simp
  omega

end Run

end VideoPipeline.Top

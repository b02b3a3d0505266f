import VideoPipeline.Vga.Controller

/-!
The standard 640x480 timing in closed form: which pixel is requested in a cycle, when the
vertical sync is high, how many pixels were requested before a cycle, and the cycle of the
`k`-th request. A frame is a period of 420000 = 800 * 525 cycles of the counters.
-/

namespace VideoPipeline.Vga

open VideoPipeline.Lib

/-- The cycle `n` requests a pixel. -/
def Requests (n : ℕ) : Prop := 160 ≤ n % 800 ∧ 45 ≤ n / 800 % 525

instance : DecidablePred Requests := fun n => by unfold Requests; infer_instance

/-- The position in the picture that the coordinates of cycle `n` name. -/
def address (n : ℕ) : ℕ := 640 * (n / 800 % 525 - 45) + (n % 800 - 160)

/-- The vertical sync `n` edges after reset, as a level. -/
def VsHigh (n : ℕ) : Prop := n < 6 ∨ (n - 6) / 800 % 525 < 10 ∨ 12 ≤ (n - 6) / 800 % 525

instance : DecidablePred VsHigh := fun n => by unfold VsHigh; infer_instance

/-! ### The outputs -/

section Outputs

variable {i : ℕ → Rgb10}

lemma hCont_std (n : ℕ) : (scan .std i n).hCont.toNat = n % 800 :=
  hCont_scan (p := .std) (by decide) n

lemma vCont_std (n : ℕ) : (scan .std i n).vCont.toNat = n / 800 % 525 :=
  vCont_scan (p := .std) (by decide) (by decide) n

lemma hBlank_std : Params.std.hBlank.toNat = 160 := rfl

lemma vBlank_std : Params.std.vBlank.toNat = 45 := rfl

lemma hBlank_le_iff (s : VgaController) : Params.std.hBlank ≤ s.hCont ↔ 160 ≤ s.hCont.toNat := by
  rw [BitVec.le_def, hBlank_std]

lemma vBlank_le_iff (s : VgaController) : Params.std.vBlank ≤ s.vCont ↔ 45 ≤ s.vCont.toNat := by
  rw [BitVec.le_def, vBlank_std]

theorem oRequest_std (n : ℕ) : (scan .std i n).oRequest .std = decide (Requests n) := by
  unfold VgaController.oRequest
  simp only [hBlank_le_iff, vBlank_le_iff, hCont_std, vCont_std, ← Bool.decide_and]
  rfl

theorem cBlank_std (n : ℕ) : (scan .std i n).cBlank .std = decide (Requests n) := oRequest_std n

theorem oCurrentX_std (n : ℕ) : ((scan .std i n).oCurrentX .std).toNat = n % 800 - 160 := by
  unfold VgaController.oCurrentX
  split
  · next h => rw [BitVec.toNat_sub_of_le h, hCont_std, hBlank_std]
  · next h =>
    rw [hBlank_le_iff, hCont_std] at h
    rw [show n % 800 - 160 = 0 by omega]
    rfl

theorem oCurrentY_std (n : ℕ) : ((scan .std i n).oCurrentY .std).toNat = n / 800 % 525 - 45 := by
  unfold VgaController.oCurrentY
  split
  · next h => rw [BitVec.toNat_sub_of_le h, vCont_std, vBlank_std]
  · next h =>
    rw [vBlank_le_iff, vCont_std] at h
    rw [show n / 800 % 525 - 45 = 0 by omega]
    rfl

theorem oAddress_std (n : ℕ) : ((scan .std i n).oAddress .std).toNat = address n := by
  unfold address
  have hx := oCurrentX_std (i := i) n
  have hy := oCurrentY_std (i := i) n
  unfold VgaController.oAddress
  generalize (scan .std i n).oCurrentX .std = x at hx ⊢
  generalize (scan .std i n).oCurrentY .std = y at hy ⊢
  have h640 : (640 : BitVec 22).toNat = 640 := rfl
  simp only [BitVec.toNat_add, BitVec.toNat_mul, BitVec.toNat_setWidth, hx, hy, h640]
  omega

theorem vs_std (n : ℕ) : (scan .std i n).oVgaVs = decide (VsHigh n) := by
  by_cases h : n < 6
  · rw [oVgaVs_scan_init h, eq_comm, decide_eq_true_eq]
    exact Or.inl h
  · obtain ⟨m, rfl⟩ := Nat.exists_eq_add_of_le' (not_lt.1 h)
    rw [oVgaVs_scan, VgaController.cVs]
    have h1 : Params.std.vFront ≤ (scan .std i m).vCont ↔ 10 ≤ m / 800 % 525 := by
      rw [BitVec.le_def, vCont_std]; rfl
    have h2 : (scan .std i m).vCont < Params.std.vFront + Params.std.vSync ↔
        m / 800 % 525 < 12 := by
      rw [BitVec.lt_def, vCont_std]; rfl
    simp only [h1, h2, ← Bool.decide_and, ← decide_not, VsHigh, Nat.add_sub_cancel]
    congr 1
    rw [eq_iff_iff]
    omega

end Outputs

/-! ### Counting requests -/

/-- The number of requests before cycle `n`. -/
def requestsBefore (n : ℕ) : ℕ :=
  307200 * (n / 420000) + 640 * (n / 800 % 525 - 45) +
    if 45 ≤ n / 800 % 525 then n % 800 - 160 else 0

theorem count_requests (n : ℕ) : Nat.count Requests n = requestsBefore n := by
  have hline (n : ℕ) : requestsBefore n = 307200 * (n / 800 / 525) + 640 * (n / 800 % 525 - 45) +
      if 45 ≤ n / 800 % 525 then n % 800 - 160 else 0 := by
    rw [requestsBefore, Nat.div_div_eq_div_mul]
  have hreq (n : ℕ) : (if Requests n then 1 else 0) =
      if 160 ≤ n % 800 ∧ 45 ≤ n / 800 % 525 then 1 else 0 := if_congr Iff.rfl rfl rfl
  refine count_eq_of_step rfl (fun n => ?_) n
  rw [hline, hline, hreq]
  have hlt := Nat.mod_lt n (by omega : 0 < 800)
  by_cases hlast : n % 800 + 1 < 800
  · -- within a line
    rw [succ_mod_of_lt hlast, succ_div_of_lt hlast]
    split_ifs <;> omega
  · -- from its end to the next one
    rw [succ_mod_of_last (by omega), succ_div_of_last (by omega)]
    split_ifs <;> omega

/-- A request is counted by its frame and its address. -/
lemma count_of_requests {n : ℕ} (h : Requests n) :
    Nat.count Requests n = 307200 * (n / 420000) + address n := by
  rw [count_requests]
  unfold requestsBefore address
  rw [if_pos h.2, Nat.add_assoc]

lemma count_mod_of_requests {n : ℕ} (h : Requests n) :
    Nat.count Requests n % 640 = n % 800 - 160 := by
  rw [count_of_requests h]
  unfold address
  unfold Requests at h
  omega

lemma address_lt {n : ℕ} (h : Requests n) : address n < 307200 := by
  unfold Requests at h
  unfold address
  omega

/-- The cycle of the `k`-th request. -/
def requestTime (k : ℕ) : ℕ :=
  420000 * (k / 307200) + 800 * (45 + k % 307200 / 640) + 160 + k % 640

theorem requests_requestTime (k : ℕ) : Requests (requestTime k) := by
  unfold Requests requestTime
  omega

theorem count_requestTime (k : ℕ) : Nat.count Requests (requestTime k) = k := by
  rw [count_of_requests (requests_requestTime k)]
  unfold address requestTime
  omega

theorem requestTime_count {n : ℕ} (h : Requests n) : requestTime (Nat.count Requests n) = n := by
  rw [count_of_requests h]
  unfold address requestTime
  unfold Requests at h
  omega

/-! ### The frame seen from the vertical sync -/

/-- The cycles since the vertical sync last rose; before the first time, as if it had risen in
the frame before reset. -/
def vsPhase (n : ℕ) : ℕ := (n + 410394) % 420000

theorem vsHigh_iff (n : ℕ) : VsHigh n ↔ vsPhase n < 418400 := by
  unfold VsHigh vsPhase
  omega

lemma vsPhase_succ {n : ℕ} (h : vsPhase (n + 1) ≠ 0) : vsPhase (n + 1) = vsPhase n + 1 := by
  unfold vsPhase at h ⊢
  omega

lemma vsPhase_of_succ_eq_zero {n : ℕ} (h : vsPhase (n + 1) = 0) : vsPhase n = 419999 := by
  unfold vsPhase at h ⊢
  omega

/-- The requests of a frame lie between two rises of the vertical sync, the first of them 26554
cycles after the one before. -/
theorem vsPhase_of_requests {n : ℕ} (h : Requests n) :
    26554 ≤ vsPhase n ∧ vsPhase n < 410394 ∧ vsPhase n ≤ n := by
  unfold Requests at h
  unfold vsPhase
  omega

end VideoPipeline.Vga

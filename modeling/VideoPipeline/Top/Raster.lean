import VideoPipeline.Read.Commands
import VideoPipeline.Vga.Timing
import Mathlib.Order.Bounds.Basic

/-!
The two counters that have to agree on the size of a frame: the requests of `VGA_controller` in a
period of its counters run through the addresses of the picture in raster order, and
`sdram_read_controller` places as many commands between two restarts, and no more.
-/

namespace VideoPipeline.Top

open VideoPipeline.Lib VideoPipeline.Vga VideoPipeline.Read SdramReadController

/-! ### The requests of a frame -/

section Frame

/-- The cycles of frame `f`, a period of the scan counters. -/
def frameCycles (f : ℕ) : List ℕ := List.range' (420000 * f) 420000

/-- The values of `oAddress` over the cycles of frame `f` with `oRequest = 1`, in order. -/
def requested (i : ℕ → Rgb10) (f : ℕ) : List ℕ :=
  ((frameCycles f).filter fun n => (scan .std i n).oRequest .std).map fun n =>
    ((scan .std i n).oAddress .std).toNat

lemma address_requestTime (k : ℕ) : Vga.address (requestTime k) = k % 307200 := by
  unfold Vga.address requestTime
  omega

lemma count_requests_frame (f : ℕ) : Nat.count Requests (420000 * f) = 307200 * f := by
  rw [count_requests]
  unfold requestsBefore
  split_ifs <;> omega

/-- **The requests of a frame** are the picture in raster order. -/
theorem requested_eq (i : ℕ → Rgb10) (f : ℕ) : requested i f = List.range 307200 := by
  have hnext : Nat.count Requests (420000 * f + 420000) - Nat.count Requests (420000 * f) =
      307200 := by
    have := count_requests_frame (f + 1)
    rw [Nat.mul_add, Nat.mul_one] at this
    rw [this, count_requests_frame]
    omega
  unfold requested frameCycles
  simp only [oRequest_std, oAddress_std]
  rw [filter_range' (fun n hn => requestTime_count hn), hnext, count_requests_frame, List.map_map,
    List.range'_eq_map_range, List.map_map]
  conv_rhs => rw [← List.map_id (List.range 307200)]
  refine List.map_congr_left fun k hk => ?_
  have := List.mem_range.1 hk
  simp only [Function.comp_apply, address_requestTime, id]
  omega

end Frame

/-! ### The commands between two restarts -/

section Budget

variable {inp : ℕ → CtlIn}

/-- The commands placed from one restart to the next, over all runs. -/
def placedBetweenRestarts : Set ℕ :=
  {m | ∃ inp r₁ r₂, r₁ < r₂ ∧ Restarts inp r₁ ∧ Restarts inp r₂ ∧
    (∀ q, r₁ < q → q < r₂ → ¬ Restarts inp q) ∧
      m = Nat.count (Issues inp) r₂ - Nat.count (Issues inp) r₁}

/-- The count is the number of commands placed since the last restart. -/
theorem reqCnt_eq_count {r n : ℕ} (hr : Restarts inp r) (hn : r < n)
    (hno : ∀ q, r < q → q < n → ¬ Restarts inp q) :
    (ctlAt inp n).reqCnt.toNat + Nat.count (Issues inp) r = Nat.count (Issues inp) n := by
  induction n, hn using Nat.le_induction with
  | base =>
    have hi : ¬ Issues inp r := Bool.eq_false_iff.1 (not_issues_of_restarts hr)
    rw [ctlAt_succ, reqCnt_of_restarts hr, Nat.count_succ, if_neg hi]
    simp
  | succ n hn ih =>
    have h := ih fun q h1 h2 => hno q h1 (by omega)
    have hre : ¬ Restarts inp n := hno n (by omega) (by omega)
    rw [Nat.count_succ]
    by_cases hi : Issues inp n
    · rw [if_pos hi, ctlAt_succ, toNat_reqCnt_of_issues hi]
      omega
    · rw [if_neg hi, ctlAt_succ,
        reqCnt_of_not_issues (Bool.eq_false_iff.2 hre) (Bool.eq_false_iff.2 hi)]
      exact h

/-! ### A run that uses up the budget -/

/-- The picture is loaded, the bus takes every command at once, the FIFO stays empty, and two
frames end. -/
def hungry (n : ℕ) : CtlIn where
  camFrameDone := true
  vgaFrameDone := decide (n = 0 ∨ n = 400000)
  avmWaitrequest := false
  avmReaddata := 0
  avmReaddatavalid := false
  fifoWrusedw := 0

/-- What `hungry` keeps between its restarts, the frame pulses aside. -/
structure Fed (s : SdramReadController) (k : ℕ) : Prop where
  cam : s.camDoneSync = 7
  reading : s.readingFlag = true
  flush : s.flushWait = false
  pending : s.vgaResetPending = false
  cnt : s.reqCnt.toNat = k

lemma Fed.issues_iff {s : SdramReadController} {k n : ℕ} (h : Fed s k) :
    s.issues (hungry n) = true ↔ k < 307200 := by
  rw [SdramReadController.issues_iff]
  refine ⟨fun hm => h.cnt ▸ hm.need, fun hk => ?_⟩
  refine ⟨?_, h.reading, ?_, h.flush, h.pending, h.cnt ▸ hk⟩
  · simp [stalled, hungry]
  · rw [frameReady, h.cam]
    rfl

/-- An edge places the next command as long as the picture is not complete. -/
lemma Fed.edge {s : SdramReadController} {k n : ℕ} (h : Fed s k) (hk : k ≤ 307200)
    (hp : s.vgaDonePulse = false) : Fed (s.edge (hungry n)) (min (k + 1) 307200) := by
  have hre : s.restarts (hungry n) = false := by rw [restarts, h.pending, Bool.and_false]
  constructor
  · rw [camDoneSync_edge, h.cam]
    change BitVec.shiftConcat 7#3 true = 7
    decide
  · rw [readingFlag_edge]
    rfl
  · rw [flushWait_edge, h.flush, hp]
    rfl
  · rw [vgaResetPending_edge, hre, hp, h.pending]
    rfl
  · by_cases hlt : k < 307200
    · rw [toNat_reqCnt_of_issues (h.issues_iff.2 hlt), h.cnt]
      omega
    · rw [reqCnt_of_not_issues hre (Bool.eq_false_iff.2 (mt h.issues_iff.1 hlt)), h.cnt]
      omega

/-- A cycle without a pulse feeds the controller further. -/
lemma fed_succ {n k : ℕ} {v : BitVec 3} (h : Fed (ctlAt hungry n) k)
    (hv : (ctlAt hungry n).vgaDoneSync = v) (hk : k ≤ 307200)
    (hp : (!v.getLsbD 2 && v.getLsbD 1) = false) :
    Fed (ctlAt hungry (n + 1)) (min (k + 1) 307200) ∧
      (ctlAt hungry (n + 1)).vgaDoneSync = v.shiftConcat (decide (n = 0 ∨ n = 400000)) := by
  rw [ctlAt_succ, vgaDoneSync_edge, hv]
  exact ⟨h.edge hk (by rw [vgaDonePulse, hv, hp]), rfl⟩

/-- Between the pulses of the two frames the controller is fed. -/
lemma fed_hungry (d : ℕ) (hd : d ≤ 399996) :
    Fed (ctlAt hungry (d + 4)) (min d 307200) ∧ (ctlAt hungry (d + 4)).vgaDoneSync = 0 := by
  induction d with
  | zero => exact ⟨⟨rfl, rfl, rfl, rfl, rfl⟩, rfl⟩
  | succ d ih =>
    obtain ⟨hf, hv⟩ := ih (by omega)
    obtain ⟨hf', hv'⟩ := fed_succ hf hv (by omega) rfl
    rw [decide_eq_false (by omega)] at hv'
    rw [show min (d + 1) 307200 = min (min d 307200 + 1) 307200 by omega]
    exact ⟨hf', hv'⟩

/-- The second restart finds the whole picture requested. -/
lemma hungry_restarts : Restarts hungry 3 ∧ Restarts hungry 400003 ∧
    (∀ q, 3 < q → q < 400003 → ¬ Restarts hungry q) ∧
      (ctlAt hungry 400003).reqCnt.toNat = 307200 := by
  have hno {n k : ℕ} (h : Fed (ctlAt hungry n) k) : ¬ Restarts hungry n := by
    unfold Restarts
    rw [restarts, h.pending, Bool.and_false]
    exact Bool.false_ne_true
  -- the pulse of the second frame comes two cycles after its end
  obtain ⟨h₀, hv₀⟩ : Fed (ctlAt hungry 400000) 307200 ∧ (ctlAt hungry 400000).vgaDoneSync = 0 :=
    fed_hungry 399996 le_rfl
  obtain ⟨h₁, hv₁⟩ : Fed (ctlAt hungry 400001) 307200 ∧ (ctlAt hungry 400001).vgaDoneSync = 1 :=
    fed_succ h₀ hv₀ le_rfl rfl
  obtain ⟨h₂, hv₂⟩ : Fed (ctlAt hungry 400002) 307200 ∧ (ctlAt hungry 400002).vgaDoneSync = 2 :=
    fed_succ h₁ hv₁ le_rfl rfl
  have hpulse : (ctlAt hungry 400002).vgaDonePulse = true := by
    rw [vgaDonePulse, hv₂]
    rfl
  have hre : (ctlAt hungry 400002).restarts (hungry 400002) = false :=
    Bool.eq_false_iff.2 (hno h₂)
  have his : (ctlAt hungry 400002).issues (hungry 400002) = false :=
    Bool.eq_false_iff.2 (mt h₂.issues_iff.1 (by omega))
  refine ⟨rfl, ?_, ?_, ?_⟩
  · unfold Restarts
    rw [ctlAt_succ, restarts, vgaResetPending_edge, hre, hpulse]
    simp [stalled, hungry]
  · intro q h1 h2
    by_cases hq : q ≤ 400000
    · obtain ⟨d, rfl⟩ := Nat.exists_eq_add_of_le' (show 4 ≤ q by omega)
      exact hno (fed_hungry d (by omega)).1
    · rcases (by omega : q = 400001 ∨ q = 400002) with rfl | rfl
      exacts [hno h₁, hno h₂]
  · rw [ctlAt_succ, reqCnt_of_not_issues hre his]
    exact h₂.cnt

/-- **The budget**: the commands between two restarts are at most those of a picture, and as
many in some run. -/
theorem isGreatest_placed : IsGreatest placedBetweenRestarts maxPixels.toNat := by
  constructor
  · obtain ⟨h3, hr, hno, hcnt⟩ := hungry_restarts
    refine ⟨hungry, 3, 400003, by omega, h3, hr, hno, ?_⟩
    have := reqCnt_eq_count h3 (by omega) hno
    have hmax : maxPixels.toNat = 307200 := rfl
    omega
  · rintro m ⟨inp, r₁, r₂, hlt, h1, -, hno, rfl⟩
    have hcnt := reqCnt_eq_count h1 hlt hno
    have hle : (ctlAt inp r₂).reqCnt.toNat ≤ 307200 := (counted_ctlAt r₂).le
    have hmax : maxPixels.toNat = 307200 := rfl
    omega

end Budget

/-! ### The two together -/

/-- **Producer and consumer agree on a frame**: in frame `f` of a scan that is shown the colours
`i`, the requests enumerate the picture, and the commands of a segment its offsets. -/
structure Raster (i : ℕ → Rgb10) (f : ℕ) : Prop where
  addresses : requested i f = List.range 307200
  coordinates : ∀ n ∈ frameCycles f, (scan .std i n).oRequest .std = true →
    ((scan .std i n).oCurrentX .std).toNat = ((scan .std i n).oAddress .std).toNat % 640 ∧
      ((scan .std i n).oCurrentY .std).toNat = ((scan .std i n).oAddress .std).toNat / 640
  bounded : ∀ n, ((scan .std i n).oCurrentX .std).toNat ≤ 639 ∧
    ((scan .std i n).oCurrentY .std).toNat ≤ 479
  length : (requested i f).length = maxPixels.toNat
  budget : IsGreatest placedBetweenRestarts (requested i f).length
  /-- The commands taken between two restarts have the offsets of the first requests. -/
  offsets : ∀ inp k N, segment inp k N <+: (requested i f).map fun a => bufferABase.toNat + a

theorem raster (i : ℕ → Rgb10) (f : ℕ) : Raster i f := by
  have hlen : (requested i f).length = maxPixels.toNat := by
    rw [requested_eq, List.length_range]
    rfl
  refine ⟨requested_eq i f, ?_, ?_, hlen, hlen ▸ isGreatest_placed, ?_⟩
  · intro n _ hreq
    rw [oCurrentX_std, oCurrentY_std, oAddress_std]
    unfold Vga.address
    omega
  · intro n
    rw [oCurrentX_std, oCurrentY_std]
    omega
  · intro inp k N
    obtain ⟨m, hm, hseg⟩ : ∃ m ≤ 307200, segment inp k N = fromBase m := segment_counts k N
    rw [hseg, requested_eq]
    unfold fromBase
    refine List.IsPrefix.map _ ?_
    rw [← Nat.min_eq_left hm, ← List.take_range]
    exact List.take_prefix _ _

end VideoPipeline.Top

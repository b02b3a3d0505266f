import VideoPipeline.Image.Arithmetic
import VideoPipeline.Image.Luma
import VideoPipeline.Pixel.Display

/-!
The picture that the screen shows in each of the four modes, over the integers: the place of a
pixel shows what the mode makes of the nine pixels under the window that is there when its colour
is selected. That window leans, and its middle is the pixel one row above and one column to the
right; the last column of the bottom row repeats the end of the line.
-/

namespace VideoPipeline.Pixel

open VideoPipeline.Lib VideoPipeline.Vga VideoPipeline.Image

/-! ### What the modes show -/

section Spec

variable (p : ℕ → Rgb10) (k : ℕ)

/-- The pixels under the window when the colour for the place `k` is selected. -/
def around (k : ℕ) : Fin 3 → Fin 3 → ℕ
  | 0, c => k - 1281 + c
  | 1, c => k - 640 + c
  | 2, c => min (k + 1 + c) (640 * (k / 640) + 639)

lemma around_top (k : ℕ) (c : Fin 3) : around k 0 c = k - 1281 + c := rfl

lemma around_middle (k : ℕ) (c : Fin 3) : around k 1 c = k - 640 + c := rfl

lemma around_bottom (k : ℕ) (c : Fin 3) :
    around k 2 c = min (k + 1 + c) (640 * (k / 640) + 639) := rfl

/-- The places at which the filters are not applied: the last two columns and the first two
rows. -/
def Masked (k : ℕ) : Prop := 638 ≤ k % 640 ∨ k / 640 % 480 < 2

instance : DecidablePred Masked := fun k => by unfold Masked; infer_instance

/-- The luma under the tap `r`, `c`. -/
def lumaAt (r c : Fin 3) : ℤ := luma (p (around k r c))

def slopeX : ℤ :=
  (lumaAt p k 0 2 + 2 * lumaAt p k 1 2 + lumaAt p k 2 2) -
    (lumaAt p k 0 0 + 2 * lumaAt p k 1 0 + lumaAt p k 2 0)

def slopeY : ℤ :=
  (lumaAt p k 2 0 + 2 * lumaAt p k 2 1 + lumaAt p k 2 2) -
    (lumaAt p k 0 0 + 2 * lumaAt p k 0 1 + lumaAt p k 0 2)

/-- White where the picture is steep. -/
def outline : BitVec 8 := if 300 < |slopeX p k| + |slopeY p k| then 255 else 0

/-- Five times the middle of the window less its four neighbours, clamped, in eight bits. -/
def sharper (channel : Rgb10 → BitVec 10) : BitVec 8 :=
  let v r c : ℤ := (channel (p (around k r c))).toNat
  BitVec.ofNat 8 ((min 1023 (max 0 (5 * v 1 1 - v 0 1 - v 2 1 - v 1 0 - v 1 2))).toNat / 4)

/-- **The colour of the place `k`**, when the switches stand at `mode` and `p` are the pixels
requested. -/
def render (mode : BitVec 2) : BitVec 8 × BitVec 8 × BitVec 8 :=
  if mode = 0b00 then shown (p (shownIndex k))
  else if mode = 0b01 then grayOf (p (shownIndex k))
  else if mode = 0b10 then
    if Masked k then (0, 0, 0) else (outline p k, outline p k, outline p k)
  else if Masked k then shown (p (shownIndex k))
  else (sharper p k Rgb10.red, sharper p k Rgb10.green, sharper p k Rgb10.blue)

end Spec

/-! ### The window in the cycle of the selection -/

section Window

variable {m : LineInit 30} {inp : ℕ → PipeIn} {n : ℕ}

/-- The mask in the cycle of the selection. -/
lemma oEdgePixel_add_four (hr : Requests n) :
    (pipelineAt m inp (n + 4)).uImageProcessor.uLineBuf.oEdgePixel =
      decide (Masked (Nat.count Requests n)) := by
  have hcount := count_of_requests hr
  have hx : (lineInput m inp (n + 2)).iX.toNat = (n + 2) % 800 - 160 := iX_lineInput (n + 2)
  have hy : (lineInput m inp (n + 2)).iY.toNat = (n + 2) / 800 % 525 - 45 := iY_lineInput (n + 2)
  have h2 : (2 : BitVec 11).toNat = 2 := rfl
  rw [uLineBuf_pipelineAt, LineBuffer.oEdgePixel, show n + 4 = n + 2 + 2 from rfl, xPipe2_bufferAt,
    yPipe2_bufferAt, ← Bool.decide_or, decide_eq_decide, BitVec.lt_def, BitVec.lt_def, hx, hy, h2,
    hcount]
  unfold Masked
  unfold Requests at hr
  unfold address
  omega

/-- The pixel given to the line buffer is the last one requested, also after the end of the
line. -/
lemma iData_add_four (h : Supplied inp) (hr : Requests n) (hm : ¬ Masked (Nat.count Requests n)) :
    (lineInput m inp (n + 4)).iData = pixelIn inp (around (Nat.count Requests n) 2 2) := by
  have hmod := count_mod_of_requests hr
  have hcol : n % 800 < 798 := by
    unfold Masked at hm
    omega
  have h1 : Requests (n + 1) := by unfold Requests at hr ⊢; omega
  have h2 : Requests (n + 2) := by unfold Requests at hr ⊢; omega
  have hbase := hr.1
  change _ = pixelIn inp (min (Nat.count Requests n + 1 + 2) (640 * (Nat.count Requests n / 640) + 639))
  by_cases h3 : Requests (n + 3)
  · have hlt : n % 800 < 797 := by unfold Requests at hr h3; omega
    rw [(carries_lineInput h).data _ ((valid_succ_iff h _).2 h3), validBefore_succ_eq h,
      Nat.count_succ, Nat.count_succ, Nat.count_succ, if_pos hr, if_pos h1, if_pos h2]
    congr 1
    omega
  · -- the decoder holds the pixel of the cycle before
    have hlast : n % 800 = 797 := by unfold Requests at hr h3; omega
    have hhold : (lineInput m inp (n + 4)).iData = (lineInput m inp (n + 3)).iData := by
      have hreq := rdreq_of_supplied (m := m) h (n + 3)
      rw [decide_eq_false h3] at hreq
      change rgbIn ((pipelineAt m inp (n + 3)).edge (inp (n + 3))).uRgb565Dec.oRgb = _
      rw [Pipeline.edge, Rgb565Decoder.edge, hreq]
      rfl
    rw [hhold, (carries_lineInput h).data _ ((valid_succ_iff h _).2 h2), validBefore_succ_eq h,
      Nat.count_succ, Nat.count_succ, if_pos hr, if_pos h1]
    congr 1
    omega

/-- **The window when the colour of a request is selected**, away from the mask. -/
theorem window_add_four (h : Supplied inp) (hr : Requests n) (hk : 1281 ≤ Nat.count Requests n)
    (hm : ¬ Masked (Nat.count Requests n)) (r c : Fin 3) :
    (pipelineAt m inp (n + 4)).uImageProcessor.window
        ((pipelineAt m inp (n + 4)).procIn (inp (n + 4))) r c =
      expand (word inp (around (Nat.count Requests n) r c)) := by
  have hv := validBefore_succ_eq (m := m) h (n + 3)
  rw [count_requests_add_three hr (by omega)] at hv
  have hd := iData_add_four (m := m) h hr hm
  have hold := holds_pipeline (m := m) h (n + 4)
  obtain ⟨k, hk'⟩ := Nat.exists_eq_add_of_le' hk
  have hlast : (k + 1281) % 640 ≤ 637 := by
    unfold Masked at hm
    omega
  have hidx : shownIndex (k + 1281) + 642 = k + 1284 := by
    unfold shownIndex
    split_ifs <;> omega
  rw [hk'] at hd hv ⊢
  rw [hv, hidx] at hold
  have htape (c : ℕ) := tapes_eq 640 m (lineAddr 1) (pixelIn inp) k c
  have htap : (pipelineAt m inp (n + 4)).uImageProcessor.uLineBuf.tap (lineInput m inp (n + 4)) r c =
      pixelIn inp (around (k + 1281) r c) := by
    match r with
    | 0 =>
      rw [around_top, Nat.add_sub_cancel]
      match c with
      | 0 => exact hold.row2D2.trans (htape 0).1
      | 1 => exact hold.row2D1.trans (htape 1).1
      | 2 => exact hold.lb1Q.trans (htape 2).1
    | 1 =>
      rw [around_middle, show k + 1281 - 640 = k + (640 + 1) by omega]
      match c with
      | 0 => exact hold.row1D2.trans (htape 0).2.1
      | 1 => exact hold.row1D1.trans (htape 1).2.1
      | 2 => exact hold.lb0Q.trans (htape 2).2.1
    | 2 =>
      match c with
      | 0 =>
        rw [around_bottom, show min (k + 1281 + 1 + (0 : Fin 3)) (640 * ((k + 1281) / 640) + 639) =
          k + (2 * 640 + 2) + 0 by simp; omega]
        exact hold.row0D2.trans (htape 0).2.2
      | 1 =>
        rw [around_bottom, show min (k + 1281 + 1 + (1 : Fin 3)) (640 * ((k + 1281) / 640) + 639) =
          k + (2 * 640 + 2) + 1 by simp; omega]
        exact hold.row0D1.trans (htape 1).2.2
      | 2 => exact hd
  change split ((pipelineAt m inp (n + 4)).uImageProcessor.uLineBuf.tap
    (lineInput m inp (n + 4)) r c) = _
  rw [htap, pixelIn, split_rgbIn]

end Window

/-! ### The colour that is selected -/

section Select

variable {p : ℕ → Rgb10} {k : ℕ} {s : VgaImageProcessor} {i : ProcIn}

/-- The edge detector over a window of the pixels `p`. -/
lemma upper8_sobel (hw : ∀ r c, s.window i r c = p (around k r c)) :
    upper8 (s.sobel i) = outline p k := by
  have hluma (r c : Fin 3) : ((fLuma (p (around k r c)).red (p (around k r c)).green
      (p (around k r c)).blue).toNat : ℤ) = lumaAt p k r c := congrArg Nat.cast (fLuma_toNat _ _ _)
  have hx : gx (fun r c => fLuma (p (around k r c)).red (p (around k r c)).green
      (p (around k r c)).blue) = slopeX p k := by
    unfold gx Image.gradient slopeX
    simp only [hluma]
  have hy : gy (fun r c => fLuma (p (around k r c)).red (p (around k r c)).green
      (p (around k r c)).blue) = slopeY p k := by
    unfold gy Image.gradient slopeY
    simp only [hluma]
  rw [sobel_eq s i _ fun r c => by rw [hw], hx, hy, outline]
  split_ifs <;> rfl

/-- One channel of the sharpening filter over them. -/
lemma upper8_sharpen (channel : Rgb10 → BitVec 10) (hw : ∀ r c, s.window i r c = p (around k r c)) :
    upper8 (sharpenFilter fun r c => channel (s.window i r c)) = sharper p k channel := by
  have hval := sharpenFilter_toNat fun r c => channel (s.window i r c)
  simp only [hw, sharpened] at hval ⊢
  apply BitVec.eq_of_toNat_eq
  rw [toNat_upper8, sharper, BitVec.toNat_ofNat]
  dsimp only
  rw [← hval, Int.toNat_natCast]
  have hlt := (sharpenFilter fun r c => channel (p (around k r c))).isLt
  omega

/-- The multiplexer, when its window and its mask are those of the place `k`. -/
lemma shown_select (hc : s.window i 1 1 = p (shownIndex k))
    (hm : s.uLineBuf.oEdgePixel = decide (Masked k))
    (hw : ¬ Masked k → ∀ r c, s.window i r c = p (around k r c)) :
    shown (s.select i) = render p k i.iMode := by
  rw [VgaImageProcessor.select, render, hc, hm]
  by_cases h0 : i.iMode = 0b00
  · rw [if_pos h0, if_pos h0]
  rw [if_neg h0, if_neg h0]
  by_cases h1 : i.iMode = 0b01
  · rw [if_pos h1, if_pos h1]
    simp only [shown, grayOf, upper8_grayVal]
  rw [if_neg h1, if_neg h1]
  by_cases hk : Masked k
  · simp only [hk, decide_true, if_true]
    split_ifs <;> rfl
  · have hw' := hw hk
    simp only [hk, decide_false, Bool.false_eq_true, if_false]
    split_ifs
    · simp only [shown, upper8_sobel hw']
    · simp only [shown, VgaImageProcessor.sharpen, upper8_sharpen Rgb10.red hw',
        upper8_sharpen Rgb10.green hw', upper8_sharpen Rgb10.blue hw']

end Select

end VideoPipeline.Pixel

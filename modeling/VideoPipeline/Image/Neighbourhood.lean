import VideoPipeline.Image.Centre

/-!
The window against the picture. Fed with whole frames in raster order, the taps of an unmasked
cycle should be a pixel and its eight neighbours. They are nine pixels of the stream at fixed
distances, one more for each row than a neighbourhood has, so the window leans to the left by a
pixel a row.
-/

namespace VideoPipeline.Image

open VideoPipeline.Lib

section Frames

variable {W : ℕ}

/-- Whole frames of 640x480 pixels in raster order, `P` being their pixels one after the other. -/
structure RasterFed (inp : ℕ → LineIn W) (P : ℕ → BitVec W) : Prop extends LineFed inp P where
  y : ∀ n, Valid inp n → (inp n).iY.toNat = validBefore inp n / 640 % 480

/-- The pixel of frame `f` in column `x` of row `y`. -/
def pixel (P : ℕ → BitVec W) (f x y : ℕ) : BitVec W := P (307200 * f + 640 * y + x)

/-- The nine taps `t` are a pixel of frame `f` and its eight neighbours. -/
def IsNeighbourhood (P : ℕ → BitVec W) (f : ℕ) (t : Fin 3 → Fin 3 → BitVec W) : Prop :=
  ∃ cx cy, 1 ≤ cx ∧ cx ≤ 638 ∧ 1 ≤ cy ∧ cy ≤ 478 ∧
    ∀ r c : Fin 3, t r c = pixel P f (cx - 1 + c) (cy - 1 + r)

/-- In every valid cycle with `o_edge_pixel = 0` the window is a neighbourhood in the frame of
the pixel presented. -/
def WindowsTrue (m : LineInit W) (inp : ℕ → LineIn W) (P : ℕ → BitVec W) : Prop :=
  ∀ n, Valid inp n → (bufferAt 640 m inp n).oEdgePixel = false →
    IsNeighbourhood P (validBefore inp n / 307200) ((bufferAt 640 m inp n).tap (inp n))

/-! ### The mask and the taps in terms of the input -/

/-- The coordinates presented two clocks before lie outside the first two columns and rows. -/
def Unmasked (inp : ℕ → LineIn W) (n : ℕ) : Prop :=
  2 ≤ n ∧ 2 ≤ (inp (n - 2)).iX ∧ 2 ≤ (inp (n - 2)).iY

variable {m : LineInit W} {inp : ℕ → LineIn W} {P : ℕ → BitVec W}

lemma oEdgePixel_eq_false_iff (n : ℕ) :
    (bufferAt 640 m inp n).oEdgePixel = false ↔ Unmasked inp n := by
  by_cases hn : n < 2
  · simp [LineBuffer.oEdgePixel, xPipe2_bufferAt_init hn, Unmasked, hn]
  · obtain ⟨n, rfl⟩ := Nat.exists_eq_add_of_le' (not_lt.1 hn)
    rw [LineBuffer.oEdgePixel, xPipe2_bufferAt, yPipe2_bufferAt]
    simp [Unmasked]

/-- The window of nine pixels that stands at the `k`-th valid cycle: three places of each tape. -/
def leaning (m : LineInit W) (P : ℕ → BitVec W) (k : ℕ) : Fin 3 → Fin 3 → BitVec W
  | 0, c => tape2 640 m (lineAddr 0) P (k + c)
  | 1, c => tape1 640 m (lineAddr 0) P (k + c)
  | 2, c => tape0 P (k + c)

/-- From the third line on it is nine pixels of the stream. -/
lemma leaning_eq (k : ℕ) (r c : Fin 3) : leaning m P (k + 1284) r c = P (k + 641 * r + c) := by
  obtain ⟨h2, h1, h0⟩ := tapes_eq 640 m (lineAddr 0) P k c
  match r with
  | 0 => exact h2
  | 1 => exact h1
  | 2 => exact h0

theorem tap_eq_leaning (hf : LineFed inp P) {n : ℕ} (hv : Valid inp n) :
    (bufferAt 640 m inp n).tap (inp n) = leaning m P (validBefore inp n) := by
  funext r c
  obtain ⟨h0, h1, h2⟩ := (hf.holds m n).tap_eq (hf.data n hv) c
  match r with
  | 0 => exact h0
  | 1 => exact h1
  | 2 => exact h2

/-- **When the windows are neighbourhoods.** The nine pixels that the window really holds, three
in a row ending `0`, `641` and `1282` places before the newest, must have the colours of a
neighbourhood of the frame in every cycle that the mask leaves open. -/
theorem windowsTrue_iff (hf : RasterFed inp P) :
    WindowsTrue m inp P ↔ ∀ n, Valid inp n → Unmasked inp n →
      IsNeighbourhood P (validBefore inp n / 307200) (leaning m P (validBefore inp n)) := by
  unfold WindowsTrue
  refine forall_congr' fun n => forall_congr' fun hv => ?_
  rw [oEdgePixel_eq_false_iff, tap_eq_leaning hf.toLineFed hv]

end Frames

/-! ### Pictures -/

lemma rasterFed_feed {W : ℕ} {P : ℕ → BitVec W} : RasterFed (feed P) P where
  toLineFed := lineFed_feed
  y n h := by
    rw [valid_feed] at h
    rw [validBefore_feed, feed, BitVec.toNat_ofNat]
    omega

/-- The stream `P` as in `feed`, but that the column is 0 while no pixel is presented. -/
def restingFeed {W : ℕ} (P : ℕ → BitVec W) (n : ℕ) : LineIn W :=
  { feed P n with iX := if n % 642 < 640 then BitVec.ofNat 11 (n % 642) else 0 }

lemma validBefore_restingFeed {W : ℕ} {P : ℕ → BitVec W} (n : ℕ) :
    validBefore (restingFeed P) n = 640 * (n / 642) + min (n % 642) 640 :=
  validBefore_feed (P := P) n

lemma rasterFed_restingFeed {W : ℕ} {P : ℕ → BitVec W} : RasterFed (restingFeed P) P where
  x n h := by
    have h' : n % 642 < 640 := (valid_feed (P := P) n).1 h
    rw [restingFeed, if_pos h', validBefore_restingFeed, BitVec.toNat_ofNat]
    omega
  data := (lineFed_feed (P := P)).data
  burst := (lineFed_feed (P := P)).burst
  y := (rasterFed_feed (P := P)).y

/-- Lines of one colour each. -/
def bars (k : ℕ) : BitVec 30 := BitVec.ofNat 30 (k / 640)

theorem windowsTrue_iff_bars : WindowsTrue (blankInit 30) (restingFeed bars) bars := by
  refine (windowsTrue_iff rasterFed_restingFeed).2 fun n hv ⟨hn, hx, hy⟩ => ?_
  have hv' : n % 642 < 640 := (valid_feed (P := bars) n).1 hv
  -- the mask leaves the columns from 4 on of the lines from 2 on
  have hcol : 4 ≤ n % 642 := by
    by_contra hlt
    change 2 ≤ (if (n - 2) % 642 < 640 then BitVec.ofNat 11 ((n - 2) % 642) else 0) at hx
    split_ifs at hx with h
    · rw [BitVec.le_def, BitVec.toNat_ofNat] at hx
      change 2 ≤ _ at hx
      omega
    · exact absurd hx (by decide)
  have hrow : 2 ≤ n / 642 % 480 := by
    change 2 ≤ BitVec.ofNat 11 ((n - 2) / 642 % 480) at hy
    rw [BitVec.le_def, BitVec.toNat_ofNat] at hy
    change 2 ≤ _ at hy
    omega
  obtain ⟨k, hk⟩ : ∃ k, k = 640 * (n / 642 - 2) + (n % 642 - 4) := ⟨_, rfl⟩
  have hpos : validBefore (restingFeed bars) n = k + 1284 := by
    rw [validBefore_restingFeed]
    omega
  rw [hpos]
  refine ⟨1, n / 642 % 480 - 1, by omega, by omega, by omega, by omega, fun r c => ?_⟩
  rw [leaning_eq]
  have hr := r.isLt
  have hc := c.isLt
  have hframe : (k + 1284) / 307200 = n / 642 / 480 := by omega
  have hline : (k + 641 * r + c) / 640 = n / 642 - 2 + r := by omega
  rw [hframe]
  refine congrArg (BitVec.ofNat 30) (hline.trans ?_)
  omega

/-- Every pixel of the first frames is its position in the stream. -/
def ramp (k : ℕ) : BitVec 30 := BitVec.ofNat 30 k

lemma ramp_inj {j k : ℕ} (hj : j < 2 ^ 30) (hk : k < 2 ^ 30) (h : ramp j = ramp k) : j = k := by
  have := congrArg BitVec.toNat h
  rwa [ramp, ramp, BitVec.toNat_ofNat, BitVec.toNat_ofNat, Nat.mod_eq_of_lt hj,
    Nat.mod_eq_of_lt hk] at this

/-- At the pixel in column 4 of row 2 the middle row of the window stands one column too far to
the left. -/
theorem not_all_windowsTrue : ¬ ∀ (W : ℕ) (m : LineInit W) (inp : ℕ → LineIn W)
    (P : ℕ → BitVec W), RasterFed inp P → WindowsTrue m inp P := by
  intro h
  have hf : RasterFed (feed ramp) ramp := rasterFed_feed
  have hv : Valid (feed ramp) 1288 := (valid_feed _).2 (by omega)
  have hk : validBefore (feed ramp) 1288 = 1284 := validBefore_feed _
  have hu : Unmasked (feed ramp) 1288 := ⟨by decide, by decide, by decide⟩
  have hw := h 30 (blankInit 30) (feed ramp) ramp hf 1288 hv ((oEdgePixel_eq_false_iff _).2 hu)
  rw [tap_eq_leaning hf.toLineFed hv, hk] at hw
  obtain ⟨cx, cy, hx1, hx2, hy1, hy2, ht⟩ := hw
  -- the newest tap fixes the position, and the middle row contradicts it
  have e1 : ramp 1284 = pixel ramp 0 (cx - 1 + 2) (cy - 1 + 2) :=
    (leaning_eq 0 2 2).symm.trans (ht 2 2)
  have e2 : ramp 643 = pixel ramp 0 (cx - 1 + 2) (cy - 1 + 1) :=
    (leaning_eq 0 1 2).symm.trans (ht 1 2)
  have h1 := ramp_inj (by omega) (by omega) e1
  have h2 := ramp_inj (by omega) (by omega) e2
  omega

end VideoPipeline.Image

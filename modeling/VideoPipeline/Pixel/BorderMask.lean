import VideoPipeline.Pixel.Display

/-!
Whether the border mask covers every window that reaches over the left edge. The mask is taken
from coordinates that run one clock ahead of the pixels and are delayed by two, so it opens at
column 3; the top row of the window, which leans two columns to the left of the bottom one, ends
at column 4 only.
-/

namespace VideoPipeline.Pixel

open VideoPipeline.Lib VideoPipeline.Vga VideoPipeline.Image

/-! ### The cycles that use the window -/

section Mask

variable {m : LineInit 30} {inp : ℕ → PipeIn}

/-- `rgb_valid` in cycle `t`. -/
def RgbValid (m : LineInit 30) (inp : ℕ → PipeIn) (t : ℕ) : Prop := Valid (lineInput m inp) t

/-- `lb_edge_pixel` in cycle `t`. -/
def lbEdgePixel (m : LineInit 30) (inp : ℕ → PipeIn) (t : ℕ) : Bool :=
  (pipelineAt m inp t).uImageProcessor.uLineBuf.oEdgePixel

/-- The tap `w_rc` in cycle `t`. -/
def window (m : LineInit 30) (inp : ℕ → PipeIn) (t : ℕ) (r c : Fin 3) : BitVec 30 :=
  (pipelineAt m inp t).uImageProcessor.uLineBuf.tap (lineInput m inp t) r c

/-- The newest pixel in cycle `t`, as the number of valid pixels before it. -/
def newest (m : LineInit 30) (inp : ℕ → PipeIn) (t : ℕ) : ℕ := validBefore (lineInput m inp) t

/-- The mask opens at column 3 of row 2. -/
theorem lbEdgePixel_eq_false_iff (h : Supplied inp) {t : ℕ} (ht : RgbValid m inp t) :
    lbEdgePixel m inp t = false ↔
      3 ≤ newest m inp t % 640 ∧ 2 ≤ newest m inp t / 640 % 480 := by
  obtain ⟨n, rfl, hr⟩ := exists_of_valid h ht
  have hcount := count_of_requests hr
  have hlt := address_lt hr
  rw [newest, validBefore_succ_eq h, hcount]
  unfold address at hlt ⊢
  obtain ⟨n, rfl⟩ : ∃ n', n = n' + 1 := ⟨n - 1, by unfold Requests at hr; omega⟩
  rw [lbEdgePixel, uLineBuf_pipelineAt, LineBuffer.oEdgePixel, xPipe2_bufferAt, yPipe2_bufferAt]
  have hx : (lineInput m inp n).iX.toNat = n % 800 - 160 := iX_lineInput n
  have hy : (lineInput m inp n).iY.toNat = n / 800 % 525 - 45 := iY_lineInput n
  have h2 : (2 : BitVec 11).toNat = 2 := rfl
  unfold Requests at hr
  simp only [Bool.or_eq_false_iff, decide_eq_false_iff_not, BitVec.lt_def, hx, hy, h2]
  omega

/-! ### Where the taps come from -/

/-- The tap `w_rc` of cycle `t` is the pixel of the request `j`: in every run in which the FIFO
serves every request, whatever its words and whatever the memories held, the tap is that pixel. -/
def TapIs (t : ℕ) (r c : Fin 3) (j : ℕ) : Prop :=
  ∀ (m : LineInit 30) (inp : ℕ → PipeIn), Supplied inp → window m inp t r c = pixelIn inp j

/-- Every tap of cycle `t` is a pixel of the frame of the newest pixel `k`, in its row, the row
above it and the row above that from the bottom of the window to its top. -/
def TapsInFrame (t k : ℕ) : Prop :=
  ∀ r c : Fin 3, ∃ x < 640, TapIs t r c (307200 * (k / 307200) + 640 * (k / 640 % 480 - 2 + r) + x)

/-- The requests whose pixels the taps hold, `k` being the newest: three in a row ending at `k`,
at `k - 641` and at `k - 1282`. -/
def tapSource (k : ℕ) : Fin 3 → Fin 3 → ℕ
  | 0, c => k - 1284 + c
  | 1, c => k - 643 + c
  | 2, c => k - 2 + c

lemma tapSource_add (k : ℕ) (r c : Fin 3) : tapSource (k + 1284) r c = k + 641 * r + c := by
  match r with
  | 0 =>
    change k + 1284 - 1284 + c = k + 641 * 0 + c
    omega
  | 1 =>
    change k + 1284 - 643 + c = k + 641 * 1 + c
    omega
  | 2 =>
    change k + 1284 - 2 + c = k + 641 * 2 + c
    omega

theorem window_eq (h : Supplied inp) {t : ℕ} (ht : RgbValid m inp t)
    (hk : 1284 ≤ newest m inp t) (r c : Fin 3) :
    window m inp t r c = pixelIn inp (tapSource (newest m inp t) r c) := by
  obtain ⟨h2, h1, h0⟩ := (holds_pipeline (m := m) h t).tap_eq ((carries_lineInput h).data t ht) c
  obtain ⟨k, hk'⟩ := Nat.exists_eq_add_of_le' hk
  obtain ⟨e2, e1, e0⟩ := tapes_eq 640 m (lineAddr 1) (pixelIn inp) k c
  rw [← newest, hk'] at h0 h1 h2
  rw [hk', tapSource_add]
  match r with
  | 0 => exact h2.trans e2
  | 1 => exact h1.trans e1
  | 2 => exact h0.trans e0

/-- Which cycles present a pixel, and which one, is the same in every run the FIFO serves. -/
lemma newest_eq {m' : LineInit 30} {inp' : ℕ → PipeIn} (h : Supplied inp) (h' : Supplied inp')
    {t : ℕ} (ht : RgbValid m inp t) :
    RgbValid m' inp' t ∧ newest m' inp' t = newest m inp t := by
  obtain ⟨n, rfl, hr⟩ := exists_of_valid h ht
  refine ⟨(valid_succ_iff h' n).2 hr, ?_⟩
  rw [newest, newest, validBefore_succ_eq h, validBefore_succ_eq h']

theorem tapIs_tapSource (h : Supplied inp) {t : ℕ} (ht : RgbValid m inp t)
    (hk : 1284 ≤ newest m inp t) (r c : Fin 3) : TapIs t r c (tapSource (newest m inp t) r c) := by
  intro m' inp' h'
  obtain ⟨ht', hn⟩ : RgbValid m' inp' t ∧ newest m' inp' t = newest m inp t := newest_eq h h' ht
  rw [window_eq h' ht' (by omega), hn]

/-! ### A tap is one pixel only -/

/-- A FIFO that serves one word different from all others, at the request `j`. -/
def marked (j n : ℕ) : PipeIn := ⟨if n = requestTime j then 1 else 0, false, false, 0⟩

lemma supplied_marked (j : ℕ) : Supplied (marked j) := fun _ _ => ⟨rfl, rfl⟩

lemma requestTime_inj {i j : ℕ} (h : requestTime i = requestTime j) : i = j := by
  rw [← count_requestTime i, h, count_requestTime]

/-- No tap is the pixel of two requests. -/
theorem tapIs_unique {t i j : ℕ} {r c : Fin 3} (hi : TapIs t r c i) (hj : TapIs t r c j) :
    i = j := by
  by_contra hne
  have h1 := hi (blankInit 30) (marked i) (supplied_marked i)
  have h2 := hj (blankInit 30) (marked i) (supplied_marked i)
  have h3 : expand (word (marked i) i) = expand (word (marked i) j) :=
    rgbIn_injective (h1.symm.trans h2)
  rw [word, word, marked, marked, if_pos rfl, if_neg fun e => hne (requestTime_inj e).symm] at h3
  exact absurd h3 (by decide)

/-! ### The mask is one column short -/

/-- **When the mask is sufficient.** Among the unmasked cycles of the frames after the first,
exactly those whose newest pixel stands in column 3 have a tap outside the frame and its rows. -/
theorem tapsInFrame_iff (h : Supplied inp) {t : ℕ} (ht : RgbValid m inp t)
    (hmask : lbEdgePixel m inp t = false) (hf : 307200 ≤ newest m inp t) :
    TapsInFrame t (newest m inp t) ↔ newest m inp t % 640 ≠ 3 := by
  obtain ⟨hx, hy⟩ := (lbEdgePixel_eq_false_iff h ht).1 hmask
  have hsrc := tapIs_tapSource h ht (by omega)
  obtain ⟨k, hk⟩ := Nat.exists_eq_add_of_le' (show 1284 ≤ newest m inp t by omega)
  rw [hk] at hx hy hf hsrc ⊢
  constructor
  · intro htaps h3
    obtain ⟨x, hx640, hx'⟩ := htaps 0 0
    -- the leftmost tap of the top row is the last pixel of the line before that row
    have he := tapIs_unique hx' (hsrc 0 0)
    rw [tapSource_add] at he
    simp at he
    omega
  · intro h3 r c
    have hr := r.isLt
    have hc := c.isLt
    refine ⟨(k + 1284) % 640 - 4 + r + c, by omega, ?_⟩
    have hpix := hsrc r c
    rw [tapSource_add] at hpix
    convert hpix using 1
    omega

end Mask

/-! ### A pixel of the frame before -/

section Marked

variable (k : ℕ)

lemma rgbValid_marked : RgbValid (blankInit 30) (marked 0) (requestTime k + 1) :=
  (valid_succ_iff (supplied_marked 0) _).2 (requests_requestTime _)

lemma newest_marked : newest (blankInit 30) (marked 0) (requestTime k + 1) = k := by
  rw [newest, validBefore_succ_eq (supplied_marked 0), count_requestTime]

lemma lbEdgePixel_marked (hx : 3 ≤ k % 640) (hy : 2 ≤ k / 640 % 480) :
    lbEdgePixel (blankInit 30) (marked 0) (requestTime k + 1) = false := by
  rw [lbEdgePixel_eq_false_iff (supplied_marked 0) (rgbValid_marked k), newest_marked]
  exact ⟨hx, hy⟩

end Marked

/-- In the second frame, row 2: column 4 is right, column 3 is not. -/
theorem tapsInFrame_iff_marked : TapsInFrame (requestTime 308484 + 1) 308484 ∧
    ¬ TapsInFrame (requestTime 308483 + 1) 308483 := by
  have h4 := tapsInFrame_iff (supplied_marked 0) (rgbValid_marked 308484)
    (lbEdgePixel_marked 308484 (by omega) (by omega)) (by rw [newest_marked]; omega)
  have h3 := tapsInFrame_iff (supplied_marked 0) (rgbValid_marked 308483)
    (lbEdgePixel_marked 308483 (by omega) (by omega)) (by rw [newest_marked]; omega)
  rw [newest_marked] at h4 h3
  exact ⟨h4.2 (by omega), fun h => h3.1 h (by omega)⟩

/-- At column 3 of row 2 of the second frame the mask is open, and the top left tap is the last
pixel of the first frame. -/
theorem mask_not_sufficient : ¬ ∀ (m : LineInit 30) (inp : ℕ → PipeIn), Supplied inp →
    ∀ t, RgbValid m inp t → lbEdgePixel m inp t = false → 307200 ≤ newest m inp t →
      TapsInFrame t (newest m inp t) := by
  intro h
  have htaps := h (blankInit 30) (marked 0) (supplied_marked 0) _ (rgbValid_marked 308483)
    (lbEdgePixel_marked 308483 (by omega) (by omega)) (by rw [newest_marked]; omega)
  rw [newest_marked] at htaps
  obtain ⟨x, -, hx⟩ := htaps 0 0
  have hsrc := tapIs_tapSource (supplied_marked 0) (rgbValid_marked 308483)
    (by rw [newest_marked]; omega) 0 0
  rw [newest_marked] at hsrc
  have he := tapIs_unique hx hsrc
  simp [tapSource] at he
  omega

end VideoPipeline.Pixel

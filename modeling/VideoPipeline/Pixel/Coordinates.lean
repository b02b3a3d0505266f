import VideoPipeline.Pixel.BorderMask

/-!
The coordinates that accompany a pixel on its way into the image processor. The decoder registers
the word, the coordinates are taken from the live counters: every pixel meets the coordinates of
the position after its own.
-/

namespace VideoPipeline.Pixel

open VideoPipeline.Lib VideoPipeline.Vga VideoPipeline.Image

variable {m : LineInit 30} {inp : ℕ → PipeIn}

/-! ### The word that is decoded -/

/-- A word is popped off the FIFO in cycle `n`, `vga_fifo_rdreq = 1`. -/
def Popped (m : LineInit 30) (inp : ℕ → PipeIn) (n : ℕ) : Prop :=
  (pipelineAt m inp n).vgaFifoRdreq (inp n) = true

/-- The word that stands in the decoder in cycle `t` was requested in cycle `n`: it is the word
of the last pop. -/
structure RequestedIn (m : LineInit 30) (inp : ℕ → PipeIn) (t n : ℕ) : Prop where
  lt : n < t
  popped : Popped m inp n
  last : ∀ q, n < q → q < t → ¬ Popped m inp q

lemma popped_iff {n : ℕ} : Popped m inp n ↔
    Requests n ∧ (inp n).vgaFifoRdempty = false ∧ (inp n).fifoAclr = false := by
  unfold Popped Pipeline.vgaFifoRdreq
  rw [uVga_pipelineAt, oRequest_std]
  simp [and_assoc]

/-- A valid pixel was popped in the cycle before. -/
lemma rgbValid_succ_iff {n : ℕ} : RgbValid m inp (n + 1) ↔ Popped m inp n := Iff.rfl

lemma requestedIn_succ {n : ℕ} (h : Popped m inp n) : RequestedIn m inp (n + 1) n :=
  ⟨by omega, h, fun q h1 h2 => by omega⟩

/-! ### The coordinates -/

/-- `(oCurrent_X, oCurrent_Y)` in cycle `n`. -/
def position (m : LineInit 30) (inp : ℕ → PipeIn) (n : ℕ) : BitVec 11 × BitVec 11 :=
  ((pipelineAt m inp n).uVga.oCurrentX .std, (pipelineAt m inp n).uVga.oCurrentY .std)

/-- `(i_x, i_y)` of the image processor in cycle `t`. -/
def coordinates (m : LineInit 30) (inp : ℕ → PipeIn) (t : ℕ) : BitVec 11 × BitVec 11 :=
  (((pipelineAt m inp t).procIn (inp t)).iX, ((pipelineAt m inp t).procIn (inp t)).iY)

/-- **The coordinates travel with their pixel**: those of a valid cycle are the ones at which its
word was requested. -/
def CoordinatesTravel (m : LineInit 30) (inp : ℕ → PipeIn) : Prop :=
  ∀ t n, RgbValid m inp t → RequestedIn m inp t n → coordinates m inp t = position m inp n

/-- **One position ahead.** The pixel of a position meets the coordinates of the next one in
raster order, in the last column those of the next line, and at the end of the frame those of
its beginning. -/
theorem coordinates_succ (m : LineInit 30) (inp : ℕ → PipeIn) {n : ℕ} (h : Requests n) :
    640 * (coordinates m inp (n + 1)).2.toNat + (coordinates m inp (n + 1)).1.toNat =
      (640 * (position m inp n).2.toNat + (position m inp n).1.toNat + 1) % 307200 := by
  have hx : (coordinates m inp (n + 1)).1.toNat = (n + 1) % 800 - 160 := iX_lineInput (n + 1)
  have hy : (coordinates m inp (n + 1)).2.toNat = (n + 1) / 800 % 525 - 45 := iY_lineInput (n + 1)
  have hx' : (position m inp n).1.toNat = n % 800 - 160 := iX_lineInput n
  have hy' : (position m inp n).2.toNat = n / 800 % 525 - 45 := iY_lineInput n
  rw [hx, hy, hx', hy']
  unfold Requests at h
  omega

/-- So no pixel meets its own. -/
lemma coordinates_ne {n : ℕ} (h : Requests n) :
    coordinates m inp (n + 1) ≠ position m inp n := by
  intro heq
  have hnext := coordinates_succ m inp h
  rw [heq] at hnext
  omega

/-- **When the coordinates travel**: in the runs in which no word is ever popped, the FIFO being
empty or in clear at every request. -/
theorem coordinatesTravel_iff (m : LineInit 30) (inp : ℕ → PipeIn) : CoordinatesTravel m inp ↔
    ∀ n, Requests n → (inp n).vgaFifoRdempty = true ∨ (inp n).fifoAclr = true := by
  constructor
  · intro h n hr
    by_contra hserved
    rw [not_or, Bool.not_eq_true, Bool.not_eq_true] at hserved
    have hp : Popped m inp n := popped_iff.2 ⟨hr, hserved⟩
    exact coordinates_ne hr (h (n + 1) n (rgbValid_succ_iff.2 hp) (requestedIn_succ hp))
  · intro h t n _ hreq
    obtain ⟨hr, he, hc⟩ := popped_iff.1 hreq.popped
    rcases h n hr with h1 | h1
    · rw [he] at h1
      cases h1
    · rw [hc] at h1
      cases h1

/-- The first pixel of the first frame, with the FIFO never empty or in clear. -/
theorem not_all_coordinatesTravel :
    ¬ ∀ (m : LineInit 30) (inp : ℕ → PipeIn), CoordinatesTravel m inp := by
  intro h
  have hr : Requests 36160 := by decide
  have hp : Popped (blankInit 30) (marked 0) 36160 := popped_iff.2 ⟨hr, rfl, rfl⟩
  exact coordinates_ne hr
    (h (blankInit 30) (marked 0) 36161 36160 (rgbValid_succ_iff.2 hp) (requestedIn_succ hp))

end VideoPipeline.Pixel

import VideoPipeline.Format.Agreement
import VideoPipeline.Pixel.Resume
import VideoPipeline.Top.Raster
import VideoPipeline.Top.Recovery

/-!
From the memory to the screen. A display at rest at some rise is served from then on, and from
the frame after that on the screen shows what the mode makes of the picture in the memory; so an
image that was converted and loaded is on the screen, in the original mode up to the bits that
RGB565 has no room for, and moved as the window moves it.
-/

namespace VideoPipeline.Top

open VideoPipeline.Lib VideoPipeline.Vga VideoPipeline.Image VideoPipeline.Pixel VideoPipeline.Read
  VideoPipeline.Format

/-! ### Pictures that repeat -/

section Repeat

variable {p : ℕ → Rgb10} {k : ℕ}

lemma shownIndex_add (hk : 641 ≤ k) : shownIndex (k + 307200) = shownIndex k + 307200 := by
  unfold shownIndex
  split_ifs <;> omega

lemma around_add (hk : 1281 ≤ k) (r c : Fin 3) :
    around (k + 307200) r c = around k r c + 307200 := by
  match r with
  | 0 =>
    rw [around_top, around_top]
    omega
  | 1 =>
    rw [around_middle, around_middle]
    omega
  | 2 =>
    rw [around_bottom, around_bottom]
    omega

/-- A picture that repeats every frame is rendered the same in every frame. -/
lemma render_add (hp : ∀ k, p (k + 307200) = p k) (hk : 1281 ≤ k) (mode : BitVec 2) :
    render p (k + 307200) mode = render p k mode := by
  have hmask : Masked (k + 307200) ↔ Masked k := by
    rw [Nat.add_comm]
    exact masked_add 1 k
  unfold render outline slopeX slopeY sharper lumaAt
  simp only [shownIndex_add (show 641 ≤ k by omega), around_add hk, hp, hmask]

lemma render_frame (hp : ∀ k, p (k + 307200) = p k) {g a : ℕ} (hg : 1 ≤ g) (mode : BitVec 2) :
    render p (307200 * g + a) mode = render p (307200 + a) mode := by
  induction g, hg using Nat.le_induction with
  | base => rw [Nat.mul_one]
  | succ g hg ih =>
    rw [← ih, show 307200 * (g + 1) + a = 307200 * g + a + 307200 by omega]
    exact render_add hp (by omega) mode

end Repeat

namespace Run

/-! ### From the memory to the screen -/

section Screen

variable (r : Run)

/-- What the FIFO and the switches present to the pipeline in cycle `t`. -/
def presented (t : ℕ) : PipeIn := (r.final t).pipeIn (r.vga t)

/-- `oVGA_R`, `oVGA_G` and `oVGA_B` in cycle `t`. -/
def screen (t : ℕ) : BitVec 8 × BitVec 8 × BitVec 8 :=
  ((r.start t).pipe.uVga.oVgaR, (r.start t).pipe.uVga.oVgaG, (r.start t).pipe.uVga.oVgaB)

/-- The colours of the picture in the memory, over and over. -/
def colours (k : ℕ) : Rgb10 := expand (pictureWord r.mem (k % 307200))

variable {r} {q : Terms} {t t₀ : ℕ}

lemma screen_eq (t : ℕ) : r.screen t = Pixel.vgaRgb r.m r.presented t := by
  unfold screen
  rw [pipe_start]
  rfl

lemma address_add (F n : ℕ) : Vga.address (420000 * F + n) = Vga.address n := by
  unfold Vga.address
  omega

/-- A FIFO that serves every request with its word, from some frame on, presents the picture. -/
lemma presented_of_served {F : ℕ} (h : ∀ n, Requests n → r.Popped (420000 * F + n) ∧
    r.poppedWord (420000 * F + n) =
      r.mem (bufferABase + (r.start (420000 * F + n)).oAddress.setWidth 25)) :
    Supplied (resumed r.presented F) ∧
      ∀ k, expand (word (resumed r.presented F) k) = r.colours k := by
  constructor
  · intro n hn
    obtain ⟨-, hfifo, hlag, hclr⟩ := (popped_iff _).1 (h n hn).1
    refine ⟨?_, ?_⟩
    · change ((r.final (420000 * F + n)).path.fifo.isEmpty || _) = false
      rw [hlag, Bool.or_false, List.isEmpty_eq_false_iff]
      exact hfifo
    · change (r.final (420000 * F + n)).fifoAclr = false
      rw [final_eq, fifoAclr_point]
      exact Bool.eq_false_iff.2 hclr
  · intro k
    have hw := (h _ (requests_requestTime k)).2
    rw [← pictureWord_oAddress, address_add, address_requestTime] at hw
    exact congrArg expand hw

/-- **The picture in the memory is on the screen.** From the second frame on after a rise at which
the display was at rest, the colour shown for a request is the one rendered from the picture. -/
theorem Rested.screen (h : r.Rested t₀) (h2 : r.TwoToOne) (hk : r.Keeps q) (hs : r.Spares t₀)
    (hon : ∀ t ≥ t₀ + 20000, ∀ x ∈ r.burst t, x.pioImgLoaded = true) (hle : t₀ + 420000 ≤ t)
    (hreq : r.VgaReq t) : r.screen (t + 6) =
      render r.colours (307200 + (r.start t).oAddress.toNat) (r.vga (t + 4)).sw := by
  have h0 := (rises_iff t₀).1 h.rise
  obtain ⟨F, hF⟩ : ∃ F, t₀ = 420000 * F + 9606 := ⟨t₀ / 420000, by unfold vsPhase at h0; omega⟩
  obtain ⟨n, rfl⟩ := Nat.exists_eq_add_of_le (show 420000 * F ≤ t by omega)
  have hreq' := (requests_add F n).1 ((vgaReq_iff _).1 hreq)
  have hserved (n : ℕ) (hn : Requests n) := h.service h2 hk hs hon
    (show t₀ ≤ 420000 * F + n by unfold Requests at hn; omega)
    ((vgaReq_iff _).2 ((requests_add F n).2 hn))
  obtain ⟨hsup, hword⟩ := presented_of_served hserved
  have hcount := count_of_requests hreq'
  have hfr : 1 ≤ n / 420000 := by omega
  have hp (k : ℕ) : r.colours (k + 307200) = r.colours k := by
    unfold colours
    rw [Nat.add_mod_right]
  rw [screen_eq, vgaRgb_add_six ((requests_add F n).2 hreq'), shown_resumed hsup hreq' (by omega),
    funext hword, hcount, oAddress_start, address_add, render_frame hp hfr]
  rfl

/-! ### From the image to the screen -/

/-- The colours that the decoder makes of the codes of an image, over and over. -/
def imageColours (img : Format.Image) (k : ℕ) : Rgb10 :=
  expand (rgb565 (img.pixel ⟨k % (480 * 640), Nat.mod_lt _ (by omega)⟩))

/-- A colour on the screen as a pixel. -/
def onScreen (c : BitVec 8 × BitVec 8 × BitVec 8) : Rgb888 := ⟨c.1, c.2.1, c.2.2⟩

/-- The pixel that stands at the place `a` of the screen in the original mode. -/
def shownPixel (img : Format.Image) (a : ℕ) : Rgb888 :=
  img.pixel ⟨shownIndex (307200 + a) % (480 * 640), Nat.mod_lt _ (by omega)⟩

lemma colours_load {img : Format.Image} {bytes : BitVec 26 → BitVec 8}
    (hmem : r.mem = wordAt (load (binFile img) bytes)) : r.colours = imageColours img := by
  funext k
  have hk : k % (480 * 640) < 480 * 640 := Nat.mod_lt _ (by omega)
  have hw := wordAt_load_binFile img bytes ⟨k % (480 * 640), hk⟩ (toNat_base_add hk)
  rw [colours, pictureWord, hmem]
  exact congrArg expand hw

lemma near_imageColours (img : Format.Image) (a : ℕ) :
    Near (shownPixel img a) (onScreen (render (imageColours img) (307200 + a) 0)) :=
  near_displayed .reset (shownPixel img a)

end Screen

end Run

/-! ### A loop that shows an image -/

/-- An image that gets redder to the right and greener to the bottom. -/
def shaded : Format.Image := fun y x => ⟨BitVec.ofNat 8 x, BitVec.ofNat 8 y, 50⟩

/-- The memory after it was loaded. -/
def shadedMem : BitVec 25 → BitVec 16 := wordAt (load (binFile shaded) fun _ => 0)

lemma vgaReq_shaded : (doubleLoop shadedMem later).VgaReq 524567 := (Run.vgaReq_iff _).2 (by decide)

end VideoPipeline.Top

import VideoPipeline.Pixel.Pipeline

/-!
What the screen shows. Six clocks after a request the output register takes the centre of the
window, and the window has moved on by then: in the original and the gray mode the place of the
pixel `(x, y)` shows the pixel one column to the right and one row above it, the first row that
of the last row of the frame before, and the last two columns the last pixel but one.
-/

namespace VideoPipeline.Pixel

open VideoPipeline.Lib VideoPipeline.Vga VideoPipeline.Image

/-! ### The pixel under the centre tap -/

/-- The request whose pixel is shown at the place of the request `k`. -/
def shownIndex (k : ℕ) : ℕ :=
  if k % 640 = 639 then k - 641 else if k % 640 = 638 then k - 640 else k - 639

section Centre

variable {m : LineInit 30} {inp : ℕ → PipeIn}

/-- Three clocks after a request, it and those that follow it in its line were counted. -/
lemma count_requests_add_three {n : ℕ} (h : Requests n) (hk : 641 ≤ Nat.count Requests n) :
    Nat.count Requests (n + 3) = shownIndex (Nat.count Requests n) + 642 := by
  have hmod := count_mod_of_requests h
  have h1 : Requests (n + 1) ↔ n % 800 < 799 := by unfold Requests at h ⊢; omega
  have h2 : Requests (n + 2) ↔ n % 800 < 798 := by unfold Requests at h ⊢; omega
  have h160 : 160 ≤ n % 800 := h.1
  rw [Nat.count_succ, Nat.count_succ, Nat.count_succ, if_pos h]
  simp only [h1, h2]
  unfold shownIndex
  split_ifs <;> omega

theorem row1D1_pipeline (h : Supplied inp) {n : ℕ} (hr : Requests n)
    (hk : 641 ≤ Nat.count Requests n) :
    (pipelineAt m inp (n + 4)).uImageProcessor.uLineBuf.row1D1 =
      pixelIn inp (shownIndex (Nat.count Requests n)) := by
  rw [(holds_pipeline h (n + 4)).row1D1, validBefore_succ_eq h, count_requests_add_three hr hk,
    show shownIndex (Nat.count Requests n) + 642 + 1 =
      shownIndex (Nat.count Requests n) + 640 + 3 by omega]
  exact tape1_add _

/-- The centre of the window when the colours of a request are selected. -/
theorem centre_pipeline (h : Supplied inp) {n : ℕ} (hr : Requests n)
    (hk : 641 ≤ Nat.count Requests n) (i : ProcIn) :
    (pipelineAt m inp (n + 4)).uImageProcessor.window i 1 1 =
      expand (word inp (shownIndex (Nat.count Requests n))) := by
  change split (pipelineAt m inp (n + 4)).uImageProcessor.uLineBuf.row1D1 = _
  rw [row1D1_pipeline h hr hk, pixelIn, split_rgbIn]

end Centre

/-! ### The cycles in which the picture is shown -/

section Blank

variable {m : LineInit 30} {inp : ℕ → PipeIn}

/-- A cycle with `oVGA_BLANK = 1`. -/
def Shows (m : LineInit 30) (inp : ℕ → PipeIn) (t : ℕ) : Prop :=
  (pipelineAt m inp t).uVga.oVgaBlank = true

instance (m : LineInit 30) (inp : ℕ → PipeIn) : DecidablePred (Shows m inp) := fun t => by
  unfold Shows; infer_instance

/-- The three colour outputs of cycle `t`. -/
def vgaRgb (m : LineInit 30) (inp : ℕ → PipeIn) (t : ℕ) : BitVec 8 × BitVec 8 × BitVec 8 :=
  ((pipelineAt m inp t).uVga.oVgaR, (pipelineAt m inp t).uVga.oVgaG,
    (pipelineAt m inp t).uVga.oVgaB)

lemma shows_add_six (n : ℕ) : Shows m inp (n + 6) ↔ Requests n := by
  rw [Shows, uVga_pipelineAt, oVgaBlank_scan, cBlank_std, decide_eq_true_eq]

lemma not_shows_of_lt {t : ℕ} (h : t < 6) : ¬ Shows m inp t := by
  rw [Shows, uVga_pipelineAt, oVgaBlank_scan_init h]
  exact Bool.false_ne_true

lemma exists_of_shows {t : ℕ} (h : Shows m inp t) : ∃ n, t = n + 6 ∧ Requests n := by
  by_cases ht : t < 6
  · exact absurd h (not_shows_of_lt ht)
  · obtain ⟨n, rfl⟩ := Nat.exists_eq_add_of_le' (not_lt.1 ht)
    exact ⟨n, rfl, (shows_add_six n).1 h⟩

lemma count_shows (n : ℕ) : Nat.count (Shows m inp) (n + 6) = Nat.count Requests n := by
  induction n with
  | zero => rw [Nat.count_zero, Nat.count_of_forall_not fun t ht => not_shows_of_lt (by omega)]
  | succ n ih =>
    rw [show n + 1 + 6 = n + 6 + 1 by omega, Nat.count_succ, ih, Nat.count_succ]
    simp only [shows_add_six]

/-- While the picture is shown, the outputs are what the multiplexer selected two edges ago. -/
theorem vgaRgb_add_six {n : ℕ} (hr : Requests n) :
    vgaRgb m inp (n + 6) =
      shown ((pipelineAt m inp (n + 4)).uImageProcessor.select
        ((pipelineAt m inp (n + 4)).procIn (inp (n + 4)))) := by
  have hs : Shows m inp (n + 6) := (shows_add_six n).2 hr
  rw [Shows, uVga_pipelineAt] at hs
  have hc := vgaRgb_scan hs
  rw [← uVga_pipelineAt] at hc
  unfold vgaRgb VgaController.oVgaR VgaController.oVgaG VgaController.oVgaB
  rw [hc]
  rfl

end Blank

/-! ### A still picture -/

section Still

/-- In every frame the FIFO serves the words `w` of a still picture in raster order, and the
switches stand at `mode`. -/
structure Plays (inp : ℕ → PipeIn) (w : ℕ → BitVec 16) (mode : BitVec 2) : Prop where
  supplied : Supplied inp
  head : ∀ n, Requests n → (inp n).vgaFifoQ = w (address n)
  sw : ∀ n, (inp n).sw = mode

/-- In every frame after the first complete one, the `j`-th cycle of the frame in which the
picture is shown has the colour `colour j`. -/
def Displays (m : LineInit 30) (inp : ℕ → PipeIn) (colour : ℕ → BitVec 8 × BitVec 8 × BitVec 8) :
    Prop :=
  ∀ f j t, 1 ≤ f → j < 307200 → Shows m inp t → Nat.count (Shows m inp) t = 307200 * f + j →
    vgaRgb m inp t = colour j

/-- The upper eight bits of a luma on all three channels. -/
def grayOf (c : Rgb10) : BitVec 8 × BitVec 8 × BitVec 8 :=
  let y := BitVec.ofNat 8 ((77 * c.red.toNat + 150 * c.green.toNat + 29 * c.blue.toNat) / 256 / 4)
  (y, y, y)

lemma upper8_grayVal (c : Rgb10) : upper8 (grayVal c) =
    BitVec.ofNat 8 ((77 * c.red.toNat + 150 * c.green.toNat + 29 * c.blue.toNat) / 256 / 4) := by
  rw [← fLuma_toNat, ← grayVal, ← toNat_upper8, BitVec.ofNat_toNat, BitVec.setWidth_eq]

variable {m : LineInit 30} {inp : ℕ → PipeIn} {w : ℕ → BitVec 16} {mode : BitVec 2}

lemma Plays.word_eq (h : Plays inp w mode) (k : ℕ) : word inp k = w (k % 307200) := by
  have hr := requests_requestTime k
  have hk := count_of_requests hr
  have hlt := address_lt hr
  rw [count_requestTime] at hk
  rw [word, h.head _ hr, show address (requestTime k) = k % 307200 by omega]

/-- What the `k`-th shown cycle shows, when the mode is one of the two that show the centre. -/
theorem Plays.vgaRgb_eq (h : Plays inp w mode) {n : ℕ} (hr : Requests n)
    (hk : 641 ≤ Nat.count Requests n) :
    (mode = 0 → vgaRgb m inp (n + 6) =
      shown (expand (w (shownIndex (Nat.count Requests n) % 307200)))) ∧
    (mode = 1 → vgaRgb m inp (n + 6) =
      grayOf (expand (w (shownIndex (Nat.count Requests n) % 307200)))) := by
  have hc := centre_pipeline (m := m) h.supplied hr hk
    ((pipelineAt m inp (n + 4)).procIn (inp (n + 4)))
  have hsw : ((pipelineAt m inp (n + 4)).procIn (inp (n + 4))).iMode = mode := h.sw (n + 4)
  rw [h.word_eq] at hc
  constructor
  · rintro rfl
    rw [vgaRgb_add_six hr, VgaImageProcessor.select, hsw, hc]
    rfl
  · rintro rfl
    rw [vgaRgb_add_six hr, VgaImageProcessor.select, hsw, hc]
    simp [shown, grayOf, upper8_grayVal]

/-- A picture that looks the same as itself moved along `shownIndex` has one colour. -/
lemma constant_of_shifted {β : Type*} {g : ℕ → β}
    (h : ∀ j < 307200, g (shownIndex (307200 + j) % 307200) = g j) :
    ∀ j < 307200, g j = g 638 := by
  -- column 638 shows the pixel above it
  have hcol : ∀ y < 480, g (640 * y + 638) = g 638 := by
    intro y hy
    induction y with
    | zero => rfl
    | succ y ih =>
      have e : shownIndex (307200 + (640 * (y + 1) + 638)) % 307200 = 640 * y + 638 := by
        unfold shownIndex
        split_ifs <;> omega
      rw [← ih (by omega), ← h (640 * (y + 1) + 638) (by omega), e]
  -- every column to its left shows the one to its right, a row above
  have hleft : ∀ d ≤ 638, ∀ y < 480, g (640 * y + (638 - d)) = g 638 := by
    intro d hd
    induction d with
    | zero => exact hcol
    | succ d ih =>
      intro y hy
      have e : shownIndex (307200 + (640 * y + (638 - (d + 1)))) % 307200 =
          640 * ((y + 479) % 480) + (638 - d) := by
        unfold shownIndex
        split_ifs <;> omega
      rw [← ih (by omega) ((y + 479) % 480) (by omega), ← h (640 * y + (638 - (d + 1))) (by omega),
        e]
  -- and the last column shows column 638
  intro j hj
  by_cases hx : j % 640 = 639
  · have e : shownIndex (307200 + j) % 307200 = 640 * ((j / 640 + 479) % 480) + 638 := by
      unfold shownIndex
      split_ifs <;> omega
    rw [← hcol ((j / 640 + 479) % 480) (by omega), ← h j hj, e]
  · have := hleft (638 - j % 640) (by omega) (j / 640) (by omega)
    rwa [show 640 * (j / 640) + (638 - (638 - j % 640)) = j by omega] at this

/-- All pixels of the picture look the same to `g`. -/
def OneColour {β : Type*} (g : ℕ → β) : Prop := ∀ i < 307200, ∀ j < 307200, g i = g j

/-- If the places show the picture moved along `shownIndex`, they show the picture itself just
when it has one colour. -/
theorem displays_iff_oneColour {colour : ℕ → BitVec 8 × BitVec 8 × BitVec 8}
    (hshow : ∀ n, Requests n → 641 ≤ Nat.count Requests n →
      vgaRgb m inp (n + 6) = colour (shownIndex (Nat.count Requests n) % 307200)) :
    Displays m inp colour ↔ OneColour colour := by
  constructor
  · intro h
    have hconst : ∀ j < 307200, colour j = colour 638 := by
      refine constant_of_shifted ?_
      intro j hj
      have hr := requests_requestTime (307200 + j)
      have hc := count_requestTime (307200 + j)
      have h1 := h 1 j (requestTime (307200 + j) + 6) le_rfl hj ((shows_add_six _).2 hr)
        (by rw [count_shows, hc])
      rw [hshow _ hr (by omega), hc] at h1
      exact h1
    intro i hi j hj
    rw [hconst i hi, hconst j hj]
  · intro h f j t hf hj ht hcount
    obtain ⟨n, rfl, hr⟩ := exists_of_shows ht
    rw [count_shows] at hcount
    rw [hshow n hr (by omega)]
    exact h _ (Nat.mod_lt _ (by omega)) j hj

/-- The picture that mode `2'b00` should show. -/
def original (w : ℕ → BitVec 16) (j : ℕ) : BitVec 8 × BitVec 8 × BitVec 8 := shown (expand (w j))

/-- The picture that mode `2'b01` should show. -/
def gray (w : ℕ → BitVec 16) (j : ℕ) : BitVec 8 × BitVec 8 × BitVec 8 := grayOf (expand (w j))

lemma oneColour_original : OneColour (original w) ↔ OneColour w := by
  unfold OneColour original
  constructor
  · intro h i hi j hj
    exact shown_expand_injective (h i hi j hj)
  · intro h i hi j hj
    rw [h i hi j hj]

/-- **When the screen shows the picture.** In the original mode exactly the pictures of one
colour are shown where they belong, and in the gray mode exactly those of one gray: every other
picture is moved by a row and a column. -/
theorem displays_iff (h : Plays inp w mode) :
    (mode = 0 → (Displays m inp (original w) ↔ OneColour w)) ∧
      (mode = 1 → (Displays m inp (gray w) ↔ OneColour (gray w))) := by
  constructor
  · intro hm
    rw [← oneColour_original]
    exact displays_iff_oneColour fun n hr hk => (h.vgaRgb_eq hr hk).1 hm
  · intro hm
    exact displays_iff_oneColour fun n hr hk => (h.vgaRgb_eq hr hk).2 hm

end Still

/-! ### Pictures -/

/-- A FIFO that always has the word of the current position at its head. -/
def playing (w : ℕ → BitVec 16) (mode : BitVec 2) (n : ℕ) : PipeIn :=
  ⟨w (address n), false, false, mode⟩

lemma plays_playing (w : ℕ → BitVec 16) (mode : BitVec 2) : Plays (playing w mode) w mode :=
  ⟨fun _ _ => ⟨rfl, rfl⟩, fun _ _ => rfl, fun _ => rfl⟩

/-- A picture of black and a blue that is black in gray. -/
def dim (j : ℕ) : BitVec 16 := BitVec.ofNat 16 (j % 2)

lemma oneColour_gray_dim : OneColour (gray dim) := by
  have hgray (j : ℕ) : gray dim j = grayOf (expand 0) := by
    rcases Nat.mod_two_eq_zero_or_one j with h | h
    · rw [gray, dim, h]
      rfl
    · rw [gray, dim, h]
      decide
  intro i _ j _
  rw [hgray, hgray]

lemma not_oneColour_dim : ¬ OneColour dim := fun h =>
  absurd (h 0 (by omega) 1 (by omega)) (by decide)

theorem displays_iff_dim :
    Displays (blankInit 30) (playing (fun _ => 0xF81F) 0) (original fun _ => 0xF81F) ∧
      Displays (blankInit 30) (playing dim 1) (gray dim) ∧
        ¬ Displays (blankInit 30) (playing dim 0) (original dim) :=
  ⟨((displays_iff (plays_playing _ 0)).1 rfl).2 fun _ _ _ _ => rfl,
    ((displays_iff (plays_playing dim 1)).2 rfl).2 oneColour_gray_dim,
    mt ((displays_iff (plays_playing dim 0)).1 rfl).1 not_oneColour_dim⟩

/-- The picture whose words count up. -/
def counting (j : ℕ) : BitVec 16 := BitVec.ofNat 16 j

/-- The picture that counts up is not shown where it belongs. -/
theorem not_all_displayed : ¬ ∀ (m : LineInit 30) (inp : ℕ → PipeIn) (w : ℕ → BitVec 16)
    (mode : BitVec 2), Plays inp w mode →
      (mode = 0 → Displays m inp (original w)) ∧ (mode = 1 → Displays m inp (gray w)) := by
  intro h
  have hp := plays_playing counting 0
  have hd := (h (blankInit 30) _ _ _ hp).1 rfl
  rw [displays_iff_oneColour fun n hr hk => (hp.vgaRgb_eq hr hk).1 rfl, oneColour_original] at hd
  have h01 := hd 0 (by omega) 1 (by omega)
  exact absurd h01 (by decide)

end VideoPipeline.Pixel

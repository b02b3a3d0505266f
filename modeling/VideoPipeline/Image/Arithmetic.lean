import VideoPipeline.Image.Processor
import VideoPipeline.Lib.Bits
import Mathlib.Algebra.Order.Group.Abs
import Mathlib.Algebra.Order.Group.Int

/-!
The edge detector and the sharpening filter compute what their formulas say over the integers:
in the widths of the source no partial sum wraps, and every comparison is the one of the integers.
-/

namespace VideoPipeline.Image

open VideoPipeline.Lib VideoPipeline.Vga

/-! ### The gradient -/

section Sobel

lemma sobelOne_toInt (p : BitVec 10) : (sobelOne p).toInt = p.toNat := by
  rw [sobelOne, BitVec.toInt_signExtend_of_le (by omega), toInt_zero_append (by omega)]

lemma sobelTwo_toInt (p : BitVec 10) : (sobelTwo p).toInt = 2 * p.toNat := by
  rw [sobelTwo, BitVec.toInt_signExtend_of_le (by omega), BitVec.toInt_append, if_neg (by decide),
    toInt_zero_append (by omega)]
  simp

variable (a b c d e f : BitVec 10)

/-- The gradient over the integers. -/
def gradient : ℤ := (a.toNat + 2 * b.toNat + c.toNat) - (d.toNat + 2 * e.toNat + f.toNat)

/-- The sum behind `s_gx` and `s_gy`, operator by operator, and the absolute value of it. -/
structure GradientExact : Prop where
  two : (sobelOne a + sobelTwo b).toInt = a.toNat + 2 * b.toNat
  three : (sobelOne a + sobelTwo b + sobelOne c).toInt = a.toNat + 2 * b.toNat + c.toNat
  four : (sobelOne a + sobelTwo b + sobelOne c - sobelOne d).toInt =
    a.toNat + 2 * b.toNat + c.toNat - d.toNat
  five : (sobelOne a + sobelTwo b + sobelOne c - sobelOne d - sobelTwo e).toInt =
    a.toNat + 2 * b.toNat + c.toNat - d.toNat - 2 * e.toNat
  all : (sobelGrad a b c d e f).toInt = gradient a b c d e f
  abs : ((sobelAbs (sobelGrad a b c d e f)).toNat : ℤ) = |gradient a b c d e f|

lemma abs_gradient_le : |gradient a b c d e f| ≤ 4092 := by
  have ha := a.isLt
  have hb := b.isLt
  have hc := c.isLt
  have hd := d.isLt
  have he := e.isLt
  have hf := f.isLt
  rw [gradient, abs_le]
  omega

/-- Twelve bits hold the absolute value. -/
lemma sobelAbs_toNat {s : BitVec 13} (h : |s.toInt| < 4096) :
    ((sobelAbs s).toNat : ℤ) = |s.toInt| := by
  have habs := toNat_abs (x := s) (b := s.getLsbD 12) rfl
  rw [sobelAbs, BitVec.toNat_setWidth]
  omega

theorem gradientExact : GradientExact a b c d e f := by
  have ha := a.isLt
  have hb := b.isLt
  have hc := c.isLt
  have hd := d.isLt
  have he := e.isLt
  have hf := f.isLt
  have h2 := toInt_add_of_fits (sobelOne_toInt a) (sobelTwo_toInt b) (by constructor <;> omega)
  have h3 := toInt_add_of_fits h2 (sobelOne_toInt c) (by constructor <;> omega)
  have h4 := toInt_sub_of_fits h3 (sobelOne_toInt d) (by constructor <;> omega)
  have h5 := toInt_sub_of_fits h4 (sobelTwo_toInt e) (by constructor <;> omega)
  have h6 : (sobelGrad a b c d e f).toInt = gradient a b c d e f := by
    have hall := toInt_sub_of_fits h5 (sobelOne_toInt f) (by constructor <;> omega)
    rw [sobelGrad, hall, gradient]
    omega
  refine ⟨h2, h3, h4, h5, h6, ?_⟩
  have hle := abs_gradient_le a b c d e f
  rw [← h6] at hle ⊢
  exact sobelAbs_toNat (by omega)

end Sobel

section Edge

variable (threshold : BitVec 11) (p : Fin 3 → Fin 3 → BitVec 10)

/-- `Gx` over the integers. -/
def gx : ℤ := gradient (p 0 2) (p 1 2) (p 2 2) (p 0 0) (p 1 0) (p 2 0)

/-- `Gy` over the integers. -/
def gy : ℤ := gradient (p 2 0) (p 2 1) (p 2 2) (p 0 0) (p 0 1) (p 0 2)

/-- `g_sum`. -/
def gSum : BitVec 13 :=
  (sobelAbs (sobelGrad (p 0 2) (p 1 2) (p 2 2) (p 0 0) (p 1 0) (p 2 0))).setWidth 13 +
    (sobelAbs (sobelGrad (p 2 0) (p 2 1) (p 2 2) (p 0 0) (p 0 1) (p 0 2))).setWidth 13

/-- The three outputs of `Sobel_Edge`. -/
def sobelRgb : Rgb10 := ⟨sobelEdge threshold p, sobelEdge threshold p, sobelEdge threshold p⟩

lemma gSum_toNat : ((gSum p).toNat : ℤ) = |gx p| + |gy p| := by
  have hx := (gradientExact (p 0 2) (p 1 2) (p 2 2) (p 0 0) (p 1 0) (p 2 0)).abs
  have hy := (gradientExact (p 2 0) (p 2 1) (p 2 2) (p 0 0) (p 0 1) (p 0 2)).abs
  have hx' : |gx p| ≤ 4092 := abs_gradient_le _ _ _ _ _ _
  have hy' : |gy p| ≤ 4092 := abs_gradient_le _ _ _ _ _ _
  rw [gSum, BitVec.toNat_add, BitVec.toNat_setWidth, BitVec.toNat_setWidth]
  unfold gx at hx' ⊢
  unfold gy at hy' ⊢
  omega

/-- The comparison with the threshold is the one of the integers. -/
lemma sobelEdge_eq :
    sobelEdge threshold p = if (threshold.toNat : ℤ) < |gx p| + |gy p| then 1023 else 0 := by
  have hlt : gSum p > (0 : BitVec 2) ++ threshold ↔ (threshold.toNat : ℤ) < |gx p| + |gy p| := by
    have ht : ((0 : BitVec 2) ++ threshold).toNat = threshold.toNat :=
      toNat_zero_append threshold
    rw [gt_iff_lt, BitVec.lt_def, ht, ← gSum_toNat]
    exact Int.ofNat_lt.symm
  rw [← if_congr hlt rfl rfl]
  rfl

/-- **The edge detector is exact.** No partial sum and no absolute value of the two gradients
wraps, nor does their sum, and the outputs are white where it is above the threshold. -/
structure SobelExact : Prop where
  gx : GradientExact (p 0 2) (p 1 2) (p 2 2) (p 0 0) (p 1 0) (p 2 0)
  gy : GradientExact (p 2 0) (p 2 1) (p 2 2) (p 0 0) (p 0 1) (p 0 2)
  gSum : ((gSum p).toNat : ℤ) = |Image.gx p| + |Image.gy p|
  out : sobelRgb threshold p =
    if (threshold.toNat : ℤ) < |Image.gx p| + |Image.gy p| then ⟨1023, 1023, 1023⟩ else .black

theorem sobelExact : SobelExact threshold p := by
  refine ⟨gradientExact _ _ _ _ _ _, gradientExact _ _ _ _ _ _, gSum_toNat p, ?_⟩
  rw [sobelRgb, sobelEdge_eq]
  split_ifs <;> rfl

/-- What the processor shows in edge mode, for the lumas of its window. -/
theorem sobel_eq (s : VgaImageProcessor) (i : ProcIn) (luma : Fin 3 → Fin 3 → BitVec 10)
    (h : ∀ r c, luma r c = fLuma (s.window i r c).red (s.window i r c).green (s.window i r c).blue) :
    s.sobel i = if 300 < |gx luma| + |gy luma| then 1023 else 0 := by
  have hp : luma = fun r c =>
      fLuma (s.window i r c).red (s.window i r c).green (s.window i r c).blue :=
    funext fun r => funext fun c => h r c
  rw [VgaImageProcessor.sobel, sobelEdge_eq, ← hp]
  rfl

end Edge

/-! ### The sharpened channel -/

section Sharpen

variable (c up down left right : BitVec 10)

lemma sharpenIn_toInt (v : BitVec 10) : (sharpenIn v).toInt = v.toNat :=
  toInt_zero_append (by omega) v

/-- Five times the centre less its neighbours, over the integers. -/
def sharpened : ℤ := 5 * c.toNat - up.toNat - down.toNat - left.toNat - right.toNat

/-- What `sharpen_clamp` computes, operator by operator. -/
structure ClampExact : Prop where
  product : (sharpenIn c * 5).toInt = 5 * c.toNat
  lessUp : (sharpenIn c * 5 - sharpenIn up).toInt = 5 * c.toNat - up.toNat
  lessDown : (sharpenIn c * 5 - sharpenIn up - sharpenIn down).toInt =
    5 * c.toNat - up.toNat - down.toNat
  lessLeft : (sharpenIn c * 5 - sharpenIn up - sharpenIn down - sharpenIn left).toInt =
    5 * c.toNat - up.toNat - down.toNat - left.toNat
  all : (sharpenResult c up down left right).toInt = sharpened c up down left right
  negative : ((sharpenResult c up down left right).signExtend 32).slt 0 = true ↔
    sharpened c up down left right < 0
  above : (1023 : BitVec 14).slt (sharpenResult c up down left right) = true ↔
    1023 < sharpened c up down left right
  out : ((sharpenClamp c up down left right).toNat : ℤ) =
    min 1023 (max 0 (sharpened c up down left right))

theorem clampExact : ClampExact c up down left right := by
  have hc := c.isLt
  have hu := up.isLt
  have hd := down.isLt
  have hl := left.isLt
  have hr := right.isLt
  have h5 : (5 : BitVec 14).toInt = 5 := rfl
  have h1 : (sharpenIn c * 5).toInt = 5 * c.toNat := by
    rw [toInt_mul_of_fits (sharpenIn_toInt c) h5 (by constructor <;> omega), Int.mul_comm]
  have h2 := toInt_sub_of_fits h1 (sharpenIn_toInt up) (by constructor <;> omega)
  have h3 := toInt_sub_of_fits h2 (sharpenIn_toInt down) (by constructor <;> omega)
  have h4 := toInt_sub_of_fits h3 (sharpenIn_toInt left) (by constructor <;> omega)
  have h6 : (sharpenResult c up down left right).toInt = sharpened c up down left right :=
    toInt_sub_of_fits h4 (sharpenIn_toInt right) (by constructor <;> omega)
  have hneg : ((sharpenResult c up down left right).signExtend 32).slt 0 = true ↔
      sharpened c up down left right < 0 := by
    rw [BitVec.slt_iff_toInt_lt, BitVec.toInt_signExtend_of_le (by omega), h6]
    rfl
  have habove : (1023 : BitVec 14).slt (sharpenResult c up down left right) = true ↔
      1023 < sharpened c up down left right := by
    rw [BitVec.slt_iff_toInt_lt, h6]
    rfl
  refine ⟨h1, h2, h3, h4, h6, hneg, habove, ?_⟩
  unfold sharpenClamp
  dsimp only
  split_ifs with hn ha
  · rw [hneg] at hn
    rw [max_eq_left hn.le]
    rfl
  · rw [habove] at ha
    rw [min_eq_left (le_max_of_le_right ha.le)]
    rfl
  · -- the ten bits of the slice are the whole value
    rw [hneg] at hn
    rw [habove] at ha
    rw [max_eq_right (by omega), min_eq_right (by omega), ← h6]
    exact toNat_slice (by omega) (by omega)

lemma sharpenFilter_toNat (p : Fin 3 → Fin 3 → BitVec 10) : ((sharpenFilter p).toNat : ℤ) =
    min 1023 (max 0 (sharpened (p 1 1) (p 0 1) (p 2 1) (p 1 0) (p 1 2))) :=
  (clampExact (p 1 1) (p 0 1) (p 2 1) (p 1 0) (p 1 2)).out

end Sharpen

/-! ### The filter in the processor -/

section Wiring

/-- A channel of the sharpened pixel is computed from the cross of the window in this channel,
and from nothing else. -/
structure ChannelExact (channel : Rgb10 → BitVec 10) (s : VgaImageProcessor) (i : ProcIn) :
    Prop where
  value : ((channel (s.sharpen i)).toNat : ℤ) =
    min 1023 (max 0 (sharpened (channel (s.window i 1 1)) (channel (s.window i 0 1))
      (channel (s.window i 2 1)) (channel (s.window i 1 0)) (channel (s.window i 1 2))))
  alone : ∀ (s' : VgaImageProcessor) (i' : ProcIn),
    (∀ r c, channel (s'.window i' r c) = channel (s.window i r c)) →
      channel (s'.sharpen i') = channel (s.sharpen i)

/-- A channel that the filter is applied to on its own is exact. -/
lemma channelExact {channel : Rgb10 → BitVec 10}
    (h : ∀ (s : VgaImageProcessor) i,
      channel (s.sharpen i) = sharpenFilter fun r c => channel (s.window i r c))
    (s : VgaImageProcessor) (i : ProcIn) : ChannelExact channel s i where
  value := by rw [h, sharpenFilter_toNat]
  alone s' i' hw := by
    have hp : (fun r c => channel (s'.window i' r c)) = fun r c => channel (s.window i r c) :=
      funext fun r => funext fun c => hw r c
    rw [h, h, hp]

/-- **The sharpening filter is exact**, as a function of its five taps and as it is wired to the
window. -/
structure SharpenExact : Prop where
  clamp : ∀ c up down left right, ClampExact c up down left right
  red : ∀ s i, ChannelExact Rgb10.red s i
  green : ∀ s i, ChannelExact Rgb10.green s i
  blue : ∀ s i, ChannelExact Rgb10.blue s i

theorem sharpenExact : SharpenExact where
  clamp := clampExact
  red := channelExact fun s i => by rw [VgaImageProcessor.sharpen]
  green := channelExact fun s i => by rw [VgaImageProcessor.sharpen]
  blue := channelExact fun s i => by rw [VgaImageProcessor.sharpen]

end Wiring

end VideoPipeline.Image

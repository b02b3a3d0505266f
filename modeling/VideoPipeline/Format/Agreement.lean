import VideoPipeline.Format.Convert
import VideoPipeline.Image.Decoder
import VideoPipeline.Read.Words
import Mathlib.Algebra.Order.Group.Abs
import Mathlib.Algebra.Order.Group.Int

/-!
The four parts that know the format of the image agree on it: what `convert.py` writes and
`download_sdram.tcl` loads is what `sdram_read_controller` fetches, word by word in raster order,
and `RGB565_Decoder` gives back the pixels up to the bits that RGB565 has no room for.
-/

namespace VideoPipeline.Format

open VideoPipeline.Lib VideoPipeline.Image VideoPipeline.Read VideoPipeline.Vga

/-! ### The codes as fields -/

section Fields

variable (c : Rgb888) (w : BitVec 16)

lemma rgb565_eq : rgb565 c =
    c.red.extractLsb' 3 5 ++ c.green.extractLsb' 2 6 ++ c.blue.extractLsb' 3 5 := by
  have hr : r5 c = (c.red.extractLsb' 3 5).setWidth 16 := shift_mask c.red 3 5 (by omega)
  have hg : g6 c = (c.green.extractLsb' 2 6).setWidth 16 := shift_mask c.green 2 6 (by omega)
  have hb : b5 c = (c.blue.extractLsb' 3 5).setWidth 16 := shift_mask c.blue 3 5 (by omega)
  have happ : (c.red.extractLsb' 3 5 ++ c.green.extractLsb' 2 6 ++
      c.blue.extractLsb' 3 5).setWidth 16 = _ :=
    BitVec.setWidth_append_append_eq_shiftLeft_setWidth_or
  rw [rgb565, hr, hg, hb]
  rw [BitVec.setWidth_eq] at happ
  exact happ.symm

lemma wR5_append (x : BitVec 5) (y : BitVec 6) (z : BitVec 5) : wR5 (x ++ y ++ z) = x := by
  rw [wR5, BitVec.extractLsb'_append_eq_of_le (by omega)]
  exact BitVec.extractLsb'_append_eq_left

lemma wG6_append (x : BitVec 5) (y : BitVec 6) (z : BitVec 5) : wG6 (x ++ y ++ z) = y := by
  rw [wG6, BitVec.extractLsb'_append_eq_of_le (by omega)]
  exact BitVec.extractLsb'_append_eq_right

lemma wB5_append (x : BitVec 5) (y : BitVec 6) (z : BitVec 5) : wB5 (x ++ y ++ z) = z :=
  BitVec.extractLsb'_append_eq_right

lemma repeat_five (f : BitVec 5) :
    (f.setWidth 16 <<< 5) ||| f.setWidth 16 = (f ++ f).setWidth 16 :=
  BitVec.setWidth_append_eq_shiftLeft_setWidth_or.symm

/-- The decoding of `convert.py` is the one of the hardware. -/
lemma r10_eq : r10 w = (expand w).red.setWidth 16 := by
  have h : (w >>> 11) &&& 0x1F = (wR5 w).setWidth 16 := shift_mask_self w 11 5
  rw [r10, h]
  exact repeat_five (wR5 w)

lemma g10_eq : g10 w = (expand w).green.setWidth 16 := by
  have h : (w >>> 5) &&& 0x3F = (wG6 w).setWidth 16 := shift_mask_self w 5 6
  have happ : (wG6 w ++ (wG6 w).extractLsb' 2 4).setWidth 16 = _ :=
    BitVec.setWidth_append_eq_shiftLeft_setWidth_or
  rw [g10, h, shift_eq _ 2 (by omega)]
  exact happ.symm

lemma b10_eq : b10 w = (expand w).blue.setWidth 16 := by
  have h : w &&& 0x1F = (wB5 w).setWidth 16 := by
    rw [← BitVec.ushiftRight_zero w]
    exact shift_mask_self w 0 5
  rw [b10, h]
  exact repeat_five (wB5 w)

end Fields

/-! ### What the screen gets -/

section Displayed

/-- The channels that leave `VGA_controller` for a word that the decoder, in the state `s`, took
with `SWAP_BYTES = 0`. -/
def displayed (s : Rgb565Decoder) (w : BitVec 16) : Rgb888 :=
  let c := (s.edge false true w).oRgb
  ⟨upper8 c.red, upper8 c.green, upper8 c.blue⟩

/-- No channel is off by more than the bits that RGB565 drops. -/
structure Near (c c' : Rgb888) : Prop where
  red : |(c'.red.toNat : ℤ) - c.red.toNat| ≤ 7
  green : |(c'.green.toNat : ℤ) - c.green.toNat| ≤ 3
  blue : |(c'.blue.toNat : ℤ) - c.blue.toNat| ≤ 7

lemma toNat_upper8_append (f : BitVec 5) : (upper8 (f ++ f)).toNat = 8 * f.toNat + f.toNat / 4 := by
  rw [toNat_upper8, toNat_append_eq]
  omega

lemma toNat_upper8_append_slice (f : BitVec 6) :
    (upper8 (f ++ f.extractLsb' 2 4)).toNat = 4 * f.toNat + f.toNat / 16 := by
  rw [toNat_upper8, toNat_append_eq, toNat_slice_of_lt (s := 2) (k := 4) f.isLt]
  omega

/-- Five bits of eight, repeated, are near the eight. -/
lemma near_upper8_five (x : BitVec 8) :
    |((upper8 (x.extractLsb' 3 5 ++ x.extractLsb' 3 5)).toNat : ℤ) - x.toNat| ≤ 7 := by
  rw [toNat_upper8_append, toNat_slice_of_lt (s := 3) (k := 5) x.isLt, abs_le]
  omega

lemma near_upper8_six (x : BitVec 8) :
    |((upper8 (x.extractLsb' 2 6 ++ (x.extractLsb' 2 6).extractLsb' 2 4)).toNat : ℤ) - x.toNat| ≤
      3 := by
  rw [toNat_upper8_append_slice, toNat_slice_of_lt (s := 2) (k := 6) x.isLt, abs_le]
  omega

variable (s : Rgb565Decoder)

lemma displayed_eq (w : BitVec 16) : displayed s w =
    ⟨upper8 (wR5 w ++ wR5 w), upper8 (wG6 w ++ (wG6 w).extractLsb' 2 4),
      upper8 (wB5 w ++ wB5 w)⟩ := rfl

theorem near_displayed (c : Rgb888) : Near c (displayed s (rgb565 c)) := by
  rw [displayed_eq, rgb565_eq, wR5_append, wG6_append, wB5_append]
  exact ⟨near_upper8_five c.red, near_upper8_six c.green, near_upper8_five c.blue⟩

/-- The code zero is shown as zero. -/
theorem displayed_zero (w : BitVec 16) : (wR5 w = 0 → (displayed s w).red = 0) ∧
    (wG6 w = 0 → (displayed s w).green = 0) ∧ (wB5 w = 0 → (displayed s w).blue = 0) := by
  rw [displayed_eq]
  refine ⟨?_, ?_, ?_⟩ <;> intro h <;> rw [h] <;> rfl

/-- The code of all ones is shown as all ones. -/
theorem displayed_allOnes (w : BitVec 16) :
    (wR5 w = BitVec.allOnes 5 → (displayed s w).red = 255) ∧
      (wG6 w = BitVec.allOnes 6 → (displayed s w).green = 255) ∧
        (wB5 w = BitVec.allOnes 5 → (displayed s w).blue = 255) := by
  rw [displayed_eq]
  refine ⟨?_, ?_, ?_⟩ <;> intro h <;> rw [h] <;> rfl

/-- Encoding what the screen shows gives the word again. -/
theorem rgb565_displayed (w : BitVec 16) : rgb565 (displayed s w) = w := by
  have hr : (displayed s w).red.extractLsb' 3 5 = wR5 w := wR5_of_shown w
  have hg : (displayed s w).green.extractLsb' 2 6 = wG6 w := wG6_of_shown w
  have hb : (displayed s w).blue.extractLsb' 3 5 = wB5 w := wB5_of_shown w
  rw [rgb565_eq, hr, hg, hb]
  exact (word_eq_fields w).symm

end Displayed

/-! ### The four parts together -/

/-- **The parts agree** on the image `img`, loaded over any contents `mem` of the memory. -/
structure Agreement (img : Format.Image) (mem : BitVec 26 → BitVec 8) : Prop where
  /-- The command for `req_cnt = k` fetches the code of the pixel `k`. -/
  fetched : ∀ (k : Fin (480 * 640)) (s : SdramReadController) (i : CtlIn),
    s.issues i = true → s.reqCnt.toNat = k →
      wordAt (load (binFile img) mem) (s.edge i).avmAddress = rgb565 (img.pixel k)
  near : ∀ k s, Near (img.pixel k) (displayed s (rgb565 (img.pixel k)))
  dark : ∀ s w, (wR5 w = 0 → (displayed s w).red = 0) ∧ (wG6 w = 0 → (displayed s w).green = 0) ∧
    (wB5 w = 0 → (displayed s w).blue = 0)
  full : ∀ s w, (wR5 w = BitVec.allOnes 5 → (displayed s w).red = 255) ∧
    (wG6 w = BitVec.allOnes 6 → (displayed s w).green = 255) ∧
      (wB5 w = BitVec.allOnes 5 → (displayed s w).blue = 255)
  again : ∀ s w, rgb565 (displayed s w) = w
  decoded : ∀ (s : Rgb565Decoder) (w : BitVec 16),
    r10 w = (s.edge false true w).oRgb.red.setWidth 16 ∧
      g10 w = (s.edge false true w).oRgb.green.setWidth 16 ∧
        b10 w = (s.edge false true w).oRgb.blue.setWidth 16

theorem agreement (img : Format.Image) (mem : BitVec 26 → BitVec 8) : Agreement img mem where
  fetched k s i hi hk := by
    have hlt := (SdramReadController.issues_iff.1 hi).need
    apply wordAt_load_binFile
    rw [SdramReadController.avmAddress_edge, if_pos hi, toNat_issued hlt, hk]
    rfl
  near k s := near_displayed s _
  dark := displayed_zero
  full := displayed_allOnes
  again := rgb565_displayed
  decoded s w := ⟨r10_eq w, g10_eq w, b10_eq w⟩

end VideoPipeline.Format

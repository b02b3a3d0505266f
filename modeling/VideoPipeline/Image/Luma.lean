import VideoPipeline.Image.Processor
import VideoPipeline.Lib.Machine
import VideoPipeline.Lib.WeightedMean
import Mathlib.Algebra.BigOperators.Fin

/-!
The source has the luma of BT.601 three times: as the function `f_luma` and for `gray_val` in
`VGA_Image_Processor.v`, and in `Grayscale_to_RGB10.v`. Each copy is the weighted mean of the
three channels, rounded down; the weights add up to 256, so that the sum ends where the slice does.
-/

namespace VideoPipeline.Image

open VideoPipeline.Lib VideoPipeline.Vga

/-! ### The mean -/

/-- The luma over the integers. -/
def luma (c : Rgb10) : ℕ := (77 * c.red.toNat + 150 * c.green.toNat + 29 * c.blue.toNat) / 256

/-- The channels as numbers. -/
def channels (c : Rgb10) : Fin 3 → ℕ := ![c.red.toNat, c.green.toNat, c.blue.toNat]

/-- The weights of the channels. -/
def weights : Fin 3 → ℕ := ![77, 150, 29]

lemma sum_weights : ∑ k, weights k = 256 := by decide

lemma weightedSum_channels (c : Rgb10) : weightedSum Finset.univ weights (channels c) =
    77 * c.red.toNat + 150 * c.green.toNat + 29 * c.blue.toNat := by
  rw [weightedSum, Fin.sum_univ_three]
  rfl

lemma luma_eq_weightedMean (c : Rgb10) :
    luma c = weightedMean Finset.univ weights (channels c) := by
  rw [luma, weightedMean, weightedSum_channels, sum_weights]

lemma min_le_luma (c : Rgb10) : min c.red.toNat (min c.green.toNat c.blue.toNat) ≤ luma c := by
  rw [luma_eq_weightedMean]
  refine le_weightedMean (by rw [sum_weights]; omega) ?_
  intro k _
  match k with
  | 0 => exact min_le_left _ _
  | 1 => exact (min_le_right _ _).trans (min_le_left _ _)
  | 2 => exact (min_le_right _ _).trans (min_le_right _ _)

lemma luma_le_max (c : Rgb10) : luma c ≤ max c.red.toNat (max c.green.toNat c.blue.toNat) := by
  rw [luma_eq_weightedMean]
  refine weightedMean_le ?_
  intro k _
  match k with
  | 0 => exact le_max_left _ _
  | 1 => exact (le_max_left _ _).trans (le_max_right _ _)
  | 2 => exact (le_max_right _ _).trans (le_max_right _ _)

lemma luma_grey (v : BitVec 10) : luma ⟨v, v, v⟩ = v.toNat := by
  have hmin := min_le_luma ⟨v, v, v⟩
  have hmax := luma_le_max ⟨v, v, v⟩
  simp only [min_self, max_self] at hmin hmax
  exact le_antisymm hmax hmin

/-- More of a channel is no less light. -/
lemma luma_mono {c c' : Rgb10} (hr : c.red ≤ c'.red) (hg : c.green ≤ c'.green)
    (hb : c.blue ≤ c'.blue) : luma c ≤ luma c' := by
  rw [luma_eq_weightedMean, luma_eq_weightedMean]
  refine weightedMean_mono ?_
  intro k _
  match k with
  | 0 => exact hr
  | 1 => exact hg
  | 2 => exact hb

/-- Eight bits of weight and ten of value: the upper two of the twenty are never reached. -/
lemma lumaFull_lt (c : Rgb10) : (lumaFull c.red c.green c.blue).toNat < 2 ^ (8 + 10) := by
  rw [lumaFull_toNat, ← weightedSum_channels]
  refine weightedSum_lt (by rw [sum_weights]; omega) ?_
  intro k _
  match k with
  | 0 => exact c.red.isLt
  | 1 => exact c.green.isLt
  | 2 => exact c.blue.isLt

/-! ### The copies -/

/-- `luma_full` of `VGA_Image_Processor`, for the centre of the window. -/
def centerLumaFull (c : Rgb10) : BitVec 20 :=
  77 * ((0 : BitVec 10) ++ c.red) + 150 * ((0 : BitVec 10) ++ c.green)
    + 29 * ((0 : BitVec 10) ++ c.blue)

/-- The output registers of `Grayscale_to_RGB10`. -/
structure GrayscaleToRgb10 where
  oRgb : Rgb10
deriving DecidableEq, Repr

namespace GrayscaleToRgb10

def reset : GrayscaleToRgb10 := ⟨.black⟩

/-- `luma_full` of `Grayscale_to_RGB10`. -/
def lumaFull (iRgb : Rgb10) : BitVec 20 :=
  77 * ((0 : BitVec 10) ++ iRgb.red) + 150 * ((0 : BitVec 10) ++ iRgb.green)
    + 29 * ((0 : BitVec 10) ++ iRgb.blue)

/-- `luma` of `Grayscale_to_RGB10`. -/
def luma (iRgb : Rgb10) : BitVec 10 := (lumaFull iRgb).extractLsb' 8 10

/-- One rising edge of `iCLK`. -/
def edge (s : GrayscaleToRgb10) (iValid : Bool) (iRgb : Rgb10) : GrayscaleToRgb10 where
  oRgb := if iValid then ⟨luma iRgb, luma iRgb, luma iRgb⟩ else s.oRgb

end GrayscaleToRgb10

/-- `luma00` to `luma22`, the window that is given to `Sobel_Edge`. -/
def VgaImageProcessor.lumas (s : VgaImageProcessor) (i : ProcIn) (r c : Fin 3) : BitVec 10 :=
  fLuma (s.window i r c).red (s.window i r c).green (s.window i r c).blue

/-- A copy of the formula, with the sum it takes and the ten bits it gives, loses nothing: the
slice is the whole mean, which lies among the channels and moves with each of them. -/
structure LumaCopy (full : Rgb10 → BitVec 20) (out : Rgb10 → BitVec 10) : Prop where
  slice : ∀ c, out c = (full c).extractLsb' 8 10
  sum : ∀ c, (full c).toNat = 77 * c.red.toNat + 150 * c.green.toNat + 29 * c.blue.toNat
  above : ∀ c, (full c).extractLsb' 18 2 = 0
  value : ∀ c, (out c).toNat = luma c
  lower : ∀ c, min c.red.toNat (min c.green.toNat c.blue.toNat) ≤ (out c).toNat
  upper : ∀ c, (out c).toNat ≤ max c.red.toNat (max c.green.toNat c.blue.toNat)
  grey : ∀ v, out ⟨v, v, v⟩ = v
  mono : ∀ c c', c.red ≤ c'.red → c.green ≤ c'.green → c.blue ≤ c'.blue → out c ≤ out c'

/-- What is written as `f_luma` is a copy of it. -/
lemma lumaCopy {full : Rgb10 → BitVec 20} {out : Rgb10 → BitVec 10}
    (hfull : ∀ c, full c = lumaFull c.red c.green c.blue)
    (hout : ∀ c, out c = (full c).extractLsb' 8 10) : LumaCopy full out := by
  have hvalue (c : Rgb10) : (out c).toNat = luma c := by
    rw [hout, hfull]
    exact fLuma_toNat c.red c.green c.blue
  refine ⟨hout, ?_, ?_, hvalue, ?_, ?_, ?_, ?_⟩
  · intro c
    rw [hfull, lumaFull_toNat]
  · intro c
    rw [hfull]
    exact slice_eq_zero_of_lt (lumaFull_lt c)
  · intro c
    rw [hvalue]
    exact min_le_luma c
  · intro c
    rw [hvalue]
    exact luma_le_max c
  · intro v
    apply BitVec.eq_of_toNat_eq
    rw [hvalue, luma_grey]
  · intro c c' hr hg hb
    rw [BitVec.le_def, hvalue, hvalue]
    exact luma_mono hr hg hb

/-! ### The outputs of `Grayscale_to_RGB10` -/

section Grayscale

/-- Its registers after `n` clock edges, for `i_valid` and the channels of every cycle. -/
def grayscaleAt (i : ℕ → Bool × Rgb10) : ℕ → GrayscaleToRgb10 :=
  run (fun s x => s.edge x.1 x.2) .reset i

variable {i : ℕ → Bool × Rgb10} {n : ℕ}

lemma oRgb_grayscaleAt_succ (n : ℕ) : (grayscaleAt i (n + 1)).oRgb = if (i n).1 then
    ⟨GrayscaleToRgb10.luma (i n).2, GrayscaleToRgb10.luma (i n).2,
      GrayscaleToRgb10.luma (i n).2⟩ else (grayscaleAt i n).oRgb := rfl

/-- The outputs are black until the first valid pixel. -/
theorem grayscaleAt_of_none (hno : ∀ k < n, ¬ (i k).1) : (grayscaleAt i n).oRgb = .black :=
  register_of_none (x := fun n => (grayscaleAt i n).oRgb) oRgb_grayscaleAt_succ hno

/-- All three outputs are the luma of the last valid pixel. -/
theorem grayscaleAt_of_last {m : ℕ} (hm : (i m).1) (hmn : m < n)
    (hlast : ∀ k, m < k → k < n → ¬ (i k).1) : channels (grayscaleAt i n).oRgb =
      fun _ => luma (i m).2 := by
  have hreg := register_of_last (x := fun n => (grayscaleAt i n).oRgb) oRgb_grayscaleAt_succ
    hm hmn hlast
  have hluma : (GrayscaleToRgb10.luma (i m).2).toNat = luma (i m).2 := fLuma_toNat _ _ _
  rw [hreg, ← hluma]
  funext k
  match k with
  | 0 | 1 | 2 => rfl

end Grayscale

/-! ### All copies together -/

/-- **No luma loses a bit.** The three copies of the formula are the same mean; the gray outputs
hold that of the last valid pixel, and the edge detector is given that of each pixel of its
window. -/
structure LumaExact : Prop where
  fLuma : LumaCopy (fun c => lumaFull c.red c.green c.blue) fun c => fLuma c.red c.green c.blue
  grayVal : LumaCopy centerLumaFull grayVal
  grayscale : LumaCopy GrayscaleToRgb10.lumaFull GrayscaleToRgb10.luma
  black : ∀ i n, (∀ k < n, ¬ (i k).1) → (grayscaleAt i n).oRgb = .black
  registered : ∀ i m n, (i m).1 → m < n → (∀ k, m < k → k < n → ¬ (i k).1) →
    channels (grayscaleAt i n).oRgb = fun _ => luma (i m).2
  sobel : ∀ (s : VgaImageProcessor) i, s.sobel i = sobelEdge 300 (s.lumas i)
  lumas : ∀ (s : VgaImageProcessor) i r c, (s.lumas i r c).toNat = luma (s.window i r c)

theorem lumaExact : LumaExact where
  fLuma := lumaCopy (fun _ => rfl) fun _ => rfl
  grayVal := lumaCopy (fun _ => rfl) fun _ => rfl
  grayscale := lumaCopy (fun _ => rfl) fun _ => rfl
  black _ _ := grayscaleAt_of_none
  registered _ _ _ := grayscaleAt_of_last
  sobel s i := by
    rw [VgaImageProcessor.sobel]
    rfl
  lumas s i r c := fLuma_toNat _ _ _

end VideoPipeline.Image

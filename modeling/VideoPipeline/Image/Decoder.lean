import VideoPipeline.Lib.Bits
import VideoPipeline.Vga.Controller

/-!
`RGB565_Decoder.v`: a word of the FIFO becomes three channels of ten bits, each widened by
repeating its upper bits, and is registered when it is valid.
-/

namespace VideoPipeline.Image

open VideoPipeline.Lib VideoPipeline.Vga

/-- The word after the optional byte swap. -/
def wRgb (swapBytes : Bool) (iRgb565 : BitVec 16) : BitVec 16 :=
  if swapBytes then iRgb565.extractLsb' 0 8 ++ iRgb565.extractLsb' 8 8 else iRgb565

def wR5 (w : BitVec 16) : BitVec 5 := w.extractLsb' 11 5
def wG6 (w : BitVec 16) : BitVec 6 := w.extractLsb' 5 6
def wB5 (w : BitVec 16) : BitVec 5 := w.extractLsb' 0 5

/-- The ten-bit channels of an RGB565 word: `{R5, R5}`, `{G6, G6[5:2]}` and `{B5, B5}`. -/
def expand (w : BitVec 16) : Rgb10 where
  red := wR5 w ++ wR5 w
  green := wG6 w ++ (wG6 w).extractLsb' 2 4
  blue := wB5 w ++ wB5 w

/-- The registers of `RGB565_Decoder`. -/
structure Rgb565Decoder where
  oRgb : Rgb10
  oValid : Bool
deriving DecidableEq, Repr

namespace Rgb565Decoder

def reset : Rgb565Decoder := ⟨.black, false⟩

/-- One rising edge of `iCLK`. -/
def edge (swapBytes : Bool) (s : Rgb565Decoder) (iValid : Bool) (iRgb565 : BitVec 16) :
    Rgb565Decoder where
  oRgb := if iValid then expand (wRgb swapBytes iRgb565) else s.oRgb
  oValid := iValid

end Rgb565Decoder

/-! ### The eight bits that reach the screen -/

/-- The upper eight bits of a channel, which `VGA_controller` drives out. -/
def upper8 (v : BitVec 10) : BitVec 8 := v.extractLsb' 2 8

/-- The three output channels of a colour. -/
def shown (c : Rgb10) : BitVec 8 × BitVec 8 × BitVec 8 :=
  (upper8 c.red, upper8 c.green, upper8 c.blue)

lemma toNat_upper8 (v : BitVec 10) : (upper8 v).toNat = v.toNat / 4 :=
  toNat_slice_of_lt (s := 2) (k := 8) v.isLt

/-- A slice of the upper eight bits is a slice of the channel, two places up. -/
lemma slice_upper8 (v : BitVec 10) {j k : ℕ} (h : j + k ≤ 8) :
    (upper8 v).extractLsb' j k = v.extractLsb' (2 + j) k := by
  apply BitVec.eq_of_getLsbD_eq
  intro i hi
  simp [upper8, hi, show j + i < 8 by omega, Nat.add_assoc]

lemma wR5_of_shown (w : BitVec 16) : (upper8 (expand w).red).extractLsb' 3 5 = wR5 w := by
  rw [slice_upper8 _ (by omega)]
  exact BitVec.extractLsb'_append_eq_left

lemma wG6_of_shown (w : BitVec 16) : (upper8 (expand w).green).extractLsb' 2 6 = wG6 w := by
  rw [slice_upper8 _ (by omega)]
  exact BitVec.extractLsb'_append_eq_left

lemma wB5_of_shown (w : BitVec 16) : (upper8 (expand w).blue).extractLsb' 3 5 = wB5 w := by
  rw [slice_upper8 _ (by omega)]
  exact BitVec.extractLsb'_append_eq_left

lemma word_eq_fields (w : BitVec 16) : w = wR5 w ++ wG6 w ++ wB5 w := by
  apply BitVec.eq_of_getLsbD_eq
  intro i hi
  simp only [wR5, wG6, wB5, BitVec.getLsbD_append, BitVec.getLsbD_extractLsb']
  split
  · simp; omega
  · split
    · simp [show i - 5 < 6 by omega, show 5 + (i - 5) = i by omega]
    · simp [show i - 5 - 6 < 5 by omega, show 11 + (i - 5 - 6) = i by omega]

/-- **No two words look alike.** The eight-bit channels determine the RGB565 word. -/
theorem shown_expand_injective : Function.Injective fun w => shown (expand w) := by
  intro v w h
  simp only [shown, Prod.mk.injEq] at h
  obtain ⟨hr, hg, hb⟩ := h
  rw [word_eq_fields v, word_eq_fields w, ← wR5_of_shown v, ← wG6_of_shown v, ← wB5_of_shown v,
    hr, hg, hb, wR5_of_shown, wG6_of_shown, wB5_of_shown]

end VideoPipeline.Image

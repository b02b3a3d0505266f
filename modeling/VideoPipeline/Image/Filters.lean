import VideoPipeline.Image.Decoder
import VideoPipeline.Image.LineBuffer
import VideoPipeline.Lib.Bits

/-!
The combinational pixel operations of the image processor: the luma of BT.601, the edge
detector `Sobel_Edge.v` and the sharpening filter `Sharpen_Filter.v`. Every sum is taken in the
width, and with the sign, that Verilog gives it.
-/

namespace VideoPipeline.Image

open VideoPipeline.Lib VideoPipeline.Vga

/-! ### Luma -/

/-- `77 R + 150 G + 29 B` in twenty bits. -/
def lumaFull (r g b : BitVec 10) : BitVec 20 :=
  77 * ((0 : BitVec 10) ++ r) + 150 * ((0 : BitVec 10) ++ g) + 29 * ((0 : BitVec 10) ++ b)

/-- The function `f_luma` of `VGA_Image_Processor`: bits `[17:8]` of the sum. -/
def fLuma (r g b : BitVec 10) : BitVec 10 := (lumaFull r g b).extractLsb' 8 10

/-- A channel times a weight of ten bits needs no more than the twenty of the product. -/
lemma weigh_toNat (k : BitVec 20) (hk : k.toNat ≤ 1024) (v : BitVec 10) :
    (k * ((0 : BitVec 10) ++ v)).toNat = k.toNat * v.toNat := by
  have hle : k.toNat * v.toNat ≤ 1024 * v.toNat := Nat.mul_le_mul_right _ hk
  have hv := v.isLt
  rw [BitVec.toNat_mul, toNat_zero_append, Nat.mod_eq_of_lt (by omega)]

/-- Neither a product nor a partial sum wraps. -/
lemma lumaFull_toNat (r g b : BitVec 10) :
    (lumaFull r g b).toNat = 77 * r.toNat + 150 * g.toNat + 29 * b.toNat := by
  have hr := r.isLt
  have hg := g.isLt
  have hb := b.isLt
  have h77 : 77 * r.toNat = _ := (weigh_toNat 77 (by decide) r).symm
  have h150 : 150 * g.toNat = _ := (weigh_toNat 150 (by decide) g).symm
  have h29 : 29 * b.toNat = _ := (weigh_toNat 29 (by decide) b).symm
  rw [lumaFull, BitVec.toNat_add, BitVec.toNat_add, ← h77, ← h150, ← h29]
  omega

/-- The sum needs eighteen bits, and the slice drops none of them. -/
theorem fLuma_toNat (r g b : BitVec 10) :
    (fLuma r g b).toNat = (77 * r.toNat + 150 * g.toNat + 29 * b.toNat) / 256 := by
  have hr := r.isLt
  have hg := g.isLt
  have hb := b.isLt
  rw [fLuma, toNat_slice_of_lt (by rw [lumaFull_toNat]; omega), lumaFull_toNat]
  rfl

/-! ### Sobel -/

/-- `$signed({1'b0, p})` in the thirteen bits of the gradient. -/
def sobelOne (p : BitVec 10) : BitVec 13 := ((0 : BitVec 1) ++ p).signExtend 13

/-- `$signed({1'b0, p, 1'b0})` in the thirteen bits of the gradient. -/
def sobelTwo (p : BitVec 10) : BitVec 13 := ((0 : BitVec 1) ++ p ++ (0 : BitVec 1)).signExtend 13

/-- The gradient towards `(a, b, c)` and away from `(d, e, f)`, the middle taps counting twice. -/
def sobelGrad (a b c d e f : BitVec 10) : BitVec 13 :=
  sobelOne a + sobelTwo b + sobelOne c - sobelOne d - sobelTwo e - sobelOne f

/-- `s[12] ? (~s + 1'b1) : s`, cut to twelve bits. -/
def sobelAbs (s : BitVec 13) : BitVec 12 :=
  (if s.getLsbD 12 then ~~~s + 1 else s).setWidth 12

/-- `edge_val` of `Sobel_Edge`, which drives all three outputs, for the window `p` of lumas. -/
def sobelEdge (threshold : BitVec 11) (p : Fin 3 → Fin 3 → BitVec 10) : BitVec 10 :=
  let sGx := sobelGrad (p 0 2) (p 1 2) (p 2 2) (p 0 0) (p 1 0) (p 2 0)
  let sGy := sobelGrad (p 2 0) (p 2 1) (p 2 2) (p 0 0) (p 0 1) (p 0 2)
  let gSum : BitVec 13 := (sobelAbs sGx).setWidth 13 + (sobelAbs sGy).setWidth 13
  if gSum > (0 : BitVec 2) ++ threshold then 1023 else 0

/-! ### Sharpen -/

/-- `$signed({4'b0, v})`. -/
def sharpenIn (v : BitVec 10) : BitVec 14 := (0 : BitVec 4) ++ v

/-- `s_result` of `sharpen_clamp`: five times the centre less its four neighbours. -/
def sharpenResult (c up down left right : BitVec 10) : BitVec 14 :=
  sharpenIn c * 5 - sharpenIn up - sharpenIn down - sharpenIn left - sharpenIn right

/-- The function `sharpen_clamp`. Its first comparison is in the 32 bits of the literal `0`. -/
def sharpenClamp (c up down left right : BitVec 10) : BitVec 10 :=
  let s := sharpenResult c up down left right
  if (s.signExtend 32).slt 0 then 0
  else if (1023 : BitVec 14).slt s then 1023
  else s.extractLsb' 0 10

/-- One output of `Sharpen_Filter`, for the window `p` of its channel. -/
def sharpenFilter (p : Fin 3 → Fin 3 → BitVec 10) : BitVec 10 :=
  sharpenClamp (p 1 1) (p 0 1) (p 2 1) (p 1 0) (p 1 2)

end VideoPipeline.Image

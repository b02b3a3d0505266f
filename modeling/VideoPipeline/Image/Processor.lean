import VideoPipeline.Image.Filters
import VideoPipeline.Image.LineBuffer

/-!
`VGA_Image_Processor.v`: the three channels of a pixel travel as one word through the line
buffer, and the operation that the mode selects is applied to the window and registered.
-/

namespace VideoPipeline.Image

open VideoPipeline.Vga

/-! ### Pixels as words of the line buffer -/

/-- `rgb_in`: the three channels as one word. -/
def rgbIn (c : Rgb10) : BitVec 30 := c.red ++ c.green ++ c.blue

/-- The channels of a word of the window. -/
def split (w : BitVec 30) : Rgb10 where
  red := w.extractLsb' 20 10
  green := w.extractLsb' 10 10
  blue := w.extractLsb' 0 10

lemma split_rgbIn (c : Rgb10) : split (rgbIn c) = c := by
  obtain ⟨r, g, b⟩ := c
  unfold split rgbIn
  congr 1
  · rw [BitVec.extractLsb'_append_eq_of_le (by omega),
      BitVec.extractLsb'_append_eq_of_le (by omega)]
    exact BitVec.extractLsb'_eq_self
  · rw [BitVec.extractLsb'_append_eq_of_le (by omega)]
    exact BitVec.extractLsb'_append_eq_right
  · exact BitVec.extractLsb'_append_eq_right

lemma rgbIn_injective : Function.Injective rgbIn :=
  Function.LeftInverse.injective split_rgbIn

/-- `gray_val`: the luma of the centre of the window. -/
def grayVal (c : Rgb10) : BitVec 10 := fLuma c.red c.green c.blue

/-! ### The processor -/

/-- What `VGA_Image_Processor` reads in one cycle. -/
structure ProcIn where
  iMode : BitVec 2
  iValid : Bool
  iX : BitVec 11
  iY : BitVec 11
  iRgb : Rgb10
deriving DecidableEq, Repr

/-- What the line buffer is given. -/
def ProcIn.lineIn (i : ProcIn) : LineIn 30 := ⟨i.iValid, i.iX, i.iY, rgbIn i.iRgb⟩

/-- The state of `VGA_Image_Processor`. -/
structure VgaImageProcessor where
  uLineBuf : LineBuffer 30
  oRgb : Rgb10
  oValid : Bool

namespace VgaImageProcessor

def reset (m : LineInit 30) : VgaImageProcessor := ⟨.reset m, .black, false⟩

variable (s : VgaImageProcessor) (i : ProcIn)

/-- The pixel under the tap `w_rc`. -/
def window (r c : Fin 3) : Rgb10 := split (s.uLineBuf.tap i.lineIn r c)

def sobel : BitVec 10 :=
  sobelEdge 300 fun r c => fLuma (s.window i r c).red (s.window i r c).green (s.window i r c).blue

def sharpen : Rgb10 where
  red := sharpenFilter fun r c => (s.window i r c).red
  green := sharpenFilter fun r c => (s.window i r c).green
  blue := sharpenFilter fun r c => (s.window i r c).blue

/-- The multiplexer in front of the output register. -/
def select : Rgb10 :=
  let center := s.window i 1 1
  if i.iMode = 0b00 then center
  else if i.iMode = 0b01 then ⟨grayVal center, grayVal center, grayVal center⟩
  else if i.iMode = 0b10 then
    if s.uLineBuf.oEdgePixel then .black else ⟨s.sobel i, s.sobel i, s.sobel i⟩
  else if s.uLineBuf.oEdgePixel then center else s.sharpen i

/-- One rising edge of `iCLK`. -/
def edge : VgaImageProcessor where
  uLineBuf := s.uLineBuf.edge 640 i.lineIn
  oRgb := s.select i
  oValid := s.uLineBuf.oValid

end VgaImageProcessor

end VideoPipeline.Image

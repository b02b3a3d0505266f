import VideoPipeline.Lib.Machine
import VideoPipeline.Lib.DelayLine

/-!
`line_buffer3x3.v`: two line memories, the registers behind their read ports, two shift registers
a row, and the coordinates delayed by two clocks that decide which windows touch the border.
The memories and their output registers have no reset, so a run starts from any contents of them.
-/

namespace VideoPipeline.Image

open VideoPipeline.Lib

/-- The window has rows and columns to name by literals. -/
instance neZeroThree : NeZero 3 := ⟨by decide⟩

/-- What `line_buffer3x3` reads in one cycle. -/
structure LineIn (W : ℕ) where
  iValid : Bool
  iX : BitVec 11
  iY : BitVec 11
  iData : BitVec W
deriving DecidableEq, Repr

/-- `addr_x`: the ten bits of `i_x` that address the line memories. -/
def LineIn.addrX {W : ℕ} (i : LineIn W) : BitVec 10 := i.iX.setWidth 10

/-- The state of `line_buffer3x3`. -/
structure LineBuffer (W : ℕ) where
  lb0Mem : BitVec 10 → BitVec W
  lb0Q : BitVec W
  lb1Mem : BitVec 10 → BitVec W
  lb1Q : BitVec W
  row0D1 : BitVec W
  row0D2 : BitVec W
  row1D1 : BitVec W
  row1D2 : BitVec W
  row2D1 : BitVec W
  row2D2 : BitVec W
  validPipe : BitVec 2
  xPipe1 : BitVec 11
  xPipe2 : BitVec 11
  yPipe1 : BitVec 11
  yPipe2 : BitVec 11

/-- What reset leaves alone: the two memories and their output registers. -/
structure LineInit (W : ℕ) where
  lb0Mem : BitVec 10 → BitVec W
  lb0Q : BitVec W
  lb1Mem : BitVec 10 → BitVec W
  lb1Q : BitVec W

/-- Memories full of zeros. -/
def blankInit (W : ℕ) : LineInit W := ⟨fun _ => 0, 0, fun _ => 0, 0⟩

/-- A write to a memory of `imgW` words; beyond them it does nothing. -/
def store {W : ℕ} (imgW : ℕ) (m : BitVec 10 → BitVec W) (a : BitVec 10) (v : BitVec W) :
    BitVec 10 → BitVec W :=
  if a.toNat < imgW then Function.update m a v else m

namespace LineBuffer

variable {W : ℕ}

/-- The state that `iRST_N = 0` leaves, over what the memories happen to hold. -/
def reset (m : LineInit W) : LineBuffer W where
  lb0Mem := m.lb0Mem
  lb0Q := m.lb0Q
  lb1Mem := m.lb1Mem
  lb1Q := m.lb1Q
  row0D1 := 0
  row0D2 := 0
  row1D1 := 0
  row1D2 := 0
  row2D1 := 0
  row2D2 := 0
  validPipe := 0
  xPipe1 := 0
  xPipe2 := 0
  yPipe1 := 0
  yPipe2 := 0

/-- The tap `p_rc` of the window in a cycle. -/
def tap (s : LineBuffer W) (i : LineIn W) : Fin 3 → Fin 3 → BitVec W
  | 0, 0 => s.row2D2
  | 0, 1 => s.row2D1
  | 0, 2 => s.lb1Q
  | 1, 0 => s.row1D2
  | 1, 1 => s.row1D1
  | 1, 2 => s.lb0Q
  | 2, 0 => s.row0D2
  | 2, 1 => s.row0D1
  | 2, 2 => i.iData

def oValid (s : LineBuffer W) : Bool := s.validPipe.getLsbD 1

/-- `o_edge_pixel`: the delayed coordinates lie in the first two columns or rows. -/
def oEdgePixel (s : LineBuffer W) : Bool := decide (s.xPipe2 < 2) || decide (s.yPipe2 < 2)

/-- One rising edge of `iCLK`. The memories are read before they are written. -/
def edge (imgW : ℕ) (s : LineBuffer W) (i : LineIn W) : LineBuffer W where
  lb0Mem := if i.iValid then store imgW s.lb0Mem i.addrX i.iData else s.lb0Mem
  lb0Q := if i.iValid then s.lb0Mem i.addrX else s.lb0Q
  lb1Mem := if i.iValid then store imgW s.lb1Mem i.addrX s.lb0Q else s.lb1Mem
  lb1Q := if i.iValid then s.lb1Mem i.addrX else s.lb1Q
  row0D1 := if i.iValid then i.iData else s.row0D1
  row0D2 := if i.iValid then s.row0D1 else s.row0D2
  row1D1 := if i.iValid then s.lb0Q else s.row1D1
  row1D2 := if i.iValid then s.row1D1 else s.row1D2
  row2D1 := if i.iValid then s.lb1Q else s.row2D1
  row2D2 := if i.iValid then s.row2D1 else s.row2D2
  validPipe := s.validPipe.shiftConcat i.iValid
  xPipe1 := i.iX
  xPipe2 := s.xPipe1
  yPipe1 := i.iY
  yPipe2 := s.yPipe1

end LineBuffer

/-- The line buffer `n` edges after reset. -/
def bufferAt {W : ℕ} (imgW : ℕ) (m : LineInit W) (inp : ℕ → LineIn W) : ℕ → LineBuffer W :=
  run (fun s i => s.edge imgW i) (.reset m) inp

/-! ### The delayed signals -/

section Pipes

variable {W imgW : ℕ} {m : LineInit W} {inp : ℕ → LineIn W}

lemma bufferAt_succ (n : ℕ) :
    bufferAt imgW m inp (n + 1) = (bufferAt imgW m inp n).edge imgW (inp n) := rfl

/-- `o_valid` is `i_valid` two clocks ago. -/
theorem oValid_bufferAt (n : ℕ) : (bufferAt imgW m inp (n + 2)).oValid = (inp n).iValid :=
  shift_bit (p := fun n => (bufferAt imgW m inp n).validPipe) (fun _ => rfl) (by omega : 1 < 2) n

theorem oValid_bufferAt_init {n : ℕ} (h : n < 2) : (bufferAt imgW m inp n).oValid = false := by
  have := shift_bit_init (p := fun n => (bufferAt imgW m inp n).validPipe) (fun _ => rfl)
    (by omega : 1 < 2) (show n ≤ 1 by omega)
  rw [LineBuffer.oValid, this]
  exact BitVec.getLsbD_zero

lemma xPipe2_bufferAt (n : ℕ) : (bufferAt imgW m inp (n + 2)).xPipe2 = (inp n).iX := rfl

lemma yPipe2_bufferAt (n : ℕ) : (bufferAt imgW m inp (n + 2)).yPipe2 = (inp n).iY := rfl

lemma xPipe2_bufferAt_init {n : ℕ} (h : n < 2) : (bufferAt imgW m inp n).xPipe2 = 0 := by
  rcases (by omega : n = 0 ∨ n = 1) with rfl | rfl <;> rfl

end Pipes

end VideoPipeline.Image

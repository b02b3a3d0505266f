import VideoPipeline.Lib.Machine

/-!
`VGA_controller.v`: the two scan counters, the sync and blanking signals with their five-stage
pipes, and the output register. The parameters are those of the source; the blanking and total
values are derived from them, in eleven bits, as the source derives them.
-/

namespace VideoPipeline.Vga

open VideoPipeline.Lib

/-- Three colour channels of ten bits each, the form in which pixels travel on the 25 MHz side. -/
structure Rgb10 where
  red : BitVec 10
  green : BitVec 10
  blue : BitVec 10
deriving DecidableEq, Repr

/-- Black, to which every colour register is reset. -/
def Rgb10.black : Rgb10 := ⟨0, 0, 0⟩

/-- The parameters of `VGA_controller` that are not derived from others. -/
structure Params where
  hFront : BitVec 11
  hSync : BitVec 11
  hBack : BitVec 11
  hAct : BitVec 11
  vFront : BitVec 11
  vSync : BitVec 11
  vBack : BitVec 11
  vAct : BitVec 11
deriving DecidableEq, Repr

namespace Params

def hBlank (p : Params) : BitVec 11 := p.hFront + p.hSync + p.hBack
def hTotal (p : Params) : BitVec 11 := p.hBlank + p.hAct
def vBlank (p : Params) : BitVec 11 := p.vFront + p.vSync + p.vBack
def vTotal (p : Params) : BitVec 11 := p.vBlank + p.vAct

/-- The defaults of the source: 640x480 at 60 Hz. -/
def std : Params where
  hFront := 16
  hSync := 96
  hBack := 48
  hAct := 640
  vFront := 10
  vSync := 2
  vBack := 33
  vAct := 480

end Params

/-- The registers of `VGA_controller`. -/
structure VgaController where
  hCont : BitVec 11
  vCont : BitVec 11
  vgaHsPipe : BitVec 5
  vgaVsPipe : BitVec 5
  vgaBlankPipe : BitVec 5
  vgaRgb : Rgb10
  oVgaHs : Bool
  oVgaVs : Bool
  oVgaBlank : Bool
deriving DecidableEq, Repr

namespace VgaController

/-- What `iRST_N = 0` sets. -/
def reset : VgaController where
  hCont := 0
  vCont := 0
  vgaHsPipe := 0b11111
  vgaVsPipe := 0b11111
  vgaBlankPipe := 0b00000
  vgaRgb := .black
  oVgaHs := true
  oVgaVs := true
  oVgaBlank := false

variable (p : Params) (s : VgaController)

/-! ### The signals of one cycle -/

def cHs : Bool := !(decide (p.hFront ≤ s.hCont) && decide (s.hCont < p.hFront + p.hSync))
def cVs : Bool := !(decide (p.vFront ≤ s.vCont) && decide (s.vCont < p.vFront + p.vSync))
def cBlank : Bool := decide (p.hBlank ≤ s.hCont) && decide (p.vBlank ≤ s.vCont)

def oCurrentX : BitVec 11 := if p.hBlank ≤ s.hCont then s.hCont - p.hBlank else 0
def oCurrentY : BitVec 11 := if p.vBlank ≤ s.vCont then s.vCont - p.vBlank else 0

def oAddress : BitVec 22 := (s.oCurrentY p).setWidth 22 * 640 + (s.oCurrentX p).setWidth 22

def oRequest : Bool := decide (p.hBlank ≤ s.hCont) && decide (p.vBlank ≤ s.vCont)

def oVgaR : BitVec 8 := s.vgaRgb.red.extractLsb' 2 8
def oVgaG : BitVec 8 := s.vgaRgb.green.extractLsb' 2 8
def oVgaB : BitVec 8 := s.vgaRgb.blue.extractLsb' 2 8

/-! ### The clock edge -/

/-- One rising edge of `iCLK`, with `iRed`, `iGreen` and `iBlue` at the edge. -/
def edge (i : Rgb10) : VgaController where
  hCont := if s.hCont < p.hTotal - 1 then s.hCont + 1 else 0
  vCont :=
    if s.hCont < p.hTotal - 1 then s.vCont
    else if s.vCont < p.vTotal - 1 then s.vCont + 1 else 0
  vgaHsPipe := s.vgaHsPipe.shiftConcat (s.cHs p)
  vgaVsPipe := s.vgaVsPipe.shiftConcat (s.cVs p)
  vgaBlankPipe := s.vgaBlankPipe.shiftConcat (s.cBlank p)
  vgaRgb := if s.vgaBlankPipe.getLsbD 4 then i else .black
  oVgaHs := s.vgaHsPipe.getLsbD 4
  oVgaVs := s.vgaVsPipe.getLsbD 4
  oVgaBlank := s.vgaBlankPipe.getLsbD 4

end VgaController

/-- The controller `n` edges after reset, the colours `i m` being presented at edge `m`. -/
def scan (p : Params) (i : ℕ → Rgb10) : ℕ → VgaController :=
  run (fun s c => s.edge p c) .reset i

/-! ### The counters -/

section Counters

variable {p : Params} {i : ℕ → Rgb10}

lemma scan_succ (n : ℕ) : scan p i (n + 1) = (scan p i n).edge p (i n) := rfl

/-- The horizontal counter is the time within a line. -/
theorem hCont_scan (hH : 0 < p.hTotal.toNat) (n : ℕ) :
    (scan p i n).hCont.toNat = n % p.hTotal.toNat := by
  induction n with
  | zero => simp [scan, VgaController.reset]
  | succ n ih => exact wrap_toNat hH ih

/-- The vertical counter is the line within a frame. -/
theorem vCont_scan (hH : 0 < p.hTotal.toNat) (hV : 0 < p.vTotal.toNat) (n : ℕ) :
    (scan p i n).vCont.toNat = n / p.hTotal.toNat % p.vTotal.toNat := by
  induction n with
  | zero => simp [scan, VgaController.reset]
  | succ n ih =>
    have hlt : n % p.hTotal.toNat < p.hTotal.toNat := Nat.mod_lt _ hH
    have hlast := wrap_lt_last hH (hCont_scan (i := i) hH n)
    rw [scan_succ, VgaController.edge]
    by_cases h : n % p.hTotal.toNat + 1 < p.hTotal.toNat
    · simp only [hlast, h, if_true, succ_div_of_lt h, ih]
    · simp only [hlast, h, if_false, succ_div_of_last (show n % p.hTotal.toNat + 1 = _ by omega)]
      exact wrap_toNat hV ih

end Counters

/-! ### The pipes -/

section Pipes

variable {p : Params} {i : ℕ → Rgb10}

/-- As long as nothing has reached the last stage of a pipe, it holds what reset put into it. -/
lemma pipe_init {q : ℕ → BitVec 5} {c : ℕ → Bool} {b : Bool} {n : ℕ}
    (h : ∀ n, q (n + 1) = (q n).shiftConcat (c n)) (h₀ : ∀ j < 5, (q 0).getLsbD j = b)
    (hn : n ≤ 4) : (q n).getLsbD 4 = b := by
  rw [shift_bit_init h (by omega) hn]
  exact h₀ _ (by omega)

/-- The horizontal sync reaches its output six edges after the counters. -/
theorem oVgaHs_scan (n : ℕ) : (scan p i (n + 6)).oVgaHs = (scan p i n).cHs p :=
  shift_bit (p := fun n => (scan p i n).vgaHsPipe) (fun _ => rfl) (by omega : 4 < 5) n

theorem oVgaHs_scan_init {n : ℕ} (h : n < 6) : (scan p i n).oVgaHs = true := by
  cases n with
  | zero => rfl
  | succ n =>
    exact pipe_init (q := fun n => (scan p i n).vgaHsPipe) (fun _ => rfl)
      (by decide : ∀ j < 5, BitVec.getLsbD 31#5 j = true) (by omega)

/-- The vertical sync reaches its output six edges after the counters. -/
theorem oVgaVs_scan (n : ℕ) : (scan p i (n + 6)).oVgaVs = (scan p i n).cVs p :=
  shift_bit (p := fun n => (scan p i n).vgaVsPipe) (fun _ => rfl) (by omega : 4 < 5) n

theorem oVgaVs_scan_init {n : ℕ} (h : n < 6) : (scan p i n).oVgaVs = true := by
  cases n with
  | zero => rfl
  | succ n =>
    exact pipe_init (q := fun n => (scan p i n).vgaVsPipe) (fun _ => rfl)
      (by decide : ∀ j < 5, BitVec.getLsbD 31#5 j = true) (by omega)

/-- The blanking signal reaches its output six edges after the counters. -/
theorem oVgaBlank_scan (n : ℕ) : (scan p i (n + 6)).oVgaBlank = (scan p i n).cBlank p :=
  shift_bit (p := fun n => (scan p i n).vgaBlankPipe) (fun _ => rfl) (by omega : 4 < 5) n

theorem oVgaBlank_scan_init {n : ℕ} (h : n < 6) : (scan p i n).oVgaBlank = false := by
  cases n with
  | zero => rfl
  | succ n =>
    exact pipe_init (q := fun n => (scan p i n).vgaBlankPipe) (fun _ => rfl)
      (by decide : ∀ j < 5, BitVec.getLsbD 0#5 j = false) (by omega)

/-- While the picture is shown, the output register holds the colours of the edge before. -/
theorem vgaRgb_scan {n : ℕ} (h : (scan p i (n + 1)).oVgaBlank = true) :
    (scan p i (n + 1)).vgaRgb = i n := by
  rw [scan_succ] at h ⊢
  exact if_pos h

end Pipes

end VideoPipeline.Vga

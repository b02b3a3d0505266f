import VideoPipeline.Lib.TwoClock
import VideoPipeline.Pixel.Pipeline
import VideoPipeline.Read.Path

/-!
`doan_top.v`: the read path in the 50 MHz domain, the pixel pipeline in the 25 MHz domain, the
FIFO between them, the edge detector that tells the controller of the end of a frame, and the
logic that clears the FIFO then. The vendor parts are left open: the bus waits and answers at
will, in order, and the two flags of the FIFO report what the environment lets them report.
-/

namespace VideoPipeline.Top

open VideoPipeline.Lib VideoPipeline.Vga VideoPipeline.Image VideoPipeline.Pixel VideoPipeline.Read

/-- The registers of `doan_top` and of what it instantiates. -/
structure DoanTop where
  path : ReadPath
  vsSync : BitVec 2
  fifoClrSync : BitVec 2
  fifoAclr : Bool
  fifoClrCnt : BitVec 4
  pipe : Pipeline

/-- What one edge of `clk_50m_sys` brings from outside. -/
structure SysIn where
  pioImgLoaded : Bool
  rDmaWaitrequest : Bool
  /-- the bus answers the oldest unanswered read -/
  respond : Bool
  vgaFifoWrusedw : BitVec 11
deriving DecidableEq, Repr

/-- What one edge of `clk_25m_vga` brings from outside. -/
structure VgaIn where
  /-- the read side of the FIFO does not see its words yet -/
  rdemptyLags : Bool
  sw : BitVec 2
deriving DecidableEq, Repr

namespace DoanTop

/-- What `rst_n = 0` sets; the line memories hold `m`. -/
def reset (m : LineInit 30) : DoanTop where
  path := .reset
  vsSync := 0b11
  fifoClrSync := 0
  fifoAclr := true
  fifoClrCnt := 0
  pipe := .reset m

variable (s : DoanTop)

/-- `VGA_VS`. -/
def vgaVs : Bool := s.pipe.uVga.oVgaVs

/-- `vga_req`. -/
def vgaReq : Bool := s.pipe.uVga.oRequest .std

def oAddress : BitVec 22 := s.pipe.uVga.oAddress .std

def vgaFrameDone : Bool := !s.vsSync.getLsbD 1 && s.vsSync.getLsbD 0

/-! ### The 50 MHz domain -/

def pathIn (mem : BitVec 25 → BitVec 16) (i : SysIn) : PathIn where
  pioImgLoaded := i.pioImgLoaded
  vgaFrameDone := s.vgaFrameDone
  avmWaitrequest := i.rDmaWaitrequest
  answer := if i.respond then some 0 else none
  mem := mem
  fifoWrusedw := i.vgaFifoWrusedw

/-- What the read controller reads. -/
def ctlIn (mem : BitVec 25 → BitVec 16) (i : SysIn) : CtlIn := s.path.ctlIn (s.pathIn mem i)

/-- One rising edge of `clk_50m_sys`. -/
def edge50 (mem : BitVec 25 → BitVec 16) (i : SysIn) : DoanTop :=
  { s with
    vsSync := s.vsSync.shiftConcat s.vgaVs
    path := s.path.edge (s.pathIn mem i) s.fifoAclr }

lemma vsSync_edge50 (mem : BitVec 25 → BitVec 16) (i : SysIn) :
    (s.edge50 mem i).vsSync = s.vsSync.shiftConcat s.vgaVs := rfl

lemma vgaDoneSync_edge50 (mem : BitVec 25 → BitVec 16) (i : SysIn) :
    (s.edge50 mem i).path.ctl.vgaDoneSync =
      s.path.ctl.vgaDoneSync.shiftConcat s.vgaFrameDone :=
  SdramReadController.vgaDoneSync_edge _ _

/-! ### The 25 MHz domain -/

def pipeIn (v : VgaIn) : PipeIn where
  vgaFifoQ := s.path.fifo.headD 0
  vgaFifoRdempty := s.path.fifo.isEmpty || v.rdemptyLags
  fifoAclr := s.fifoAclr
  sw := v.sw

def vgaFifoRdreq (v : VgaIn) : Bool := s.pipe.vgaFifoRdreq (s.pipeIn v)

/-- The condition that starts a flush. -/
def clrStart : Bool := s.fifoClrSync.getLsbD 1 && !s.fifoClrSync.getLsbD 0

def nextAclr : Bool := s.clrStart || decide (s.fifoClrCnt ≠ 0)

/-- One rising edge of `clk_25m_vga`. The clear acts on the FIFO as soon as it is raised. -/
def edge25 (v : VgaIn) : DoanTop where
  path :=
    { s.path with
      fifo :=
        if s.nextAclr then []
        else if s.vgaFifoRdreq v then s.path.fifo.tail else s.path.fifo }
  vsSync := s.vsSync
  fifoClrSync := s.fifoClrSync.shiftConcat s.vgaFrameDone
  fifoAclr := s.nextAclr
  fifoClrCnt :=
    if s.clrStart then 8 else if s.fifoClrCnt ≠ 0 then s.fifoClrCnt - 1 else s.fifoClrCnt
  pipe := s.pipe.edge (s.pipeIn v)

end DoanTop

/-- A run from reset: the contents of the memories, the edges of `clk_50m_sys` that fall in each
cycle of `clk_25m_vga`, and the inputs of all edges. -/
structure Run where
  m : LineInit 30
  mem : BitVec 25 → BitVec 16
  burst : ℕ → List SysIn
  vga : ℕ → VgaIn

namespace Run

/-- The run as one of two clocks. -/
def clocks (r : Run) : TwoClock DoanTop SysIn VgaIn where
  fast s i := s.edge50 r.mem i
  slow s v := s.edge25 v
  init := .reset r.m
  burst := r.burst
  inp := r.vga

variable (r : Run)

/-- The state at the start of cycle `t` of `clk_25m_vga`. -/
def start (t : ℕ) : DoanTop := r.clocks.start t

/-- The state in cycle `t` after `i` edges of `clk_50m_sys`. -/
def point (t i : ℕ) : DoanTop := r.clocks.point t i

/-- The state at the end of cycle `t`. -/
def final (t : ℕ) : DoanTop := r.clocks.final t

/-- At least one edge of `clk_50m_sys` falls between two edges of `clk_25m_vga`. -/
def Linked : Prop := ∀ t, 1 ≤ t → 1 ≤ (r.burst t).length

/-- One or two of them do: 50 MHz against 25.175 MHz. -/
def TwoToOne : Prop := ∀ t, 1 ≤ t → (r.burst t).length = 1 ∨ (r.burst t).length = 2

variable {r}

lemma TwoToOne.linked (h : r.TwoToOne) : r.Linked := by
  intro t ht
  have := h t ht
  omega

lemma Linked.eq_zero_or (h : r.Linked) (t : ℕ) : t = 0 ∨ 1 ≤ (r.burst t).length := by
  rcases Nat.eq_zero_or_pos t with ht | ht
  · exact Or.inl ht
  · exact Or.inr (h t ht)

/-! ### From point to point -/

section Points

variable {t i : ℕ} {x : SysIn}

lemma point_zero : r.point t 0 = r.start t := TwoClock.point_zero

lemma final_eq : r.final t = r.point t (r.burst t).length := rfl

lemma point_succ (h : (r.burst t)[i]? = some x) :
    r.point t (i + 1) = (r.point t i).edge50 r.mem x :=
  TwoClock.point_succ h

lemma start_succ : r.start (t + 1) = (r.final t).edge25 (r.vga t) := TwoClock.start_succ

/-- What holds at reset and is kept by all edges holds at every point of the run. -/
theorem invariant {P : ℕ → ℕ → Prop} (h₀ : P 0 0)
    (h50 : ∀ t i x, (r.burst t)[i]? = some x → P t i → P t (i + 1))
    (h25 : ∀ t, P t (r.burst t).length → P (t + 1) 0) {t i : ℕ} (hi : i ≤ (r.burst t).length) :
    P t i :=
  TwoClock.invariant (r := r.clocks) h₀ h50 h25 t i hi

lemma ctl_point_succ (h : (r.burst t)[i]? = some x) :
    (r.point t (i + 1)).path.ctl = (r.point t i).path.ctl.edge ((r.point t i).ctlIn r.mem x) := by
  rw [point_succ h]
  rfl

lemma ctl_start_succ : (r.start (t + 1)).path.ctl = (r.final t).path.ctl := by
  rw [start_succ]
  rfl

lemma bus_start_succ : (r.start (t + 1)).path.bus = (r.final t).path.bus := by
  rw [start_succ]
  rfl

lemma fifo_start_succ : (r.start (t + 1)).path.fifo =
    if (r.final t).nextAclr then []
    else if (r.final t).vgaFifoRdreq (r.vga t) then (r.final t).path.fifo.tail
    else (r.final t).path.fifo := by
  rw [start_succ]
  rfl

lemma fifoAclr_start_succ : (r.start (t + 1)).fifoAclr = (r.final t).nextAclr := by
  rw [start_succ]
  rfl

lemma lt_of_burst (h : (r.burst t)[i]? = some x) : i < (r.burst t).length :=
  (List.getElem?_eq_some_iff.1 h).1

@[simp] lemma pipe_point : (r.point t i).pipe = (r.start t).pipe :=
  TwoClock.point_const (r := r.clocks) (f := DoanTop.pipe) (fun _ _ => rfl) t i

@[simp] lemma fifoAclr_point : (r.point t i).fifoAclr = (r.start t).fifoAclr :=
  TwoClock.point_const (r := r.clocks) (f := DoanTop.fifoAclr) (fun _ _ => rfl) t i

@[simp] lemma fifoClrSync_point : (r.point t i).fifoClrSync = (r.start t).fifoClrSync :=
  TwoClock.point_const (r := r.clocks) (f := DoanTop.fifoClrSync) (fun _ _ => rfl) t i

@[simp] lemma fifoClrCnt_point : (r.point t i).fifoClrCnt = (r.start t).fifoClrCnt :=
  TwoClock.point_const (r := r.clocks) (f := DoanTop.fifoClrCnt) (fun _ _ => rfl) t i

end Points

/-! ### The scan -/

/-- The pipeline of the run is the pipeline fed from its FIFO. -/
theorem pipe_start (t : ℕ) : (r.start t).pipe =
    pipelineAt r.m (fun t => (r.final t).pipeIn (r.vga t)) t := by
  induction t with
  | zero => rfl
  | succ t ih =>
    rw [pipelineAt_succ, ← ih, start_succ]
    change (r.point t _).pipe.edge _ = _
    rw [pipe_point]

theorem vgaVs_start (t : ℕ) : (r.start t).vgaVs = decide (vsPhase t < 418400) := by
  unfold DoanTop.vgaVs
  rw [pipe_start, uVga_pipelineAt, vs_std]
  simp only [vsHigh_iff]

theorem vgaVs_point (t i : ℕ) : (r.point t i).vgaVs = decide (vsPhase t < 418400) := by
  rw [← vgaVs_start (r := r)]
  unfold DoanTop.vgaVs
  rw [pipe_point]

theorem vgaReq_start (t : ℕ) : (r.start t).vgaReq = decide (Requests t) := by
  unfold DoanTop.vgaReq
  rw [pipe_start, uVga_pipelineAt, oRequest_std]

theorem oAddress_start (t : ℕ) : (r.start t).oAddress.toNat = address t := by
  unfold DoanTop.oAddress
  rw [pipe_start, uVga_pipelineAt, oAddress_std]

/-- Without a request no word is taken from the FIFO. -/
lemma vgaFifoRdreq_final {t : ℕ} (h : ¬ Requests t) :
    (r.final t).vgaFifoRdreq (r.vga t) = false := by
  have hreq := vgaReq_start (r := r) t
  rw [decide_eq_false h, DoanTop.vgaReq] at hreq
  rw [DoanTop.vgaFifoRdreq, Pipeline.vgaFifoRdreq, final_eq, pipe_point, hreq]
  rfl

end Run

end VideoPipeline.Top

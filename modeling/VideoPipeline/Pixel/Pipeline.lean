import VideoPipeline.Image.Processor
import VideoPipeline.Image.Window
import VideoPipeline.Vga.Timing

/-!
The 25 MHz side of `doan_top.v` as it is wired there: the decoder registers the head of the
FIFO, the image processor takes the registered pixel together with the live coordinates of the
scan, and the scan takes the colours of the image processor. While the FIFO serves every
request, the `k`-th valid pixel is the word of the `k`-th request, and it is stored in the line
memory one place further than its column, the last pixel of a line at place zero.
-/

namespace VideoPipeline.Pixel

open VideoPipeline.Lib VideoPipeline.Vga VideoPipeline.Image

/-- The registers of the 25 MHz pipeline. -/
structure Pipeline where
  uRgb565Dec : Rgb565Decoder
  uImageProcessor : VgaImageProcessor
  uVga : VgaController

/-- What the pipeline reads in one cycle: the FIFO, its clear, and the mode switches. -/
structure PipeIn where
  vgaFifoQ : BitVec 16
  vgaFifoRdempty : Bool
  fifoAclr : Bool
  sw : BitVec 2
deriving DecidableEq, Repr

namespace Pipeline

def reset (m : LineInit 30) : Pipeline := ⟨.reset, .reset m, .reset⟩

variable (s : Pipeline) (i : PipeIn)

/-- `vga_fifo_rdreq`: a request is passed on unless the FIFO is empty or being cleared. -/
def vgaFifoRdreq : Bool := s.uVga.oRequest .std && !i.vgaFifoRdempty && !i.fifoAclr

/-- The inputs of the image processor. -/
def procIn : ProcIn where
  iMode := i.sw
  iValid := s.uRgb565Dec.oValid
  iX := s.uVga.oCurrentX .std
  iY := s.uVga.oCurrentY .std
  iRgb := s.uRgb565Dec.oRgb

/-- One rising edge of `clk_25m_vga`. -/
def edge : Pipeline where
  uRgb565Dec := s.uRgb565Dec.edge false (s.vgaFifoRdreq i) i.vgaFifoQ
  uImageProcessor := s.uImageProcessor.edge (s.procIn i)
  uVga := s.uVga.edge .std s.uImageProcessor.oRgb

end Pipeline

/-- The pipeline `n` edges after reset. -/
def pipelineAt (m : LineInit 30) (inp : ℕ → PipeIn) : ℕ → Pipeline :=
  run (fun s i => s.edge i) (.reset m) inp

section Parts

variable {m : LineInit 30} {inp : ℕ → PipeIn}

lemma pipelineAt_succ (n : ℕ) :
    pipelineAt m inp (n + 1) = (pipelineAt m inp n).edge (inp n) := rfl

/-- What the line buffer reads in cycle `n`. -/
def lineInput (m : LineInit 30) (inp : ℕ → PipeIn) (n : ℕ) : LineIn 30 :=
  ((pipelineAt m inp n).procIn (inp n)).lineIn

/-- The line buffer of the pipeline runs as one fed with `lineInput`. -/
theorem uLineBuf_pipelineAt (n : ℕ) :
    (pipelineAt m inp n).uImageProcessor.uLineBuf = bufferAt 640 m (lineInput m inp) n :=
  run_proj (fun s : Pipeline => s.uImageProcessor.uLineBuf) (fun s i => (s.procIn i).lineIn)
    (fun _ _ => rfl) n

/-- The scan of the pipeline runs as a scan shown the colours of the image processor. -/
theorem uVga_pipelineAt (n : ℕ) : (pipelineAt m inp n).uVga =
    scan .std (fun n => (pipelineAt m inp n).uImageProcessor.oRgb) n :=
  run_proj (fun s : Pipeline => s.uVga) (fun s _ => s.uImageProcessor.oRgb) (fun _ _ => rfl) n

end Parts

/-! ### A FIFO that serves every request -/

section Supplied

/-- The FIFO is never empty or in clear at a request. -/
def Supplied (inp : ℕ → PipeIn) : Prop :=
  ∀ n, Requests n → (inp n).vgaFifoRdempty = false ∧ (inp n).fifoAclr = false

/-- The word at the head of the FIFO at the `k`-th request. -/
def word (inp : ℕ → PipeIn) (k : ℕ) : BitVec 16 := (inp (requestTime k)).vgaFifoQ

/-- The pixel of the `k`-th request as the line buffer is given it. -/
def pixelIn (inp : ℕ → PipeIn) (k : ℕ) : BitVec 30 := rgbIn (expand (word inp k))

variable {m : LineInit 30} {inp : ℕ → PipeIn}

lemma rdreq_of_supplied (h : Supplied inp) (n : ℕ) :
    (pipelineAt m inp n).vgaFifoRdreq (inp n) = decide (Requests n) := by
  unfold Pipeline.vgaFifoRdreq
  rw [uVga_pipelineAt, oRequest_std]
  by_cases hr : Requests n
  · simp [hr, (h n hr).1, (h n hr).2]
  · simp [hr]

lemma valid_zero : ¬ Valid (lineInput m inp) 0 := by
  simp [Valid, lineInput, ProcIn.lineIn, Pipeline.procIn, pipelineAt, Pipeline.reset,
    Rgb565Decoder.reset]

/-- A pixel is valid in the cycle after its request. -/
lemma valid_succ_iff (h : Supplied inp) (n : ℕ) :
    Valid (lineInput m inp) (n + 1) ↔ Requests n := by
  have hr := rdreq_of_supplied (m := m) h n
  change (pipelineAt m inp n).vgaFifoRdreq (inp n) = true ↔ _
  rw [hr, decide_eq_true_eq]

lemma validBefore_succ_eq (h : Supplied inp) (n : ℕ) :
    validBefore (lineInput m inp) (n + 1) = Nat.count Requests n := by
  induction n with
  | zero =>
    rw [validBefore_succ, if_neg valid_zero]
    rfl
  | succ n ih =>
    rw [validBefore_succ, ih, Nat.count_succ]
    simp only [valid_succ_iff h]

lemma exists_of_valid (h : Supplied inp) {t : ℕ} (ht : Valid (lineInput m inp) t) :
    ∃ n, t = n + 1 ∧ Requests n := by
  cases t with
  | zero => exact absurd ht valid_zero
  | succ n => exact ⟨n, rfl, (valid_succ_iff h n).1 ht⟩

lemma iX_lineInput (n : ℕ) : ((lineInput m inp n).iX).toNat = n % 800 - 160 := by
  change (((pipelineAt m inp n).uVga.oCurrentX .std)).toNat = _
  rw [uVga_pipelineAt, oCurrentX_std]

lemma iY_lineInput (n : ℕ) : ((lineInput m inp n).iY).toNat = n / 800 % 525 - 45 := by
  change (((pipelineAt m inp n).uVga.oCurrentY .std)).toNat = _
  rw [uVga_pipelineAt, oCurrentY_std]

/-- **What reaches the line buffer.** The `k`-th valid pixel is the word of the `k`-th request,
and its address is one ahead of its column. -/
theorem carries_lineInput (h : Supplied inp) :
    Carries (lineInput m inp) (lineAddr 1) (pixelIn inp) where
  addr t ht := by
    obtain ⟨n, rfl, hr⟩ := exists_of_valid h ht
    apply BitVec.eq_of_toNat_eq
    rw [lineAddr_toNat, LineIn.addrX, BitVec.toNat_setWidth, iX_lineInput, validBefore_succ_eq h,
      count_requests]
    unfold requestsBefore
    unfold Requests at hr
    rw [if_pos hr.2]
    omega
  data t ht := by
    obtain ⟨n, rfl, hr⟩ := exists_of_valid h ht
    rw [validBefore_succ_eq h, pixelIn, word, requestTime_count hr]
    change rgbIn ((pipelineAt m inp n).edge (inp n)).uRgb565Dec.oRgb = _
    rw [Pipeline.edge, Rgb565Decoder.edge, rdreq_of_supplied h, decide_eq_true hr, if_pos rfl]
    rfl

/-- The line buffer of the pipeline holds the tapes of the requested pixels. -/
theorem holds_pipeline (h : Supplied inp) (n : ℕ) :
    Holds 640 m (lineAddr 1) (pixelIn inp) (validBefore (lineInput m inp) n)
      (pipelineAt m inp n).uImageProcessor.uLineBuf := by
  rw [uLineBuf_pipelineAt]
  exact holds_bufferAt (carries_lineInput h) (lineAddr_rotates 1) (lineAddr_lt 1) n

end Supplied

end VideoPipeline.Pixel

import VideoPipeline.Pixel.Render

/-!
The screen from a frame on. The pipeline forgets what it was fed before: from the start of a
frame on it goes along with a pipeline that is reset then, over the same line memories, as soon
as two pixels have passed. So a run in which the FIFO serves every request from some frame on
shows, from the second line of that frame on, what the modes make of the pixels requested.
-/

namespace VideoPipeline.Pixel

open VideoPipeline.Lib VideoPipeline.Vga VideoPipeline.Image

/-! ### The scan repeats -/

section Scan

variable {F n : ℕ}

lemma requests_add (F n : ℕ) : Requests (420000 * F + n) ↔ Requests n := by
  unfold Requests
  omega

lemma count_requests_add (F n : ℕ) :
    Nat.count Requests (420000 * F + n) = 307200 * F + Nat.count Requests n := by
  rw [count_requests, count_requests]
  unfold requestsBefore
  split_ifs <;> omega

lemma masked_add (F k : ℕ) : Masked (307200 * F + k) ↔ Masked k := by
  unfold Masked
  omega

end Scan

/-! ### Two pipelines that have seen the same pixels -/

/-- The inputs from the start of frame `F` on. -/
def resumed (inp : ℕ → PipeIn) (F n : ℕ) : PipeIn := inp (420000 * F + n)

/-- The line memories as they are one clock after the start of frame `F`. -/
def memories (m : LineInit 30) (inp : ℕ → PipeIn) (F : ℕ) : LineInit 30 :=
  let s := (pipelineAt m inp (420000 * F + 1)).uImageProcessor.uLineBuf
  ⟨s.lb0Mem, s.lb0Q, s.lb1Mem, s.lb1Q⟩

/-- Two pipelines that agree, but for the registers that no pixel has passed yet: `j` pixels have
passed. -/
structure Agree (j : ℕ) (s s' : Pipeline) : Prop where
  valid : s.uRgb565Dec.oValid = s'.uRgb565Dec.oValid
  rgb : 1 ≤ j ∨ s.uRgb565Dec.oValid = true → s.uRgb565Dec.oRgb = s'.uRgb565Dec.oRgb
  lb0Mem : s.uImageProcessor.uLineBuf.lb0Mem = s'.uImageProcessor.uLineBuf.lb0Mem
  lb0Q : s.uImageProcessor.uLineBuf.lb0Q = s'.uImageProcessor.uLineBuf.lb0Q
  lb1Mem : s.uImageProcessor.uLineBuf.lb1Mem = s'.uImageProcessor.uLineBuf.lb1Mem
  lb1Q : s.uImageProcessor.uLineBuf.lb1Q = s'.uImageProcessor.uLineBuf.lb1Q
  row0D1 : 1 ≤ j → s.uImageProcessor.uLineBuf.row0D1 = s'.uImageProcessor.uLineBuf.row0D1
  row1D1 : 1 ≤ j → s.uImageProcessor.uLineBuf.row1D1 = s'.uImageProcessor.uLineBuf.row1D1
  row2D1 : 1 ≤ j → s.uImageProcessor.uLineBuf.row2D1 = s'.uImageProcessor.uLineBuf.row2D1
  row0D2 : 2 ≤ j → s.uImageProcessor.uLineBuf.row0D2 = s'.uImageProcessor.uLineBuf.row0D2
  row1D2 : 2 ≤ j → s.uImageProcessor.uLineBuf.row1D2 = s'.uImageProcessor.uLineBuf.row1D2
  row2D2 : 2 ≤ j → s.uImageProcessor.uLineBuf.row2D2 = s'.uImageProcessor.uLineBuf.row2D2

section Agree

variable {s s' : Pipeline} {i : PipeIn} {j : ℕ}

/-- A step of both, with the same request, address and word. -/
lemma Agree.edge (h : Agree j s s') (hreq : s.vgaFifoRdreq i = s'.vgaFifoRdreq i)
    (hx : s.uVga.oCurrentX .std = s'.uVga.oCurrentX .std) :
    Agree (j + if s'.uRgb565Dec.oValid then 1 else 0) (s.edge i) (s'.edge i) := by
  have hv := h.valid
  have haddr : (s.procIn i).lineIn.addrX = (s'.procIn i).lineIn.addrX :=
    congrArg (BitVec.setWidth 10) hx
  have hrgb {j' : ℕ} (hj : 1 ≤ j' → s.uRgb565Dec.oRgb = s'.uRgb565Dec.oRgb) :
      1 ≤ j' ∨ (s.edge i).uRgb565Dec.oValid = true →
        (s.edge i).uRgb565Dec.oRgb = (s'.edge i).uRgb565Dec.oRgb := by
    intro hor
    change (if s.vgaFifoRdreq i = true then _ else _) = if s'.vgaFifoRdreq i = true then _ else _
    rw [← hreq]
    split_ifs with hr
    · rfl
    · exact hj (hor.resolve_right hr)
  cases hval : s'.uRgb565Dec.oValid with
  | true =>
    -- a pixel passes, and it is the same on both sides
    rw [hval] at hv
    have hpix := h.rgb (Or.inr hv)
    have hdata : (s.procIn i).lineIn.iData = (s'.procIn i).lineIn.iData := congrArg rgbIn hpix
    have h1 : (s.procIn i).lineIn.iValid = true := hv
    have h2 : (s'.procIn i).lineIn.iValid = true := hval
    refine ⟨hreq, hrgb fun _ => hpix, ?_, ?_, ?_, ?_, ?_, ?_, ?_, ?_, ?_, ?_⟩ <;>
      simp only [Pipeline.edge, VgaImageProcessor.edge, LineBuffer.edge, h1, h2, if_true, haddr,
        hdata, h.lb0Mem, h.lb0Q, h.lb1Mem, h.lb1Q, implies_true]
    · exact fun hj => h.row0D1 (by omega)
    · exact fun hj => h.row1D1 (by omega)
    · exact fun hj => h.row2D1 (by omega)
  | false =>
    rw [hval] at hv
    have h1 : (s.procIn i).lineIn.iValid = false := hv
    have h2 : (s'.procIn i).lineIn.iValid = false := hval
    refine ⟨hreq, hrgb fun hj => h.rgb (Or.inl hj), ?_, ?_, ?_, ?_, ?_, ?_, ?_, ?_, ?_, ?_⟩ <;>
      simp only [Pipeline.edge, VgaImageProcessor.edge, LineBuffer.edge, h1, h2,
        Bool.false_eq_true, if_false, Nat.add_zero]
    exacts [h.lb0Mem, h.lb0Q, h.lb1Mem, h.lb1Q, h.row0D1, h.row1D1, h.row2D1, h.row0D2, h.row1D2,
      h.row2D2]

/-- After two pixels the windows are the same. -/
lemma Agree.window (h : Agree j s s') (hj : 2 ≤ j) (r c : Fin 3) :
    s.uImageProcessor.window (s.procIn i) r c = s'.uImageProcessor.window (s'.procIn i) r c := by
  have hdata : (s.procIn i).lineIn.iData = (s'.procIn i).lineIn.iData :=
    congrArg rgbIn (h.rgb (Or.inl (by omega)))
  unfold VgaImageProcessor.window
  match r, c with
  | 0, 0 => exact congrArg split (h.row2D2 hj)
  | 0, 1 => exact congrArg split (h.row2D1 (by omega))
  | 0, 2 => exact congrArg split h.lb1Q
  | 1, 0 => exact congrArg split (h.row1D2 hj)
  | 1, 1 => exact congrArg split (h.row1D1 (by omega))
  | 1, 2 => exact congrArg split h.lb0Q
  | 2, 0 => exact congrArg split (h.row0D2 hj)
  | 2, 1 => exact congrArg split (h.row0D1 (by omega))
  | 2, 2 => exact congrArg split hdata

end Agree

/-! ### From a frame on -/

section Resume

variable {m : LineInit 30} {inp : ℕ → PipeIn} {F n : ℕ}

/-- The scans of the two pipelines stand at the same place. -/
lemma uVga_resumed (m' : LineInit 30) (inp' : ℕ → PipeIn) (F n : ℕ) :
    (pipelineAt m inp (420000 * F + n)).uVga.oRequest .std =
        (pipelineAt m' inp' n).uVga.oRequest .std ∧
      (pipelineAt m inp (420000 * F + n)).uVga.oCurrentX .std =
        (pipelineAt m' inp' n).uVga.oCurrentX .std := by
  rw [uVga_pipelineAt, uVga_pipelineAt]
  constructor
  · rw [oRequest_std, oRequest_std, decide_eq_decide]
    exact requests_add F n
  · apply BitVec.eq_of_toNat_eq
    rw [oCurrentX_std, oCurrentX_std]
    omega

theorem agree_resumed (m : LineInit 30) (inp : ℕ → PipeIn) (F n : ℕ) :
    Agree (validBefore (lineInput (memories m inp F) (resumed inp F)) (n + 1))
      (pipelineAt m inp (420000 * F + (n + 1)))
      (pipelineAt (memories m inp F) (resumed inp F) (n + 1)) := by
  have hreq (n : ℕ) : (pipelineAt m inp (420000 * F + n)).vgaFifoRdreq (resumed inp F n) =
      (pipelineAt (memories m inp F) (resumed inp F) n).vgaFifoRdreq (resumed inp F n) := by
    unfold Pipeline.vgaFifoRdreq
    rw [(uVga_resumed _ _ F n).1]
  induction n with
  | zero =>
    -- the first clock requests nothing, and the line memories are those of the run
    have hno : ¬ Requests 0 := by decide
    have hzero : (pipelineAt (memories m inp F) (resumed inp F) 0).uVga.oRequest .std = false := by
      rw [uVga_pipelineAt, oRequest_std]
      exact decide_eq_false hno
    have hval : (pipelineAt m inp (420000 * F + (0 + 1))).uRgb565Dec.oValid = false := by
      change (pipelineAt m inp (420000 * F + 0)).vgaFifoRdreq (resumed inp F 0) = false
      rw [hreq, Pipeline.vgaFifoRdreq, hzero]
      rfl
    have hval' : (pipelineAt (memories m inp F) (resumed inp F) (0 + 1)).uRgb565Dec.oValid =
        false := by
      change (pipelineAt (memories m inp F) (resumed inp F) 0).vgaFifoRdreq (resumed inp F 0) = false
      rw [Pipeline.vgaFifoRdreq, hzero]
      rfl
    have hnone : validBefore (lineInput (memories m inp F) (resumed inp F)) (0 + 1) = 0 := by
      rw [validBefore_succ, if_neg valid_zero]
      rfl
    rw [hnone]
    refine ⟨hval.trans hval'.symm, ?_, rfl, rfl, rfl, rfl, ?_, ?_, ?_, ?_, ?_, ?_⟩
    · rw [hval]
      simp
    all_goals
      intro h
      omega
  | succ n ih =>
    rw [validBefore_succ]
    exact ih.edge (hreq (n + 1)) (uVga_resumed _ _ F (n + 1)).2

/-- The colour selected four clocks after a request is the one rendered from the pixels requested
since frame `F`. -/
lemma shown_resumed (h : Supplied (resumed inp F)) (hr : Requests n)
    (hk : 1281 ≤ Nat.count Requests n) :
    shown ((pipelineAt m inp (420000 * F + n + 4)).uImageProcessor.select
        ((pipelineAt m inp (420000 * F + n + 4)).procIn (inp (420000 * F + n + 4)))) =
      render (fun k => expand (word (resumed inp F) k)) (Nat.count Requests n)
        (resumed inp F (n + 4)).sw := by
  have hr' := (requests_add F n).2 hr
  have hagree := agree_resumed m inp F (n + 3)
  have hseen : 2 ≤ validBefore (lineInput (memories m inp F) (resumed inp F)) (n + 3 + 1) := by
    rw [validBefore_succ_eq h]
    have := Nat.count_monotone Requests (show n ≤ n + 3 by omega)
    omega
  have hwin (r c : Fin 3) := hagree.window (i := resumed inp F (n + 4)) hseen r c
  refine shown_select (p := fun k => expand (word (resumed inp F) k)) ?_ ?_ ?_
  · exact (hwin 1 1).trans (centre_pipeline h hr (by omega) _)
  · rw [oEdgePixel_add_four hr', count_requests_add, decide_eq_decide]
    exact masked_add F _
  · intro hm r c
    exact (hwin r c).trans (window_add_four h hr hk hm r c)

/-- **What the screen shows, in every mode**, in a run in which the FIFO serves every request from
frame `F` on: once the window lies within the pixels requested since, the colour shown six clocks
after a request is the one rendered from them, in the mode of the fourth clock. -/
theorem vgaRgb_eq_render (h : Supplied (resumed inp F)) (hr : Requests n)
    (hk : 1281 ≤ Nat.count Requests n) : vgaRgb m inp (420000 * F + n + 6) =
      render (fun k => expand (word (resumed inp F) k)) (Nat.count Requests n)
        (resumed inp F (n + 4)).sw := by
  rw [vgaRgb_add_six ((requests_add F n).2 hr)]
  exact shown_resumed h hr hk

theorem vgaRgb_eq_render_counting : vgaRgb (blankInit 30) (playing counting 3)
    (420000 * 2 + requestTime 2000 + 6) =
      render (fun k => expand (word (resumed (playing counting 3) 2) k))
        (Nat.count Requests (requestTime 2000)) (resumed (playing counting 3) 2
          (requestTime 2000 + 4)).sw :=
  vgaRgb_eq_render (fun _ _ => ⟨rfl, rfl⟩) (requests_requestTime 2000)
    (by rw [count_requestTime]; omega)

end Resume

end VideoPipeline.Pixel

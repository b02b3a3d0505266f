import VideoPipeline.Top.Flush
import VideoPipeline.Top.Restart

/-!
Flush and restart. The controller takes the FIFO for flushed as soon as it reports no words,
which it does from the first cycle of the clear; so the wait for the flush is over while the
clear is still up, and what the controller then places on the bus belongs to the new frame.
-/

namespace VideoPipeline.Top

open VideoPipeline.Lib VideoPipeline.Vga VideoPipeline.Image VideoPipeline.Read
  SdramReadController

/-! ### The FIFO in clear -/

namespace Run

variable {r : Run} {t t₀ i : ℕ} {x : SysIn}

/-- A FIFO in clear is empty. -/
theorem fifo_of_aclr (hi : i ≤ (r.burst t).length) (h : r.Aclr t) :
    (r.point t i).path.fifo = [] := by
  refine invariant (P := fun t i => r.Aclr t → (r.point t i).path.fifo = []) (fun _ => rfl)
    ?_ ?_ hi h
  · intro t i x hx _ hc
    have hclr : (r.point t i).fifoAclr = true := by
      rw [fifoAclr_point]
      exact hc
    rw [point_succ hx, DoanTop.edge50, ReadPath.edge, hclr]
    rfl
  · intro t _ hc
    rw [Aclr, fifoAclr_start_succ] at hc
    rw [point_zero, fifo_start_succ, hc]
    rfl

variable (r) in
/-- The FIFO reports no words while it is in clear. -/
def ReportsClear : Prop := ∀ t, r.Aclr t → ∀ x ∈ r.burst t, x.vgaFifoWrusedw = 0

variable (r) in
/-- The FIFO reports the number of its words at every edge. -/
def Honest : Prop := ∀ t i x, (r.burst t)[i]? = some x →
  x.vgaFifoWrusedw = BitVec.ofNat 11 (r.point t i).path.fifo.length

lemma Honest.reportsClear (h : r.Honest) : r.ReportsClear := by
  intro t hc x hx
  obtain ⟨i, hi⟩ := List.mem_iff_getElem?.1 hx
  rw [h t i x hi, fifo_of_aclr (lt_of_burst hi).le hc]
  rfl

/-! ### The window -/

variable (r) in
/-- The cycle `t` lies between the rise `t₀` and the end of the flush of that frame, the fall of
`fifo_aclr`. There is none if the frame is not flushed. -/
def Window (t₀ t : ℕ) : Prop :=
  t₀ ≤ t ∧ ∃ u, t ≤ u ∧ r.Aclr u ∧ ∀ v, t₀ < v → v ≤ u → ¬ r.Rises v

theorem window_iff (hl : r.Linked) (ht : r.Rises t₀) :
    r.Window t₀ t ↔ (r.burst t₀).length = 1 ∧ t₀ ≤ t ∧ t ≤ t₀ + 11 := by
  have h0 := (rises_iff t₀).1 ht
  constructor
  · rintro ⟨hle, u, htu, hc, hno⟩
    have hu : u < t₀ + 420000 := by
      by_contra hge
      refine hno (t₀ + 420000) (by omega) (by omega) ((rises_iff _).2 ?_)
      unfold vsPhase at h0 ⊢
      omega
    obtain ⟨k, rfl⟩ := Nat.exists_eq_add_of_le (hle.trans htu)
    have := (aclr_add hl h0 (by omega)).1 hc
    omega
  · rintro ⟨h1, hle, h11⟩
    refine ⟨hle, t₀ + 11, h11, (aclr_add hl h0 (by omega)).2 ⟨h1, by omega, le_rfl⟩, ?_⟩
    intro v h2 h3 hv
    obtain ⟨k, rfl⟩ := Nat.exists_eq_add_of_le h2.le
    have := (rises_iff _).1 hv
    rw [vsPhase_add h0 (by omega)] at this
    omega

/-- From the sixth edge after the rise on the clear is up. -/
lemma aclr_of_five_le_since (h : r.TwoToOne) (ht : r.Rises t₀) (hw : r.Window t₀ t)
    (hi : i < (r.burst t).length) (hj : 5 ≤ r.since t i) : r.Aclr t := by
  have hl := h.linked
  have h0 := (rises_iff t₀).1 ht
  obtain ⟨h1, hle, h11⟩ := (window_iff hl ht).1 hw
  obtain ⟨k, rfl⟩ := Nat.exists_eq_add_of_le hle
  have hpos : 1 ≤ t₀ := by
    unfold vsPhase at h0
    omega
  have s0 : r.sinceStart t₀ = 0 := since_zero_of_rises h0
  have s1 : r.sinceStart (t₀ + 1) = r.sinceStart t₀ + (r.burst t₀).length := by
    rw [sinceStart, if_neg (by rw [vsPhase_add h0 (by omega)]; omega)]
  have s2 : r.sinceStart (t₀ + 2) = r.sinceStart (t₀ + 1) + (r.burst (t₀ + 1)).length := by
    rw [sinceStart, if_neg (by
      rw [show t₀ + 1 + 1 = t₀ + 2 by omega, vsPhase_add h0 (by omega)]
      omega)]
  have b1 := h (t₀ + 1) (by omega)
  have b2 := h (t₀ + 2) (by omega)
  rw [since] at hj
  refine (aclr_add hl h0 (by omega)).2 ⟨h1, ?_, by omega⟩
  by_contra hk
  rcases (by omega : k = 0 ∨ k = 1 ∨ k = 2) with rfl | rfl | rfl
  · simp only [Nat.add_zero] at hi hj
    omega
  · omega
  · omega

/-- **The wait is over too early.** From the sixth edge on the controller no longer waits for
the flush, and reading is switched on. -/
theorem flushWait_of_six_le_since (h : r.TwoToOne) (hz : r.ReportsClear) (ht : r.Rises t₀)
    (hw : r.Window t₀ t) (hi : i ≤ (r.burst t).length) (hj : 6 ≤ r.since t i) :
    (r.point t i).path.ctl.flushWait = false ∧ (r.point t i).path.ctl.readingFlag = true := by
  have hl := h.linked
  have h0 := (rises_iff t₀).1 ht
  refine invariant (P := fun t i => r.Window t₀ t → 6 ≤ r.since t i →
    (r.point t i).path.ctl.flushWait = false ∧ (r.point t i).path.ctl.readingFlag = true)
    ?_ ?_ ?_ hi hw hj
  · intro hw _
    have := hw.1
    have := h0
    unfold vsPhase at this
    omega
  · intro t i x hx ih hw hj
    have hi := lt_of_burst hx
    rw [since_succ] at hj
    have hc := aclr_of_five_le_since h ht hw hi (by omega)
    have hzero : ((r.point t i).ctlIn r.mem x).fifoWrusedw = 0 :=
      hz t hc x (List.mem_of_getElem? hx)
    have hne : ¬ r.since t i = 3 := by omega
    rw [ctl_point_succ hx, flushWait_edge, readingFlag_edge, vgaDonePulse_point hl hi.le,
      decide_eq_false hne, CtlIn.fifoIsEmpty, hzero]
    cases (r.point t i).path.ctl.flushWait <;> simp
  · intro t ih hw hj
    by_cases hrise : vsPhase (t + 1) = 0
    · rw [since_zero_of_rises hrise] at hj
      omega
    · rw [since_cycle hrise] at hj
      obtain ⟨h1, hle, h11⟩ := (window_iff hl ht).1 hw
      have hne : t + 1 ≠ t₀ := by
        rintro rfl
        exact hrise h0
      have := ih ((window_iff hl ht).2 ⟨h1, by omega, by omega⟩) hj
      rw [point_zero, ctl_start_succ, final_eq]
      exact this

/-! ### Commands of the new frame -/

variable (r) in
/-- The edge `e` places a command on the bus. -/
def IssuesAt (e : DoanTop × SysIn) : Prop := e.1.path.ctl.issues (e.1.ctlIn r.mem e.2) = true

variable (r) in
/-- **Flush and restart are ordered** in the frame that begins with the rise `t₀`: until the end
of its flush no command is placed on the bus after the count was cleared. -/
def Ordered (t₀ : ℕ) : Prop :=
  ∀ t i x, r.Window t₀ t → (r.burst t)[i]? = some x → r.restarts t₀ 0 < r.restarts t i →
    ¬ r.IssuesAt (r.point t i, x)

variable (r) in
/-- What keeps the controller from placing a command: another restart is pending, the picture is
not loaded, or, before the sixth edge after the rise only, the wait for the flush or the
hysteresis. -/
def Guarded (t i : ℕ) : Prop :=
  (r.point t i).path.ctl.vgaResetPending = true ∨ (r.point t i).path.ctl.frameReady = false ∨
    r.since t i < 6 ∧ ((r.point t i).path.ctl.flushWait = true ∨
      (r.point t i).path.ctl.readingFlag = false)

lemma restarts_mono {u : ℕ} (h : t ≤ u) : r.restarts t 0 ≤ r.restarts u 0 :=
  List.Sublist.countP_le (TwoClock.edges_sublist_of_le h)

lemma window_of_succ (hl : r.Linked) (ht : r.Rises t₀) (hne : t + 1 ≠ t₀)
    (h : r.Window t₀ (t + 1)) : r.Window t₀ t := by
  rw [window_iff hl ht] at h ⊢
  omega

/-- While no command of the new frame is placed, the bus is idle and nothing is counted. -/
theorem Ordered.bus_idle (hl : r.Linked) (ht : r.Rises t₀) (h : r.Ordered t₀)
    (hw : r.Window t₀ t) (hi : i ≤ (r.burst t).length)
    (hr : r.restarts t₀ 0 < r.restarts t i) :
    (r.point t i).path.ctl.avmRead = false ∧ (r.point t i).path.ctl.reqCnt = 0 := by
  refine invariant (P := fun t i => r.Window t₀ t → r.restarts t₀ 0 < r.restarts t i →
    (r.point t i).path.ctl.avmRead = false ∧ (r.point t i).path.ctl.reqCnt = 0)
    ?_ ?_ ?_ hi hw hr
  · intro _ h0
    rw [restarts_zero] at h0
    exact absurd h0 (Nat.not_lt_zero _)
  · intro t i x hx ih hw hr
    rw [ctl_point_succ hx, avmRead_edge, reqCnt_edge]
    rw [restarts_succ hx] at hr
    by_cases hra : r.RestartsAt (r.point t i, x)
    · have hra' : (r.point t i).path.ctl.restarts ((r.point t i).ctlIn r.mem x) = true := hra
      have hst := not_stalled_of_restarts hra'
      rw [hst, not_issues_of_restarts hra', if_pos hra']
      exact ⟨rfl, rfl⟩
    · rw [if_neg hra, Nat.add_zero] at hr
      obtain ⟨hrd, hcnt⟩ := ih hw hr
      have hra' : (r.point t i).path.ctl.restarts ((r.point t i).ctlIn r.mem x) = false :=
        Bool.eq_false_iff.2 hra
      have his : (r.point t i).path.ctl.issues ((r.point t i).ctlIn r.mem x) = false :=
        Bool.eq_false_iff.2 (h t i x hw hx hr)
      rw [his, hra', hcnt, stalled, hrd]
      exact ⟨rfl, rfl⟩
  · intro t ih hw hr
    have hne : t + 1 ≠ t₀ := by
      rintro rfl
      exact Nat.lt_irrefl _ hr
    rw [restarts_cycle] at hr
    rw [point_zero, ctl_start_succ, final_eq]
    exact ih (window_of_succ hl ht hne hw) hr

/-- Without a guard a command is placed. -/
theorem Ordered.guarded (h2 : r.TwoToOne) (hz : r.ReportsClear) (ht : r.Rises t₀)
    (h : r.Ordered t₀) (hw : r.Window t₀ t) (hi : i < (r.burst t).length)
    (hr : r.restarts t₀ 0 < r.restarts t i) : r.Guarded t i := by
  by_contra hg
  unfold Guarded at hg
  simp only [not_or, not_and, Bool.not_eq_true, Bool.not_eq_false] at hg
  obtain ⟨hp, hf, hlate⟩ := hg
  have hsafe : (r.point t i).path.ctl.flushWait = false ∧
      (r.point t i).path.ctl.readingFlag = true := by
    rcases Nat.lt_or_ge (r.since t i) 6 with hj | hj
    · exact hlate hj
    · exact flushWait_of_six_le_since h2 hz ht hw hi.le hj
  obtain ⟨hrd, hcnt⟩ := h.bus_idle h2.linked ht hw hi.le hr
  refine h t i _ hw (List.getElem?_eq_getElem hi) hr
    (issues_iff.2 ⟨?_, hsafe.2, hf, hsafe.1, hp, ?_⟩)
  · rw [stalled, hrd]
    rfl
  · rw [hcnt]
    exact Nat.zero_lt_succ _

/-- **When flush and restart are ordered**: just when after the restart every edge up to the end
of the flush is guarded, from the sixth on by `img_loaded` or a pending restart alone. -/
theorem ordered_iff (h2 : r.TwoToOne) (hz : r.ReportsClear) (ht : r.Rises t₀) :
    r.Ordered t₀ ↔ ∀ t i, r.Window t₀ t → i < (r.burst t).length →
      r.restarts t₀ 0 < r.restarts t i → r.Guarded t i := by
  constructor
  · exact fun h t i hw hi hr => h.guarded h2 hz ht hw hi hr
  · intro hg t i x hw hx hr his
    have hmay : (r.point t i).path.ctl.MayIssue ((r.point t i).ctlIn r.mem x) := issues_iff.1 his
    rcases hg t i hw (lt_of_burst hx) hr with hp | hf | ⟨-, hf | hf⟩
    · exact Bool.false_ne_true (hmay.restarted.symm.trans hp)
    · exact Bool.false_ne_true (hf.symm.trans hmay.ready)
    · exact Bool.false_ne_true (hmay.flushed.symm.trans hf)
    · exact Bool.false_ne_true (hf.symm.trans hmay.reading)

end Run

/-! ### A loop closed over the FIFO

One edge of `clk_50m_sys` in each cycle, a bus that takes every command at once and answers it in
the next cycle, and a FIFO that reports its words. What is left open is when the picture is
loaded. -/

/-- A memory in which every word is the lower half of its address. -/
def lowHalf (a : BitVec 25) : BitVec 16 := a.setWidth 16

/-- The inputs of the edge that finds the state `s`. -/
def loopIn (img : ℕ → Bool) (t : ℕ) (s : DoanTop) : SysIn :=
  ⟨img t, false, true, BitVec.ofNat 11 s.path.fifo.length⟩

def loopAt (img : ℕ → Bool) : ℕ → DoanTop
  | 0 => .reset (blankInit 30)
  | t + 1 => ((loopAt img t).edge50 lowHalf (loopIn img t (loopAt img t))).edge25 ⟨false, 0⟩

def closedLoop (img : ℕ → Bool) : Run where
  m := blankInit 30
  mem := lowHalf
  burst := fun t => [loopIn img t (loopAt img t)]
  vga := fun _ => ⟨false, 0⟩

/-- The read path of the loop over one cycle without a request. -/
def loopStep (img : ℕ → Bool) (t : ℕ) (s : ReadPath) : ReadPath :=
  let s' := s.edge ⟨img t, decide (vsPhase t = 1), false, some 0, lowHalf,
    BitVec.ofNat 11 s.fifo.length⟩ (decide (t = 0 ∨ 3 ≤ vsPhase t ∧ vsPhase t ≤ 11))
  { s' with fifo := if 3 ≤ vsPhase (t + 1) ∧ vsPhase (t + 1) ≤ 11 then [] else s'.fifo }

section Loop

variable {img : ℕ → Bool} {t : ℕ}

lemma start_closedLoop (t : ℕ) : (closedLoop img).start t = loopAt img t := by
  induction t with
  | zero => rfl
  | succ t ih =>
    have hx : ((closedLoop img).burst t)[0]? = some (loopIn img t (loopAt img t)) := rfl
    rw [Run.start_succ, Run.final_eq]
    change ((closedLoop img).point t (0 + 1)).edge25 _ = _
    rw [Run.point_succ hx, Run.point_zero, ih]
    rfl

variable (img) in
lemma twoToOne_closedLoop : (closedLoop img).TwoToOne := fun _ _ => Or.inl rfl

variable (img) in
lemma honest_closedLoop : (closedLoop img).Honest := by
  intro t i x hx
  obtain ⟨hi, hx'⟩ := List.getElem?_eq_some_iff.1 hx
  have h0 : i = 0 := Nat.lt_one_iff.1 hi
  subst h0
  rw [← hx', Run.point_zero, start_closedLoop]
  rfl

lemma flushing_closedLoop : (closedLoop img).Flushing t ↔ 3 ≤ vsPhase t ∧ vsPhase t ≤ 11 :=
  and_iff_right rfl

variable (img) in
lemma vgaFrameDone_closedLoop (t : ℕ) :
    ((closedLoop img).start t).vgaFrameDone = decide (vsPhase t = 1) := by
  cases t with
  | zero =>
    have hv : ((closedLoop img).start 0).vsSync = 0b11 := rfl
    rw [DoanTop.vgaFrameDone, hv]
    simp [vsPhase]
  | succ t =>
    have h := Run.vgaFrameDone_final (twoToOne_closedLoop img).linked t
    have hph : vsPhase (t + 1) = 1 ↔ vsPhase t = 0 := by unfold vsPhase; omega
    rw [Run.start_succ]
    change ((closedLoop img).final t).vgaFrameDone = _
    rw [h, decide_eq_decide, hph]
    exact and_iff_left rfl

variable (img) in
lemma fifoAclr_closedLoop (t : ℕ) :
    ((closedLoop img).start t).fifoAclr = decide (t = 0 ∨ 3 ≤ vsPhase t ∧ vsPhase t ≤ 11) := by
  have h := Run.aclr_iff (twoToOne_closedLoop img).linked t
  rw [flushing_closedLoop] at h
  rw [Bool.eq_iff_iff, decide_eq_true_eq]
  exact h

/-- **The read path of the loop** follows `loopStep` as long as nothing is requested. -/
theorem path_closedLoop_succ (h : ¬ Requests t) :
    ((closedLoop img).start (t + 1)).path = loopStep img t ((closedLoop img).start t).path := by
  have hfin : (closedLoop img).final t =
      ((closedLoop img).start t).edge50 lowHalf (loopIn img t ((closedLoop img).start t)) := by
    rw [Run.final_eq, start_closedLoop, ← start_closedLoop]
    exact Run.point_succ (i := 0) (by rw [start_closedLoop]; rfl)
  have hpath : ((closedLoop img).final t).path = ((closedLoop img).start t).path.edge
      ⟨img t, decide (vsPhase t = 1), false, some 0, lowHalf,
        BitVec.ofNat 11 ((closedLoop img).start t).path.fifo.length⟩
      (decide (t = 0 ∨ 3 ≤ vsPhase t ∧ vsPhase t ≤ 11)) := by
    rw [hfin, ← vgaFrameDone_closedLoop img, ← fifoAclr_closedLoop img]
    rfl
  rw [Run.start_succ, loopStep, ← hpath, DoanTop.edge25, Run.vgaFifoRdreq_final h,
    Run.nextAclr_final (twoToOne_closedLoop img).linked]
  simp only [flushing_closedLoop, decide_eq_true_eq, Bool.false_eq_true, if_false]

variable (img) in
/-- Over a stretch without requests. -/
lemma path_closedLoop_add (t k : ℕ) (h : ∀ j < k, ¬ Requests (t + j)) :
    ((closedLoop img).start (t + k)).path =
      (List.range' t k).foldl (fun s u => loopStep img u s) ((closedLoop img).start t).path := by
  induction k with
  | zero => rfl
  | succ k ih =>
    rw [← Nat.add_assoc, path_closedLoop_succ (h k (by omega)), ih fun j hj => h j (by omega),
      List.range'_1_concat, List.foldl_append]
    rfl

/-- The read path before the picture is loaded. -/
def idlePath : ReadPath := ⟨{ SdramReadController.reset with readingFlag := true }, [], []⟩

lemma loopStep_idle (himg : img t = false) (h : vsPhase t ≠ 1) :
    loopStep img t idlePath = idlePath := by
  unfold loopStep
  rw [himg, decide_eq_false h]
  generalize decide (t = 0 ∨ 3 ≤ vsPhase t ∧ vsPhase t ≤ 11) = b
  cases b <;> split_ifs <;> rfl

lemma loopStep_reset (himg : img 0 = false) : loopStep img 0 .reset = idlePath := by
  unfold loopStep
  rw [himg, decide_eq_false (by decide)]
  generalize decide (0 = 0 ∨ 3 ≤ vsPhase 0 ∧ vsPhase 0 ≤ 11) = b
  cases b <;> split_ifs <;> rfl

lemma not_requests_of_lt (h : t < 36160) : ¬ Requests t := by
  unfold Requests
  omega

/-- In the first blanking nothing happens as long as the picture is not loaded. -/
lemma path_closedLoop_idle (h1 : 1 ≤ t) (ht : t ≤ 9606) (himg : ∀ u < t, img u = false) :
    ((closedLoop img).start t).path = idlePath := by
  induction t, h1 using Nat.le_induction with
  | base =>
    rw [path_closedLoop_succ (not_requests_of_lt (by omega))]
    exact loopStep_reset (himg 0 (by omega))
  | succ t h1 ih =>
    rw [path_closedLoop_succ (not_requests_of_lt (by omega)),
      ih (by omega) fun u hu => himg u (by omega)]
    refine loopStep_idle (himg t (by omega)) ?_
    unfold vsPhase
    omega

end Loop

/-! ### A command placed too early -/

/-- The picture is loaded a little before the first rise of the vertical sync, in cycle 9606. -/
def late (t : ℕ) : Bool := decide (9600 ≤ t)

/-- The read path `k` cycles after the picture is loaded. -/
def latePath (k : ℕ) : ReadPath :=
  (List.range' 9600 k).foldl (fun s u => loopStep late u s) idlePath

lemma path_late {k : ℕ} (h : k ≤ 26560) :
    ((closedLoop late).start (9600 + k)).path = latePath k := by
  have himg : ∀ u < 9600, late u = false := fun u hu => decide_eq_false (by omega)
  rw [path_closedLoop_add late 9600 k fun j hj => not_requests_of_lt (by omega),
    path_closedLoop_idle (by omega) (by omega) himg]
  rfl

/-- The picture is loaded when the flush of the first frame is over. -/
def later (t : ℕ) : Bool := decide (9620 ≤ t)

lemma frameReady_later {k : ℕ} (h : k ≤ 11) :
    ((closedLoop later).start (9606 + k)).path.ctl.frameReady = false := by
  have himg : ∀ u < 9606, later u = false := fun u hu => decide_eq_false (by omega)
  rw [path_closedLoop_add later 9606 k fun j hj => not_requests_of_lt (by omega),
    path_closedLoop_idle (by omega) (by omega) himg]
  interval_cases k <;> decide +kernel

lemma rises_closedLoop (img : ℕ → Bool) : (closedLoop img).Rises 9606 :=
  (Run.rises_iff _).2 (by simp [vsPhase])

theorem ordered_iff_later : (closedLoop later).Ordered 9606 ∧
    ((closedLoop late).Ordered 9606 ↔
      ∀ t i, (closedLoop late).Window 9606 t → i < ((closedLoop late).burst t).length →
        (closedLoop late).restarts 9606 0 < (closedLoop late).restarts t i →
          (closedLoop late).Guarded t i) := by
  refine ⟨(Run.ordered_iff (twoToOne_closedLoop later) (honest_closedLoop later).reportsClear
    (rises_closedLoop later)).2 fun t i hw hi _ => Or.inr (Or.inl ?_), Run.ordered_iff
      (twoToOne_closedLoop late) (honest_closedLoop late).reportsClear (rises_closedLoop late)⟩
  -- the picture is not loaded before the flush is over
  obtain ⟨-, hle, h11⟩ := (Run.window_iff (twoToOne_closedLoop later).linked
    (rises_closedLoop later)).1 hw
  obtain ⟨k, rfl⟩ := Nat.exists_eq_add_of_le hle
  obtain rfl : i = 0 := Nat.lt_one_iff.1 hi
  exact frameReady_later (by omega)

lemma restartsAt_late : (closedLoop late).RestartsAt
    ((closedLoop late).point 9610 0, loopIn late 9610 (loopAt late 9610)) := by
  have hp := path_late (show 10 ≤ 26560 by omega)
  have hpend : (latePath 10).ctl.vgaResetPending = true := by decide +kernel
  change ((closedLoop late).start (9600 + 10)).path.ctl.restarts
    (((closedLoop late).start (9600 + 10)).ctlIn lowHalf _) = true
  rw [hp, SdramReadController.restarts, hpend, stalled]
  cases (latePath 10).ctl.avmRead <;> rfl

lemma issuesAt_late : (closedLoop late).IssuesAt
    ((closedLoop late).point 9611 0, loopIn late 9611 (loopAt late 9611)) := by
  have hp := path_late (show 11 ≤ 26560 by omega)
  have hsafe : (latePath 11).ctl.safeToRead = true := by decide +kernel
  have hneed : (latePath 11).ctl.needToRead = true := by decide +kernel
  change ((closedLoop late).start (9600 + 11)).path.ctl.issues
    (((closedLoop late).start (9600 + 11)).ctlIn lowHalf _) = true
  rw [hp, issues, hsafe, hneed, stalled]
  cases (latePath 11).ctl.avmRead <;> rfl

/-- Five cycles after the first rise a command of the new frame is placed, six cycles before the
flush ends. -/
theorem not_all_ordered : ¬ ∀ r : Run, r.TwoToOne → r.Honest → ∀ t₀, r.Rises t₀ → r.Ordered t₀ := by
  intro h
  have h2 := twoToOne_closedLoop late
  have hord := h _ h2 (honest_closedLoop late) 9606 (rises_closedLoop late)
  have hw : (closedLoop late).Window 9606 9611 :=
    (Run.window_iff h2.linked (rises_closedLoop late)).2 ⟨rfl, by omega, by omega⟩
  refine hord 9611 0 _ hw rfl ?_ issuesAt_late
  have hmono := Run.restarts_mono (r := closedLoop late) (show 9606 ≤ 9610 by omega)
  have hstep := Run.restarts_succ (r := closedLoop late) (t := 9610) (i := 0) rfl
  rw [if_pos restartsAt_late] at hstep
  have hcyc : (closedLoop late).restarts 9611 0 = (closedLoop late).restarts 9610 (0 + 1) :=
    Run.restarts_cycle
  omega

end VideoPipeline.Top

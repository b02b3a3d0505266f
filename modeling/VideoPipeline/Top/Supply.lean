import VideoPipeline.Lib.Backlog
import VideoPipeline.Read.Supply
import VideoPipeline.Top.Integrity

/-!
The supply of the FIFO. What the display relies on of the vendor parts are terms on the bus and
on the two flags of the FIFO: how many reads stay unanswered and for how long, how far the bus
may fall behind the display, and how late each side of the FIFO learns of the other. Under these
terms a controller that has been fetching for 511 cycles never lets the FIFO run empty: either
its hysteresis is off, and the FIFO has reported 512 words, or a word has come under way for
every word taken, but for the lag of the bus.
-/

namespace VideoPipeline.Top

open VideoPipeline.Lib VideoPipeline.Vga VideoPipeline.Image VideoPipeline.Read
  SdramReadController

/-- Terms on the bus and the FIFO, which leave some words of the 512 at which reading starts. -/
structure Terms where
  unanswered : ℕ
  latency : ℕ
  lag : ℕ
  stale : ℕ
  dark : ℕ
  fits : unanswered + latency + lag + stale ≤ 500
  dark_le : dark ≤ 4000

namespace Run

section Histories

variable (r : Run)

instance : DecidablePred r.StalledAt := fun e => by unfold StalledAt; infer_instance
instance : DecidablePred r.IssuesAt := fun e => by unfold IssuesAt; infer_instance
instance : DecidablePred r.Popped := fun t => by unfold Popped; infer_instance

/-- The edges before a point of the run: `true` for one of `clk_25m_vga`, at which a word can be
taken from the FIFO, `false` for one of `clk_50m_sys` at which no command waits. -/
def progress (t i : ℕ) : List Bool :=
  r.clocks.history (fun s x l => if r.StalledAt (s, x) then l else l ++ [false])
    (fun _ _ l => l ++ [true]) [] t i

/-- How far the bus is behind the display. -/
def lead (t i : ℕ) : ℕ := backlog (r.progress t i)

/-- The edges of `clk_50m_sys` since one that found a command on the bus. -/
def quiet (t i : ℕ) : ℕ :=
  r.clocks.history (fun s _ n => if s.path.ctl.avmRead then 0 else n + 1) (fun _ _ n => n) 0 t i

/-- The bus and the FIFO keep the terms `q`. -/
structure Keeps (q : Terms) : Prop where
  unanswered : ∀ t i, i ≤ (r.burst t).length → (r.point t i).path.bus.length ≤ q.unanswered
  /-- All reads are answered some edges after the last command. -/
  latency : ∀ t i, i ≤ (r.burst t).length → q.latency ≤ r.quiet t i → (r.point t i).path.bus = []
  /-- In every stretch of time the bus is ready for a command as often as a word can be taken,
  but for the lag. -/
  pace : ∀ t i l, i ≤ (r.burst t).length → l <:+ r.progress t i →
    l.count true ≤ l.count false + q.lag
  /-- The write side misses at most two words, and knows of all pops but the last ones. -/
  counted : ∀ t i x, (r.burst t)[i]? = some x →
    (r.point t i).path.fifo.length ≤ x.vgaFifoWrusedw.toNat + 2
  reported : ∀ t i x, (r.burst t)[i]? = some x → x.vgaFifoWrusedw.toNat ≤
    (r.point t i).path.fifo.length + (Nat.count r.Popped t - Nat.count r.Popped (t - q.stale))
  /-- The read side sees its words some cycles after the FIFO was empty. -/
  shown : ∀ t, (r.vga t).rdemptyLags = true →
    ∃ u ≤ t, t < u + q.dark ∧ (r.start u).path.fifo = []

end Histories

variable {r : Run} {q : Terms} {t t₀ a i : ℕ} {x : SysIn}

/-! ### The histories from point to point -/

lemma lead_succ (hx : (r.burst t)[i]? = some x) : r.lead t (i + 1) =
    if r.StalledAt (r.point t i, x) then r.lead t i else r.lead t i - 1 := by
  rw [lead, progress, TwoClock.history_succ hx]
  change backlog (if r.StalledAt (r.point t i, x) then _ else _) = _
  split_ifs
  · rfl
  · rw [backlog_concat]
    rfl

lemma lead_cycle : r.lead (t + 1) 0 = r.lead t (r.burst t).length + 1 := by
  rw [lead, progress, TwoClock.history_cycle, backlog_concat]
  rfl

lemma quiet_succ (hx : (r.burst t)[i]? = some x) : r.quiet t (i + 1) =
    if (r.point t i).path.ctl.avmRead then 0 else r.quiet t i + 1 :=
  TwoClock.history_succ hx

lemma quiet_cycle : r.quiet (t + 1) 0 = r.quiet t (r.burst t).length := TwoClock.history_cycle

lemma Keeps.lead_le (hk : r.Keeps q) (hi : i ≤ (r.burst t).length) : r.lead t i ≤ q.lag :=
  backlog_le_iff.2 fun l hl => hk.pace t i l hi hl

lemma Keeps.bounded (hk : r.Keeps q) (hi : i ≤ (r.burst t).length) :
    Bounded q.unanswered (r.point t i).path := by
  have hfits := q.fits
  exact bounded_of_reports (by omega) (fun t i x hx _ => hk.counted t i x hx) hk.unanswered hi

lemma Keeps.roomy (hk : r.Keeps q) : r.Roomy := by
  intro t i x hx _ _
  have := (hk.bounded (lt_of_burst hx).le).total
  have := q.fits
  omega

lemma counted_point (hi : i ≤ (r.burst t).length) : Counted (r.point t i).path.ctl := by
  refine invariant (P := fun t i => Counted (r.point t i).path.ctl) counted_reset ?_ ?_ hi
  · intro t i x hx h
    rw [ctl_point_succ hx]
    exact h.edge _
  · intro t h
    rw [point_zero, ctl_start_succ]
    exact h

/-! ### The number of words under way -/

/-- An edge of `clk_50m_sys` outside the clear. -/
lemma underWay_point_succ (hroom : r.Roomy) (hx : (r.burst t)[i]? = some x) (hc : ¬ r.Aclr t) :
    (r.point t (i + 1)).path.underWay =
      (r.point t i).path.underWay + if r.IssuesAt (r.point t i, x) then 1 else 0 := by
  have hclr : (r.point t i).fifoAclr = false := by
    rw [fifoAclr_point]
    exact Bool.eq_false_iff.2 hc
  rw [point_succ hx, DoanTop.edge50, hclr]
  exact ReadPath.underWay_edge (hroom t i x hx hc)

/-- An edge of `clk_25m_vga` touches the FIFO only. -/
lemma underWay_start (t : ℕ) :
    (r.start (t + 1)).path.underWay + (r.final t).path.fifo.length =
      (r.final t).path.underWay + (r.start (t + 1)).path.fifo.length := by
  rw [ReadPath.underWay, ReadPath.underWay, ReadPath.onBus, ReadPath.onBus, ctl_start_succ,
    bus_start_succ]
  omega

lemma fifo_start_le (t : ℕ) :
    (r.start (t + 1)).path.fifo.length ≤ (r.final t).path.fifo.length := by
  rw [fifo_start_succ]
  split_ifs <;> simp

lemma underWay_start_le (t : ℕ) :
    (r.start (t + 1)).path.underWay ≤ (r.final t).path.underWay := by
  have hway := underWay_start (r := r) t
  have hfifo := fifo_start_le (r := r) t
  omega

/-- The word taken is under way no more. -/
lemma underWay_start_of_popped (hp : r.Popped t) :
    (r.start (t + 1)).path.underWay + 1 ≤ (r.final t).path.underWay := by
  have hway := underWay_start (r := r) t
  obtain ⟨l, hwl⟩ := fifo_of_popped hp
  have hp' : (r.final t).vgaFifoRdreq (r.vga t) = true := hp
  have hfifo : (r.start (t + 1)).path.fifo.length + 1 ≤ (r.final t).path.fifo.length := by
    rw [fifo_start_succ, if_pos hp', hwl]
    split_ifs <;> simp
  omega

/-- An edge of `clk_25m_vga` that does not start a clear. -/
lemma underWay_start_succ (hc : ¬ r.Aclr (t + 1)) :
    (r.start (t + 1)).path.underWay + (if r.Popped t then 1 else 0) =
      (r.final t).path.underWay := by
  have hway := underWay_start (r := r) t
  have hnext : (r.final t).nextAclr = false := by
    rw [← fifoAclr_start_succ]
    exact Bool.eq_false_iff.2 hc
  rw [fifo_start_succ, hnext, if_neg Bool.false_ne_true] at hway
  by_cases hp : r.Popped t
  · obtain ⟨l, hwl⟩ := fifo_of_popped hp
    have hp' : (r.final t).vgaFifoRdreq (r.vga t) = true := hp
    rw [if_pos hp', hwl, List.tail_cons, List.length_cons] at hway
    rw [if_pos hp]
    omega
  · have hp' : ¬ (r.final t).vgaFifoRdreq (r.vga t) = true := hp
    rw [if_neg hp'] at hway
    rw [if_neg hp]
    omega

/-- An edge that finds the FIFO empty, also one that starts a clear. -/
lemma underWay_start_of_nil (h : (r.final t).path.fifo = []) :
    (r.start (t + 1)).path.underWay = (r.final t).path.underWay := by
  have hway := underWay_start (r := r) t
  have hfifo := fifo_start_le (r := r) t
  rw [h, List.length_nil] at hway hfifo
  omega

/-! ### What the hysteresis says -/

lemma count_sub_le (p : ℕ → Prop) [DecidablePred p] (n k : ℕ) :
    Nat.count p n - Nat.count p (n - k) ≤ k := by
  rcases Nat.le_total k n with h | h
  · obtain ⟨m, rfl⟩ := Nat.exists_eq_add_of_le' h
    have := Nat.count_le (p := fun j => p (m + j)) (n := k)
    rw [Nat.add_sub_cancel, Nat.count_add]
    omega
  · have := Nat.count_le (p := p) (n := n)
    omega

/-- Reading is switched off only while the FIFO reports 512 words or more. -/
lemma le_of_not_readingFlag {s : SdramReadController} {i : CtlIn}
    (h : (s.edge i).readingFlag = false) : 512 ≤ i.fifoWrusedw.toNat := by
  have h512 : (512 : BitVec 11).toNat = 512 := rfl
  rw [readingFlag_edge] at h
  by_contra hlt
  rw [if_pos (by rw [BitVec.lt_def, h512]; omega)] at h
  cases h

lemma Keeps.fifo_of_not_reading_succ (hk : r.Keeps q) (hx : (r.burst t)[i]? = some x)
    (hf : (r.point t (i + 1)).path.ctl.readingFlag = false) :
    512 ≤ (r.point t i).path.fifo.length + q.stale := by
  rw [ctl_point_succ hx] at hf
  have hused : 512 ≤ x.vgaFifoWrusedw.toNat := le_of_not_readingFlag hf
  have hrep := hk.reported t i x hx
  have := count_sub_le r.Popped t q.stale
  omega

lemma fifo_le_point_succ (hx : (r.burst t)[i]? = some x) (hc : ¬ r.Aclr t) :
    (r.point t i).path.fifo.length ≤ (r.point t (i + 1)).path.fifo.length :=
  (fifo_prefix_edge50 hx hc).length_le

/-- While reading is switched off there are words in the FIFO, but for those that the report
does not know to be taken. -/
theorem Keeps.fifo_of_not_reading (hk : r.Keeps q) (hl : r.Linked) (ht : 2 ≤ t) (hc : ¬ r.Aclr t)
    (hi : i ≤ (r.burst t).length) (hf : (r.point t i).path.ctl.readingFlag = false) :
    511 ≤ (r.point t i).path.fifo.length + q.stale := by
  cases i with
  | zero =>
    -- the last edge of the cycle before switched it off, and one word was taken since
    obtain ⟨t, rfl⟩ := Nat.exists_eq_add_of_le' (show 1 ≤ t by omega)
    obtain ⟨i, hlast⟩ := Nat.exists_eq_add_of_le' (hl t (by omega))
    have hx := List.getElem?_eq_getElem (show i < (r.burst t).length by omega)
    rw [point_zero, ctl_start_succ, final_eq, hlast] at hf
    have hused := hk.fifo_of_not_reading_succ hx hf
    have hc' : ¬ r.Aclr t := by
      intro h
      have hfits := q.fits
      rw [fifo_of_aclr (by omega) h, List.length_nil] at hused
      omega
    have hle := fifo_le_point_succ hx hc'
    have hnext : (r.final t).nextAclr = false := by
      rw [← fifoAclr_start_succ]
      exact Bool.eq_false_iff.2 hc
    rw [point_zero, fifo_start_succ, hnext, if_neg Bool.false_ne_true, final_eq, hlast]
    split_ifs
    · rw [List.length_tail]
      omega
    · omega
  | succ i =>
    have hx := List.getElem?_eq_getElem (show i < (r.burst t).length by omega)
    have hused := hk.fifo_of_not_reading_succ hx hf
    have hle := fifo_le_point_succ hx hc
    omega

/-! ### The enable on its way -/

/-- The registers of the enable hold what `img_loaded` has been for as many edges. -/
lemma camDoneSync_of_const {e b : ℕ} {v : Bool} (hl : r.Linked) (he : 1 ≤ e)
    (h : ∀ t, e ≤ t → t < b → ∀ x ∈ r.burst t, x.pioImgLoaded = v)
    (hi : i ≤ (r.burst t).length) (het : e ≤ t) (htb : t < b) {j : ℕ} (hj : j < 3)
    (hn : j < t - e + i) : (r.point t i).path.ctl.camDoneSync.getLsbD j = v := by
  refine invariant (P := fun t i => e ≤ t → t < b → ∀ j < 3, j < t - e + i →
    (r.point t i).path.ctl.camDoneSync.getLsbD j = v) ?_ ?_ ?_ hi het htb j hj hn
  · intro h0
    omega
  · intro t i x hx ih h1 h2 j hj hn
    rw [ctl_point_succ hx, camDoneSync_edge]
    cases j with
    | zero =>
      rw [shiftConcat_bit_zero _ _ hj]
      exact h t h1 h2 x (List.mem_of_getElem? hx)
    | succ j =>
      rw [shiftConcat_bit_succ _ _ hj]
      exact ih h1 h2 j (by omega) (by omega)
  · intro t ih h1 h2 j hj hn
    rw [point_zero, ctl_start_succ, final_eq]
    rcases Nat.lt_or_ge t e with hlt | hge
    · omega
    · have := hl t (by omega)
      exact ih hge (by omega) j hj (by omega)

lemma frameReady_of_const {e b : ℕ} {v : Bool} (hl : r.Linked) (he : 1 ≤ e)
    (h : ∀ t, e ≤ t → t < b → ∀ x ∈ r.burst t, x.pioImgLoaded = v)
    (hi : i ≤ (r.burst t).length) (het : e + 3 ≤ t) (htb : t < b) :
    (r.point t i).path.ctl.frameReady = v :=
  camDoneSync_of_const hl he h hi (by omega) htb (by omega) (by omega)

/-! ### A controller that fetches -/

lemma vsPhase_of_rises (ht₀ : r.Rises t₀) (hle : t₀ ≤ t) (htb : t < t₀ + 420000) :
    vsPhase t = t - t₀ := by
  have h0 := (rises_iff t₀).1 ht₀
  obtain ⟨k, rfl⟩ := Nat.exists_eq_add_of_le hle
  rw [vsPhase_add h0 (by omega), Nat.add_sub_cancel_left]

lemma not_aclr_of_rises (hl : r.Linked) (ht₀ : r.Rises t₀) (hle : t₀ + 12 ≤ t)
    (htb : t < t₀ + 420000) : ¬ r.Aclr t := by
  have hph := vsPhase_of_rises ht₀ (by omega) htb
  rw [aclr_iff hl]
  rintro (h0 | hf)
  · omega
  · have := hf.2
    omega

variable (r) in
/-- The controller is not held up by a restart or by a flush. -/
structure Open (t i : ℕ) : Prop where
  pending : (r.point t i).path.ctl.vgaResetPending = false
  wait : (r.point t i).path.ctl.flushWait = false

/-- Between the flush and the next rise it stays so. -/
lemma Open.of_le (hl : r.Linked) (ht₀ : r.Rises t₀) (ha : t₀ + 12 ≤ a) (h : r.Open a 0)
    (hat : a ≤ t) (htb : t < t₀ + 420000) (hi : i ≤ (r.burst t).length) : r.Open t i := by
  refine invariant (P := fun t i => a ≤ t → t < t₀ + 420000 → r.Open t i) ?_ ?_ ?_ hi hat htb
  · intro h0
    omega
  · intro t i x hx ih h1 h2
    obtain ⟨hp, hw⟩ := ih h1 h2
    have hle := vsPhase_le_since hl t i
    have hph := vsPhase_of_rises ht₀ (by omega) h2
    have hne : ¬ r.since t i = 3 := by omega
    have hpulse : (r.point t i).path.ctl.vgaDonePulse = false := by
      rw [vgaDonePulse_point hl (lt_of_burst hx).le]
      exact decide_eq_false hne
    constructor
    · rw [ctl_point_succ hx, vgaResetPending_edge, hpulse, hp]
      simp
    · rw [ctl_point_succ hx, flushWait_edge, hpulse, hw]
      simp
  · intro t ih h1 h2
    rcases Nat.lt_or_ge t a with hlt | hge
    · obtain rfl : a = t + 1 := by omega
      exact h
    · obtain ⟨hp, hw⟩ := ih hge (by omega)
      constructor <;> rw [point_zero, ctl_start_succ, final_eq]
      exacts [hp, hw]

/-- From cycle `a` of the frame that begins with the rise `t₀` on the controller fetches: flush
and restart are over, the picture is loaded, and the requests are yet to come. -/
structure Fetches (r : Run) (t₀ a : ℕ) : Prop where
  rise : r.Rises t₀
  flushed : t₀ + 12 ≤ a
  quiet : ∀ t, a ≤ t → t < a + 511 → ¬ Requests t
  opened : r.Open a 0
  loaded : ∀ t, a ≤ t + 3 → t < t₀ + 420000 → ∀ x ∈ r.burst t, x.pioImgLoaded = true

namespace Fetches

variable (h : r.Fetches t₀ a)

include h

lemma not_aclr (hl : r.Linked) (hat : a ≤ t) (htb : t < t₀ + 420000) : ¬ r.Aclr t :=
  not_aclr_of_rises hl h.rise (h.flushed.trans hat) htb

lemma ready (hl : r.Linked) (hat : a ≤ t) (htb : t < t₀ + 420000)
    (hi : i ≤ (r.burst t).length) : (r.point t i).path.ctl.frameReady = true := by
  have ha := h.flushed
  exact frameReady_of_const hl (show 1 ≤ a - 3 by omega)
    (fun t h1 h2 => h.loaded t (by omega) h2) hi (by omega) htb

lemma open_point (hl : r.Linked) (hat : a ≤ t) (htb : t < t₀ + 420000)
    (hi : i ≤ (r.burst t).length) : r.Open t i :=
  h.opened.of_le hl h.rise h.flushed hat htb hi

/-- While reading is switched on and the picture is not complete, a command is placed at every
edge at which none waits. -/
lemma issuesAt (hl : r.Linked) (hat : a ≤ t) (htb : t < t₀ + 420000)
    (hx : (r.burst t)[i]? = some x) (hf : (r.point t i).path.ctl.readingFlag = true)
    (hcnt : (r.point t i).path.ctl.reqCnt.toNat < 307200)
    (hst : ¬ r.StalledAt (r.point t i, x)) : r.IssuesAt (r.point t i, x) := by
  have hi := (lt_of_burst hx).le
  obtain ⟨hp, hw⟩ := h.open_point hl hat htb hi
  exact issues_iff.2 ⟨Bool.eq_false_iff.2 hst, hf, h.ready hl hat htb hi, hw, hp, hcnt⟩

end Fetches

/-! ### The level -/

variable (r) in
/-- When the picture is complete, the edges since its last command: at so many edges the bus had
nothing to wait for. -/
def spare (t i : ℕ) : ℕ :=
  if (r.point t i).path.ctl.reqCnt.toNat = 307200 ∧ (r.point t i).path.ctl.avmRead = false then
    r.quiet t i + 1
  else 0

variable (r) in
/-- The words under way, and the edges at which there may have been too few commands. -/
def level (t i : ℕ) : ℕ := (r.point t i).path.underWay + r.lead t i + r.spare t i

namespace Fetches

variable (h : r.Fetches t₀ a)

include h

/-- Once the picture is complete, an edge at which no command waits is one to spare. -/
lemma spare_succ (hl : r.Linked) (hat : a ≤ t) (htb : t < t₀ + 420000)
    (hx : (r.burst t)[i]? = some x) (hcnt : (r.point t i).path.ctl.reqCnt.toNat = 307200) :
    ¬ r.IssuesAt (r.point t i, x) ∧ r.lead t i + r.spare t i ≤
      r.lead t (i + 1) + r.spare t (i + 1) := by
  have hi := (lt_of_burst hx).le
  have hlead := lead_succ hx
  have hquiet := quiet_succ hx
  have his : ¬ r.IssuesAt (r.point t i, x) := by
    intro his
    have hlt : (r.point t i).path.ctl.reqCnt.toNat < 307200 := (issues_iff.1 his).need
    omega
  have hre : (r.point t i).path.ctl.restarts ((r.point t i).ctlIn r.mem x) = false := by
    refine Bool.eq_false_iff.2 fun hr => ?_
    exact Bool.false_ne_true ((h.open_point hl hat htb hi).pending.symm.trans (pending_of_restarts hr))
  have hcnt' : (r.point t (i + 1)).path.ctl.reqCnt.toNat = 307200 := by
    rw [ctl_point_succ hx, reqCnt_of_not_issues hre (Bool.eq_false_iff.2 his), hcnt]
  have hrd : (r.point t (i + 1)).path.ctl.avmRead =
      (r.point t i).path.ctl.stalled ((r.point t i).ctlIn r.mem x) := by
    rw [ctl_point_succ hx, avmRead_edge, Bool.eq_false_iff.2 his, Bool.or_false]
  refine ⟨his, ?_⟩
  unfold spare
  rw [hlead, hquiet, hcnt, hcnt', hrd]
  by_cases hst : r.StalledAt (r.point t i, x)
  · have hst' : (r.point t i).path.ctl.stalled ((r.point t i).ctlIn r.mem x) = true := hst
    rw [if_pos hst, hst', avmRead_of_stalled hst']
    simp
  · rw [if_neg hst, Bool.eq_false_iff.2 hst]
    cases (r.point t i).path.ctl.avmRead <;> simp <;> omega

/-- An edge of `clk_50m_sys` keeps the level, or reading is switched off and words are left. -/
lemma level_succ (hl : r.Linked) (hk : r.Keeps q) (hat : a ≤ t) (htb : t < t₀ + 420000)
    (hx : (r.burst t)[i]? = some x) :
    r.level t i ≤ r.level t (i + 1) ∨ 511 ≤ r.level t (i + 1) + q.stale := by
  have hi := (lt_of_burst hx).le
  have hc := h.not_aclr hl hat htb
  have hway := underWay_point_succ hk.roomy hx hc
  have hlead := lead_succ hx
  have hcnt : (r.point t i).path.ctl.reqCnt.toNat ≤ 307200 := (counted_point hi).le
  unfold level
  rcases hcnt.lt_or_eq with hlt | hcomplete
  · have hspare : r.spare t i = 0 := if_neg fun hs => by omega
    cases hf : (r.point t i).path.ctl.readingFlag with
    | true =>
      left
      by_cases hst : r.StalledAt (r.point t i, x)
      · rw [if_pos hst] at hlead
        omega
      · rw [if_neg hst] at hlead
        rw [if_pos (h.issuesAt hl hat htb hx hf hlt hst)] at hway
        omega
    | false =>
      right
      have ha := h.flushed
      have hrise := (rises_iff t₀).1 h.rise
      have hused := hk.fifo_of_not_reading hl (by omega) hc hi hf
      have hle : (r.point t i).path.fifo.length ≤ (r.point t i).path.underWay := by
        unfold ReadPath.underWay
        omega
      omega
  · obtain ⟨his, hsp⟩ := h.spare_succ hl hat htb hx hcomplete
    rw [if_neg his] at hway
    omega

/-- **The level** rises in every cycle without a request, up to 511 words. -/
theorem le_level (hl : r.Linked) (hk : r.Keeps q) (hat : a ≤ t) (htb : t < t₀ + 420000)
    (hi : i ≤ (r.burst t).length) :
    min 511 (t - a) ≤ r.level t i + q.stale := by
  refine invariant (P := fun t i => a ≤ t → t < t₀ + 420000 →
    min 511 (t - a) ≤ r.level t i + q.stale) ?_ ?_ ?_ hi hat htb
  · intro _ _
    omega
  · intro t i x hx ih h1 h2
    have := ih h1 h2
    rcases h.level_succ hl hk h1 h2 hx with hle | hle <;> omega
  · intro t ih h1 h2
    rcases Nat.lt_or_ge t a with hlt | hge
    · omega
    · have hlev := ih hge (by omega)
      have hway := underWay_start_succ (h.not_aclr hl h1 h2)
      have hspare : r.spare (t + 1) 0 = r.spare t (r.burst t).length := by
        unfold spare
        rw [point_zero, ctl_start_succ, quiet_cycle, final_eq]
      unfold level at hlev ⊢
      rw [hspare, lead_cycle, point_zero]
      rw [final_eq] at hway
      rcases Nat.lt_or_ge t (a + 511) with hpre | hpost
      · -- nothing is taken while the FIFO fills
        have hp : ¬ r.Popped t := fun hp => h.quiet t hge hpre ((popped_iff t).1 hp).1
        rw [if_neg hp] at hway
        omega
      · split_ifs at hway <;> omega

/-- After 511 cycles of fetching there is a word in the FIFO as long as any is under way. -/
lemma fifo_ne_nil (hl : r.Linked) (hk : r.Keeps q) (hat : a + 511 ≤ t) (htb : t < t₀ + 420000)
    (hi : i ≤ (r.burst t).length) (hway : 1 ≤ (r.point t i).path.underWay) :
    (r.point t i).path.fifo ≠ [] := by
  intro hf
  have hlev := h.le_level hl hk (by omega) htb hi
  have hlead := hk.lead_le hi
  have hbus := hk.unanswered t i hi
  have hfits := q.fits
  have hlat := hk.latency t i hi
  unfold level spare ReadPath.underWay ReadPath.onBus at hlev
  unfold ReadPath.underWay ReadPath.onBus at hway
  rw [hf, List.length_nil] at hlev hway
  cases hrd : (r.point t i).path.ctl.avmRead with
  | true =>
    simp only [hrd, if_true, Bool.true_eq_false, and_false, if_false] at hlev
    omega
  | false =>
    -- what is under way is unanswered, so the last command is not long ago
    simp only [hrd, Bool.false_eq_true, if_false] at hlev hway
    have hquiet : r.quiet t i < q.latency := by
      by_contra hle
      rw [hlat (by omega), List.length_nil] at hway
      omega
    split_ifs at hlev <;> omega

/-- **The supply.** To the end of the frame the FIFO has room for all that is under way, and does
not run empty while anything is. -/
theorem supplied (hl : r.Linked) (hk : r.Keeps q) (hat : a + 511 ≤ t) (htb : t < t₀ + 420000)
    (hi : i ≤ (r.burst t).length) : (r.point t i).path.underWay ≤ 2048 ∧
      (1 ≤ (r.point t i).path.underWay → (r.point t i).path.fifo ≠ []) := by
  have htotal := (hk.bounded hi).total
  have hfits := q.fits
  refine ⟨?_, h.fifo_ne_nil hl hk hat htb hi⟩
  unfold ReadPath.underWay
  omega

end Fetches

end Run

end VideoPipeline.Top

import VideoPipeline.Top.Service

/-!
Recovery. A display that is switched off for a whole frame comes to rest, whatever has happened
before: no command is placed any more, the command on the bus is taken and the reads are
answered, a pending restart is executed, and the requests of the frame drain the FIFO. Switched on
again it is served as from reset.
-/

namespace VideoPipeline.Top

open VideoPipeline.Lib VideoPipeline.Vga VideoPipeline.Image VideoPipeline.Read
  SdramReadController

namespace Run

variable {r : Run} {q : Terms} {t t₀ b e i : ℕ} {x : SysIn}

/-! ### Without commands -/

lemma not_issuesAt_of_not_ready (h : (r.point t i).path.ctl.frameReady = false) :
    ¬ r.IssuesAt (r.point t i, x) := by
  intro hi
  have hready : (r.point t i).path.ctl.frameReady = true := (issues_iff.1 hi).ready
  exact Bool.false_ne_true (h.symm.trans hready)

/-- An edge that places no command adds nothing to what is under way. -/
lemma underWay_point_succ_le (hx : (r.burst t)[i]? = some x)
    (h : ¬ r.IssuesAt (r.point t i, x)) :
    (r.point t (i + 1)).path.underWay ≤ (r.point t i).path.underWay := by
  rw [point_succ hx]
  exact ReadPath.total_edge_le _ _ _ (Bool.eq_false_iff.2 h)

variable (r) in
/-- No command is placed in the cycles from `b` to `e`. -/
def Gated (b e : ℕ) : Prop :=
  ∀ t i x, b ≤ t → t < e → (r.burst t)[i]? = some x → ¬ r.IssuesAt (r.point t i, x)

namespace Gated

variable (h : r.Gated b e)

include h

/-- A command that waits puts the bus behind. -/
lemma avmRead_or_lead (hbt : b ≤ t) (hte : t < e) (hi : i ≤ (r.burst t).length) :
    (r.point t i).path.ctl.avmRead = false ∨ t ≤ b + r.lead t i := by
  refine invariant (P := fun t i => b ≤ t → t < e →
    (r.point t i).path.ctl.avmRead = false ∨ t ≤ b + r.lead t i) ?_ ?_ ?_ hi hbt hte
  · intro _ _
    exact Or.inl rfl
  · intro t i x hx ih h1 h2
    rw [ctl_point_succ hx, avmRead_edge, Bool.eq_false_iff.2 (h t i x h1 h2 hx),
      Bool.or_false, lead_succ hx]
    by_cases hst : r.StalledAt (r.point t i, x)
    · -- the command is still there
      have hrd : (r.point t i).path.ctl.avmRead = true := avmRead_of_stalled hst
      rw [if_pos hst]
      exact Or.inr ((ih h1 h2).resolve_left (by simp [hrd]))
    · exact Or.inl (Bool.eq_false_iff.2 hst)
  · intro t ih h1 h2
    rw [point_zero, ctl_start_succ, lead_cycle]
    rcases Nat.lt_or_ge t b with hlt | hge
    · exact Or.inr (by omega)
    · exact (ih hge (by omega)).imp id fun _ => by omega

/-- When the lag of the bus is used up, no command is left. -/
lemma avmRead (hk : r.Keeps q) (hbt : b + 501 ≤ t + q.latency) (hte : t < e)
    (hi : i ≤ (r.burst t).length) : (r.point t i).path.ctl.avmRead = false := by
  have hfits := q.fits
  have hlead := hk.lead_le hi
  exact (h.avmRead_or_lead (by omega) hte hi).resolve_right (by omega)

lemma le_quiet (hl : r.Linked) (hk : r.Keeps q) (hbt : b + 501 ≤ t + q.latency) (hte : t < e)
    (hi : i ≤ (r.burst t).length) : t + i + q.latency ≤ r.quiet t i + (b + 501) := by
  have hfits := q.fits
  refine invariant (P := fun t i => b + 501 ≤ t + q.latency → t < e →
    t + i + q.latency ≤ r.quiet t i + (b + 501)) ?_ ?_ ?_ hi hbt hte
  · intro h1 _
    omega
  · intro t i x hx ih h1 h2
    have := ih h1 h2
    rw [quiet_succ hx, h.avmRead hk h1 h2 (lt_of_burst hx).le, if_neg Bool.false_ne_true]
    omega
  · intro t ih h1 h2
    rw [quiet_cycle]
    rcases Nat.lt_or_ge (t + q.latency) (b + 501) with hlt | hge
    · omega
    · have := ih hge (by omega)
      have := hl t (by omega)
      omega

/-- And then all reads are answered. -/
lemma bus (hl : r.Linked) (hk : r.Keeps q) (hbt : b + 501 ≤ t) (hte : t < e)
    (hi : i ≤ (r.burst t).length) : (r.point t i).path.bus = [] := by
  have := h.le_quiet hl hk (show b + 501 ≤ t + q.latency by omega) hte hi
  exact hk.latency t i hi (by omega)

lemma underWay_eq (hl : r.Linked) (hk : r.Keeps q) (hbt : b + 501 ≤ t) (hte : t < e)
    (hi : i ≤ (r.burst t).length) :
    (r.point t i).path.underWay = (r.point t i).path.fifo.length := by
  rw [ReadPath.underWay, ReadPath.onBus, h.bus hl hk hbt hte hi,
    h.avmRead hk (by omega) hte hi]
  rfl

/-- No word comes into the FIFO any more. -/
lemma underWay_le (hbt : b ≤ t) (hte : t < e) (hi : i ≤ (r.burst t).length) :
    (r.point t i).path.underWay ≤ (r.start t).path.underWay := by
  induction i with
  | zero => exact le_rfl
  | succ i ih =>
    have hx := List.getElem?_eq_getElem (show i < (r.burst t).length by omega)
    exact (underWay_point_succ_le hx (h t i _ hbt hte hx)).trans (ih (by omega))

lemma underWay_anti {u : ℕ} (hbt : b ≤ u) (hut : u ≤ t) (hte : t < e) :
    (r.start t).path.underWay ≤ (r.start u).path.underWay := by
  induction t, hut using Nat.le_induction with
  | base => exact le_rfl
  | succ t hut ih =>
    refine (underWay_start_le t).trans ?_
    exact (h.underWay_le (hbt.trans hut) (by omega) le_rfl).trans (ih (by omega))

/-! ### The restart and the FIFO -/

/-- A restart left pending is executed. -/
lemma pending (hl : r.Linked) (hk : r.Keeps q) (ht₀ : r.Rises t₀) (hb : t₀ + 4 ≤ b)
    (htb : t < t₀ + 420000) (hbt : b + 501 ≤ t) (hte : t < e) (hi : i ≤ (r.burst t).length)
    (hpos : b + 501 < t ∨ 1 ≤ i) : (r.point t i).path.ctl.vgaResetPending = false := by
  refine invariant (P := fun t i => t < t₀ + 420000 → b + 501 ≤ t → t < e → b + 501 < t ∨ 1 ≤ i →
    (r.point t i).path.ctl.vgaResetPending = false) ?_ ?_ ?_ hi htb hbt hte hpos
  · intro _ h1
    omega
  · intro t i x hx _ h1 h2 h3 _
    have hle := vsPhase_le_since hl t i
    have hph := vsPhase_of_rises ht₀ (show t₀ ≤ t by omega) h1
    have hne : ¬ r.since t i = 3 := by omega
    have hrd := h.avmRead hk (by omega) h3 (lt_of_burst hx).le
    rw [pending_point_succ hl hx, decide_eq_false hne, Bool.false_or]
    split_ifs with hr
    · rfl
    · exact Bool.eq_false_iff.2 (mt (restartsAt_of_idle hrd).2 hr)
  · intro t ih h1 h2 h3 h4
    rw [point_zero, ctl_start_succ, final_eq]
    have := hl t (by omega)
    exact ih (by omega) (by omega) (by omega) (Or.inr this)

/-- **Every request takes a word** until the FIFO is empty. -/
lemma drains (hl : r.Linked) (hk : r.Keeps q) (ht₀ : r.Rises t₀) (hb : t₀ + 4 ≤ b)
    (htb : t ≤ t₀ + 420000) (hbt : b + 501 + q.dark ≤ t) (hte : t < e) :
    (r.start t).path.underWay = 0 ∨ (r.start t).path.underWay + Nat.count Requests t ≤
      2048 + Nat.count Requests (b + 501 + q.dark) := by
  induction t, hbt using Nat.le_induction with
  | base =>
    right
    have htot := (hk.bounded (t := b + 501 + q.dark) (Nat.zero_le _)).total
    have hfits := q.fits
    change (r.start _).path.underWay ≤ _ at htot
    omega
  | succ t hbt ih =>
    have hle := h.underWay_le (i := (r.burst t).length) (by omega) (by omega) le_rfl
    have hmono := underWay_start_le (r := r) t
    rw [← final_eq] at hle
    rcases Nat.eq_zero_or_pos (r.start (t + 1)).path.underWay with hz | hpos
    · exact Or.inl hz
    · right
      have hih := (ih (by omega) (by omega)).resolve_left (by omega)
      rw [Nat.count_succ]
      by_cases hreq : Requests t
      · have hclr := not_aclr_of_rises hl ht₀ (show t₀ + 12 ≤ t by omega) (by omega)
        have hfin := h.underWay_eq (i := (r.burst t).length) hl hk (by omega) (by omega) le_rfl
        rw [← final_eq] at hfin
        have hpop : r.Popped t := by
          refine (popped_iff t).2 ⟨hreq, List.ne_nil_of_length_pos (by omega),
            hk.not_rdemptyLags fun u hut hu hnil => ?_, hclr⟩
          have hz := h.underWay_eq hl hk (show b + 501 ≤ u by omega) (by omega)
            (Nat.zero_le (r.burst u).length)
          rw [point_zero, hnil] at hz
          have := h.underWay_anti (show b ≤ u by omega) hut (by omega)
          rw [hz, List.length_nil] at this
          omega
        have hnext := underWay_start_of_popped hpop
        rw [if_pos hreq]
        omega
      · rw [if_neg hreq]
        omega

/-- A frame has more requests than the FIFO has words: when they are over it is empty. -/
lemma empty (hl : r.Linked) (hk : r.Keeps q) (ht₀ : r.Rises t₀) (hb : t₀ + 4 ≤ b)
    (hbt : b + 501 + q.dark ≤ t₀ + 26000) (hat : t₀ + 410394 ≤ t) (htb : t ≤ t₀ + 420000)
    (hte : t < e) : (r.start t).path.underWay = 0 := by
  refine (h.drains hl hk ht₀ hb htb (by omega) hte).resolve_right ?_
  have hmono : Nat.count Requests (b + 501 + q.dark) ≤ Nat.count Requests (t₀ + 26000) :=
    Nat.count_monotone _ hbt
  have hearly := count_requests_early ht₀ (show 26000 ≤ 26554 by omega)
  obtain ⟨k, rfl⟩ := Nat.exists_eq_add_of_le (show t₀ ≤ t by omega)
  have hlate := count_requests_late ht₀ (show 410394 ≤ k by omega) (by omega)
  omega

end Gated

/-! ### At rest -/

/-- The first rise after reset. -/
lemma rested_first (hl : r.Linked) (ht₀ : r.Rises t₀) (hlt : t₀ < 420000)
    (hoff : ∀ t < t₀ + 12, ∀ x ∈ r.burst t, x.pioImgLoaded = false) : r.Rested t₀ := by
  have h0 := (rises_iff t₀).1 ht₀
  have hcam {t i : ℕ} (hi : i ≤ (r.burst t).length) (ht : t < t₀ + 12) :
      (r.point t i).path.ctl.camDoneSync = 0 := by
    refine invariant (P := fun t i => t < t₀ + 12 → (r.point t i).path.ctl.camDoneSync = 0)
      (fun _ => rfl) ?_ ?_ hi ht
    · intro t i x hx ih h1
      rw [ctl_point_succ hx, camDoneSync_edge, ih h1,
        show ((r.point t i).ctlIn r.mem x).camFrameDone = false from
          hoff t h1 x (List.mem_of_getElem? hx)]
      rfl
    · intro t ih h1
      rw [point_zero, ctl_start_succ, final_eq]
      exact ih (by omega)
  have hready {t i : ℕ} (hi : i ≤ (r.burst t).length) (ht : t < t₀ + 12) :
      (r.point t i).path.ctl.frameReady = false := by
    rw [frameReady, hcam hi ht]
    rfl
  have hsince (t : ℕ) (ht : t < t₀) : 420000 ≤ r.sinceStart t := by
    induction t with
    | zero => exact le_rfl
    | succ t ih =>
      have := ih (by omega)
      rw [sinceStart, if_neg (by unfold vsPhase at h0 ⊢; omega)]
      omega
  have hidle : (r.point t₀ 0).path.underWay = 0 ∧
      (r.point t₀ 0).path.ctl.vgaResetPending = false := by
    refine invariant (r := r) (P := fun t i => t < t₀ ∨ t = t₀ ∧ i = 0 →
      (r.point t i).path.underWay = 0 ∧ (r.point t i).path.ctl.vgaResetPending = false)
      (fun _ => ⟨rfl, rfl⟩) ?_ ?_ (Nat.zero_le (r.burst t₀).length) (Or.inr ⟨rfl, rfl⟩)
    · intro t i x hx ih h1
      have hi := (lt_of_burst hx).le
      obtain ⟨hway, hp⟩ := ih (Or.inl (by omega))
      have hle := underWay_point_succ_le hx (not_issuesAt_of_not_ready (hready hi (by omega)))
      have hs := hsince t (by omega)
      have hne : ¬ r.since t i = 3 := by
        unfold since
        omega
      refine ⟨by omega, ?_⟩
      rw [pending_point_succ hl hx, decide_eq_false hne, hp]
      simp
    · intro t ih h1
      obtain ⟨hway, hp⟩ := ih (Or.inl (by omega))
      have hle := underWay_start_le (r := r) t
      rw [final_eq, hway] at hle
      rw [point_zero, ctl_start_succ]
      exact ⟨Nat.le_zero.1 hle, hp⟩
  exact ⟨ht₀, hidle.1, hidle.2, Or.inr fun t i _ h1 hi => hready hi (by omega)⟩

/-- **A display switched off for a frame comes to rest.** -/
theorem rested_of_off (h2 : r.TwoToOne) (hk : r.Keeps q) (ht₀ : r.Rises t₀)
    (hoff : ∀ t, t₀ ≤ t + 420000 → t < t₀ + 12 → ∀ x ∈ r.burst t, x.pioImgLoaded = false) :
    r.Rested t₀ := by
  have hl := h2.linked
  have h0 := (rises_iff t₀).1 ht₀
  rcases Nat.lt_or_ge t₀ 420000 with hlt | hge
  · exact rested_first hl ht₀ hlt fun t ht => hoff t (by omega) ht
  · obtain ⟨t₁, rfl⟩ := Nat.exists_eq_add_of_le' hge
    have h1 : vsPhase t₁ = 0 := by
      unfold vsPhase at h0 ⊢
      omega
    have ht₁ : r.Rises t₁ := (rises_iff t₁).2 h1
    have hpos : 1 ≤ t₁ := by
      unfold vsPhase at h1
      omega
    have hready {t i : ℕ} (hi : i ≤ (r.burst t).length) (hbt : t₁ + 4 ≤ t)
        (hte : t < t₁ + 420000 + 12) : (r.point t i).path.ctl.frameReady = false :=
      frameReady_of_const hl hpos (fun t h1 h2 => hoff t (by omega) h2) hi (by omega) hte
    have hg : r.Gated (t₁ + 4) (t₁ + 420000 + 12) := fun t i x hbt hte hx =>
      not_issuesAt_of_not_ready (hready (lt_of_burst hx).le hbt hte)
    have hdark := q.dark_le
    refine ⟨ht₀, hg.empty hl hk ht₁ le_rfl (by omega) (by omega) le_rfl (by omega), ?_, Or.inr ?_⟩
    · obtain ⟨t, ht⟩ : ∃ t, t₁ + 420000 = t + 1 := ⟨t₁ + 419999, by omega⟩
      rw [ht, ctl_start_succ]
      exact hg.pending hl hk ht₁ le_rfl (by omega) (by omega) (by omega)
        (le_refl (r.burst t).length) (Or.inl (by omega))
    · intro t i h3 h4 hi
      exact hready hi (by omega) (by omega)

end Run

/-! ### A loop that keeps the terms

Two edges of `clk_50m_sys` in each cycle, a bus that takes every command at once and answers it at
the next edge, and a FIFO that reports its words. -/

/-- The inputs of the two edges of a cycle that begins in the state `s`. -/
def loopBurst (mem : BitVec 25 → BitVec 16) (img : ℕ → Bool) (t : ℕ) (s : DoanTop) : List SysIn :=
  [loopIn img t s, loopIn img t (s.edge50 mem (loopIn img t s))]

def doubleAt (mem : BitVec 25 → BitVec 16) (img : ℕ → Bool) : ℕ → DoanTop
  | 0 => .reset (blankInit 30)
  | t + 1 => ((loopBurst mem img t (doubleAt mem img t)).foldl (fun s x => s.edge50 mem x)
      (doubleAt mem img t)).edge25 ⟨false, 0⟩

def doubleLoop (mem : BitVec 25 → BitVec 16) (img : ℕ → Bool) : Run where
  m := blankInit 30
  mem := mem
  burst := fun t => loopBurst mem img t (doubleAt mem img t)
  vga := fun _ => ⟨false, 0⟩

/-- What the loop keeps of the bus and the FIFO. -/
def loopTerms : Terms where
  unanswered := 1
  latency := 1
  lag := 1
  stale := 0
  dark := 0
  fits := by omega
  dark_le := by omega

section DoubleLoop

variable {mem : BitVec 25 → BitVec 16} {img : ℕ → Bool} {t i : ℕ} {x : SysIn}

lemma start_doubleLoop (t : ℕ) : (doubleLoop mem img).start t = doubleAt mem img t := by
  induction t with
  | zero => rfl
  | succ t ih =>
    rw [Run.start_succ, Run.final, TwoClock.final_eq]
    change ((loopBurst mem img t (doubleAt mem img t)).foldl _
      ((doubleLoop mem img).start t)).edge25 _ = _
    rw [ih]
    rfl

variable (mem img) in
lemma twoToOne_doubleLoop : (doubleLoop mem img).TwoToOne := fun _ _ => Or.inr rfl

/-- Every edge finds the inputs that belong to its state. -/
lemma loopIn_of_burst (hx : ((doubleLoop mem img).burst t)[i]? = some x) :
    x = loopIn img t ((doubleLoop mem img).point t i) := by
  obtain ⟨hi, hx'⟩ := List.getElem?_eq_some_iff.1 hx
  have hlt : i < 2 := hi
  have h0 : ((doubleLoop mem img).burst t)[0]? = some (loopIn img t (doubleAt mem img t)) := rfl
  rcases (by omega : i = 0 ∨ i = 1) with rfl | rfl
  · rw [← hx', Run.point_zero, start_doubleLoop]
    rfl
  · rw [← hx', Run.point_succ h0, Run.point_zero, start_doubleLoop]
    rfl

variable (mem img) in
lemma honest_doubleLoop : (doubleLoop mem img).Honest := by
  intro t i x hx
  rw [loopIn_of_burst hx]
  rfl

lemma not_stalledAt_doubleLoop (hx : ((doubleLoop mem img).burst t)[i]? = some x) :
    ¬ (doubleLoop mem img).StalledAt ((doubleLoop mem img).point t i, x) := by
  intro h
  have hw : x.rDmaWaitrequest = true := (Bool.and_eq_true_iff.1 h).2
  rw [loopIn_of_burst hx] at hw
  cases hw

/-- A read is answered by the edge after the one that takes it. -/
lemma bus_doubleLoop (hi : i ≤ ((doubleLoop mem img).burst t).length) :
    ((doubleLoop mem img).point t i).path.bus.length ≤ 1 ∧
      (1 ≤ (doubleLoop mem img).quiet t i → ((doubleLoop mem img).point t i).path.bus = []) := by
  refine Run.invariant (P := fun t i => ((doubleLoop mem img).point t i).path.bus.length ≤ 1 ∧
    (1 ≤ (doubleLoop mem img).quiet t i → ((doubleLoop mem img).point t i).path.bus = []))
    ⟨Nat.zero_le _, fun _ => rfl⟩ ?_ ?_ hi
  · intro t i x hx ih
    have hbus : ((doubleLoop mem img).point t (i + 1)).path.bus =
        ((doubleLoop mem img).point t i).path.bus.tail ++
          if ((doubleLoop mem img).point t i).path.ctl.avmRead then
            [((doubleLoop mem img).point t i).path.ctl.avmAddress] else [] := by
      rw [Run.point_succ hx, loopIn_of_burst hx, ← List.eraseIdx_zero]
      generalize (doubleLoop mem img).point t i = s
      cases hrd : s.path.ctl.avmRead <;>
        simp [DoanTop.edge50, ReadPath.edge, ReadPath.unanswered, DoanTop.pathIn, loopIn, accepts,
          ReadPath.ctlIn, hrd]
    have htail : ((doubleLoop mem img).point t i).path.bus.tail = [] := by
      refine List.eq_nil_of_length_eq_zero ?_
      rw [List.length_tail]
      omega
    rw [hbus, htail, Run.quiet_succ hx, List.nil_append]
    split_ifs <;> simp
  · intro t ih
    rw [Run.quiet_cycle, Run.point_zero, Run.start_succ]
    exact ih

lemma lead_doubleLoop (hi : i ≤ ((doubleLoop mem img).burst t).length) :
    (doubleLoop mem img).lead t i ≤ 1 ∧ (1 ≤ i → (doubleLoop mem img).lead t i = 0) := by
  refine Run.invariant (P := fun t i => (doubleLoop mem img).lead t i ≤ 1 ∧
    (1 ≤ i → (doubleLoop mem img).lead t i = 0)) ⟨Nat.zero_le _, fun _ => rfl⟩ ?_ ?_ hi
  · intro t i x hx ih
    rw [Run.lead_succ hx, if_neg (not_stalledAt_doubleLoop hx)]
    omega
  · intro t ih
    have h2 : ((doubleLoop mem img).burst t).length = 2 := rfl
    rw [Run.lead_cycle, ih.2 (by omega)]
    omega

variable (mem img) in
theorem keeps_doubleLoop : (doubleLoop mem img).Keeps loopTerms where
  unanswered _ _ hi := (bus_doubleLoop hi).1
  latency _ _ hi := (bus_doubleLoop hi).2
  pace _ _ l hi hl := backlog_le_iff.1 (lead_doubleLoop hi).1 l hl
  counted t i x hx := by
    have hroom : ((doubleLoop mem img).point t i).path.fifo.length < 2048 := by
      have hb := Run.bounded_of_reports (L := 1) (by omega) (fun t i x hx hlt => by
        rw [honest_doubleLoop mem img t i x hx, BitVec.toNat_ofNat, Nat.mod_eq_of_lt hlt]
        omega) (fun t i hi => (bus_doubleLoop hi).1) (Run.lt_of_burst hx).le
      have := hb.total
      omega
    rw [honest_doubleLoop mem img t i x hx, BitVec.toNat_ofNat, Nat.mod_eq_of_lt hroom]
    omega
  reported t i x hx := by
    rw [honest_doubleLoop mem img t i x hx, BitVec.toNat_ofNat]
    exact (Nat.mod_le _ _).trans (Nat.le_add_right _ _)
  shown _ h := by cases h

/-- Two edges in the cycle of a rise: no frame is flushed. -/
lemma not_aclr_doubleLoop (ht : 1 ≤ t) : ¬ (doubleLoop mem img).Aclr t := by
  rw [Run.aclr_iff (twoToOne_doubleLoop mem img).linked]
  rintro (h0 | hf)
  · omega
  · exact absurd (show 2 = 1 from hf.1) (by omega)

lemma rises_doubleLoop : (doubleLoop mem img).Rises 9606 := (Run.rises_iff _).2 (by simp [vsPhase])

lemma spares_doubleLoop : (doubleLoop mem img).Spares 9606 :=
  fun _ _ _ ht _ hc => absurd hc (not_aclr_doubleLoop (by omega))

lemma off_later : ∀ t, 9606 ≤ t + 420000 → t < 9606 + 12 →
    ∀ x ∈ (doubleLoop mem later).burst t, x.pioImgLoaded = false := by
  intro t _ ht x hx
  obtain ⟨i, hi⟩ := List.mem_iff_getElem?.1 hx
  rw [loopIn_of_burst hi]
  exact decide_eq_false (by omega)

lemma on_later : ∀ t ≥ 9606 + 20000,
    ∀ x ∈ (doubleLoop mem later).burst t, x.pioImgLoaded = true := by
  intro t ht x hx
  obtain ⟨i, hi⟩ := List.mem_iff_getElem?.1 hx
  rw [loopIn_of_burst hi]
  exact decide_eq_true (by omega)

/-- The loop is at rest when its display is switched on. -/
lemma rested_later : (doubleLoop mem later).Rested 9606 :=
  Run.rested_of_off (twoToOne_doubleLoop mem later) (keeps_doubleLoop mem later) rises_doubleLoop
    off_later

lemma fetches_later : (doubleLoop mem later).Fetches 9606 (9606 + 20010) :=
  rested_later.fetches (twoToOne_doubleLoop mem later) (keeps_doubleLoop mem later)
    spares_doubleLoop fun t h1 _ => on_later t h1

end DoubleLoop

theorem supplied_later : ((doubleLoop lowHalf later).point 40000 0).path.underWay ≤ 2048 ∧
    (1 ≤ ((doubleLoop lowHalf later).point 40000 0).path.underWay →
      ((doubleLoop lowHalf later).point 40000 0).path.fifo ≠ []) :=
  Run.Fetches.supplied fetches_later (twoToOne_doubleLoop lowHalf later).linked
    (keeps_doubleLoop lowHalf later) (by omega) (by omega) (Nat.zero_le _)

lemma vgaReq_later : (doubleLoop lowHalf later).VgaReq 104567 := (Run.vgaReq_iff _).2 (by decide)

end VideoPipeline.Top

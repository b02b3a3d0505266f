import VideoPipeline.Sdram.Memory

/-!
The refreshes come in time, and so does every request. A refresh that is due and a request that
waits bring the state machine nearer to them with every clock, so both are bounded: a refresh is
never asked for twice before it is done, and a request accepted is answered within a fixed number
of clocks, a refresh in between included.
-/

namespace VideoPipeline.Sdram

open VideoPipeline.Lib

/-! ### The way to a refresh -/

namespace MainFsm

variable (s : MainFsm)

/-- The clocks to the acknowledgement of a refresh that is due, at most. -/
def refreshRank : ℕ :=
  match s.state with
  | .idle => 4
  | .activate => 9
  | .wait =>
    max s.count.toNat 1 + match s.next with
      | .idle => 4
      | .refresh => 1
      | _ => 7
  | .read | .write | .recover => 7
  | .precharge => if s.next = .refresh then 3 else 6
  | .refresh => 1
  | .spin => 6

/-- The clocks in which the acknowledgement stays up. -/
def ackRank : ℕ := if s.state = .wait then max s.count.toNat 1 else 0

end MainFsm

section Move

variable {s s' : MainFsm} {x : MainIn} {c : Chip} {refresh : Bool}

lemma refreshRank_serving {rd : Bool} (hs : s.state = MainFsm.serving rd) :
    s.refreshRank = 7 := by
  unfold MainFsm.refreshRank
  rw [hs]
  cases rd <;> rfl

lemma Phase.refreshRank_le (h : Phase s refresh c) : s.refreshRank ≤ 9 := by
  unfold MainFsm.refreshRank
  cases hs : s.state with
  | wait =>
    have hstage := h.stage
    unfold Stage at hstage
    rw [hs] at hstage
    rcases h.next_of_wait hs with hn | hn | hn | hn
    · rw [hn] at hstage ⊢
      have := hstage.2.1
      simp only
      omega
    · rw [hn] at hstage ⊢
      simp [hstage.2.2.2.2]
    · rw [hn] at hstage ⊢
      simp [hstage.2.2.2.2]
    · rw [hn] at hstage ⊢
      simp [hstage.2.2.1]
  | precharge =>
    simp only
    split_ifs <;> omega
  | _ => simp

namespace MainFsm.Move

/-- Every edge is one on the way to the refresh. -/
lemma refreshRank_lt (hm : Move s x s') (hph : Phase s x.refreshRequest c)
    (hr : x.refreshRequest = true) (hack : s.ackRefreshRequest = false) :
    s'.ackRefreshRequest = true ∧ s'.cmd.command = .autoRefresh ∨
      s'.ackRefreshRequest = false ∧ s'.refreshRank < s.refreshRank := by
  cases hm with
  | rest _ h | start _ h | serveNext _ _ _ h | again _ h | other _ h | stay _ h =>
    exact absurd (hr.symm.trans h) (by decide)
  | refresh hs => exact Or.inl ⟨rfl, rfl⟩
  | serveLast rd hs hp _ =>
    refine Or.inr ⟨hack, ?_⟩
    rw [refreshRank_serving hs]
    cases rd <;> simp [refreshRank]
  | serveOne rd hs | serveNone rd hs =>
    refine Or.inr ⟨hack, ?_⟩
    rw [refreshRank_serving hs]
    simp [refreshRank]
  | close hs hr => exact Or.inr ⟨rfl, by simp [refreshRank, hs]⟩
  | activate hs =>
    refine Or.inr ⟨hack, ?_⟩
    cases h : s.active.rnw <;> simp [refreshRank, hs, serving]
  | pause b hs hc =>
    refine Or.inr ⟨hack, ?_⟩
    have hsub := toNat_sub_one hc
    rw [one_lt_iff] at hc
    simp only [refreshRank, hs, hsub]
    omega
  | resume b hs hc =>
    refine Or.inr ⟨hack, ?_⟩
    rcases hph.next_of_wait hs with hn | hn | hn | hn <;> simp [refreshRank, hs, hn]
  | recovering hs hc =>
    rw [((stage_recover hs).1 hph.stage).2.2.2] at hc
    exact absurd hc (by decide)
  | recovered hs hc =>
    have hn := ((stage_recover hs).1 hph.stage).2.1
    exact Or.inr ⟨hack, by simp [refreshRank, hs, hn]⟩
  | precharge hs =>
    refine Or.inr ⟨hack, ?_⟩
    have hcount : s.count = 0 := by
      have hstage := hph.stage
      unfold Stage at hstage
      rw [hs] at hstage
      exact hstage.2.1
    rcases hph.next_of_precharge hs with hn | hn <;> simp [refreshRank, hs, hn, hcount]
  | leave hs => exact Or.inr ⟨hack, by simp [refreshRank, hs]⟩

/-- Only the refresh is acknowledged, and then the state machine waits for three clocks. -/
lemma acknowledges (hm : Move s x s') (hack : s.ackRefreshRequest = false)
    (hack' : s'.ackRefreshRequest = true) : s.state = .refresh ∧ s'.ackRank = 3 := by
  cases hm with
  | refresh hs => exact ⟨hs, rfl⟩
  | rest | close | start => cases hack'
  | _ => exact absurd (hack.symm.trans hack') Bool.false_ne_true

/-- The acknowledgement comes to its end. -/
lemma ackRank_lt (hm : Move s x s') (hph : Phase s x.refreshRequest c)
    (hack : s.ackRefreshRequest = true) (hack' : s'.ackRefreshRequest = true) :
    s'.ackRank < s.ackRank := by
  rcases hph.acked hack with hs | ⟨hs, hn⟩
  · exact acked_elim (hm.of_idle hs) hack'
  · obtain ⟨b, ⟨hc, rfl⟩ | ⟨-, rfl⟩⟩ := hm.of_wait hs
    · have hsub := toNat_sub_one hc
      rw [one_lt_iff] at hc
      simp only [ackRank, hs, hsub, if_true]
      omega
    · simp [ackRank, hs, hn]

end MainFsm.Move

end Move

/-! ### The end of the power-up sequence -/

section Edge

variable {s : SdramController} {i : SlaveIn} {w : BitVec 16}

/-- The refresh counter goes round in 782 clocks. -/
lemma toNat_refreshCounter_edge : (s.edge i w).refreshCounter.toNat =
    if s.refreshCounter.toNat = 0 then 781 else s.refreshCounter.toNat - 1 := by
  change (if s.refreshCounter = 0 then 781 else s.refreshCounter - 1 : BitVec 13).toNat = _
  have hzero : s.refreshCounter = 0 ↔ s.refreshCounter.toNat = 0 := BitVec.toNat_inj.symm
  by_cases h : s.refreshCounter = 0
  · rw [if_pos h, if_pos (hzero.1 h)]
    rfl
  · rw [if_neg h, if_neg (mt hzero.2 h)]
    bv_omega

lemma decide_refreshCounter : decide (s.refreshCounter = 0) = decide (s.refreshCounter.toNat = 0) :=
  decide_eq_decide.2 BitVec.toNat_inj.symm

lemma initDone_edge :
    (s.edge i w).initDone = (s.initDone || decide (s.init.state = .done)) := rfl

lemma init_edge : (s.edge i w).init = s.init.edge (decide (s.refreshCounter = 0)) := rfl

end Edge

section Runs

variable (p : PowerUp) (openRow : BitVec 2 → Option (BitVec 13)) (cells : BitVec 25 → BitVec 16)
  (inp : ℕ → BoardIn)

lemma ctl_succ (n : ℕ) : (boardAt p openRow cells inp (n + 1)).ctl =
    (boardAt p openRow cells inp n).ctl.edge (inp n).slave
      ((boardAt p openRow cells inp n).zsDq (inp n).float) := rfl

/-- For 100 us nothing happens. -/
lemma hold_of_le {n : ℕ} (h : n ≤ 5000) :
    (boardAt p openRow cells inp n).ctl.refreshCounter.toNat + n = 5000 ∧
      (boardAt p openRow cells inp n).ctl.initDone = false ∧
      ∃ r, (boardAt p openRow cells inp n).ctl.init =
        ⟨.hold, .hold, ⟨true, 7⟩, BitVec.allOnes 13, 0, r⟩ := by
  induction n with
  | zero => exact ⟨rfl, rfl, p.refs, rfl⟩
  | succ n ih =>
    obtain ⟨hcount, hdone, r, hinit⟩ := ih (by omega)
    have hne : (boardAt p openRow cells inp n).ctl.refreshCounter.toNat ≠ 0 := by omega
    refine ⟨?_, ?_, 0, ?_⟩
    · rw [ctl_succ, toNat_refreshCounter_edge, if_neg hne]
      omega
    · rw [ctl_succ, initDone_edge, hdone, hinit]
      rfl
    · rw [ctl_succ, init_edge, hinit, decide_refreshCounter, decide_eq_false hne]
      rfl

/-- What the power-up sequence starts from. -/
def InitFsm.started : InitFsm := ⟨.precharge, .hold, ⟨true, 7⟩, BitVec.allOnes 13, 0, 0⟩

/-- Then the power-up sequence takes its course. -/
lemma start_of_eq {n k : ℕ} (hn : n = 5001 + k) (hk : k ≤ 15) :
    (boardAt p openRow cells inp n).ctl.refreshCounter.toNat + k = 781 ∧
      (boardAt p openRow cells inp n).ctl.initDone = false ∧
      (boardAt p openRow cells inp n).ctl.init = (InitFsm.edge · false)^[k] .started := by
  induction k generalizing n with
  | zero =>
    obtain ⟨t, rfl⟩ : ∃ t, n = t + 1 := ⟨5000, hn⟩
    obtain ⟨hcount, hdone, r, hinit⟩ := hold_of_le p openRow cells inp (n := t) (by omega)
    have h0 : (boardAt p openRow cells inp t).ctl.refreshCounter.toNat = 0 := by omega
    refine ⟨?_, ?_, ?_⟩
    · rw [Nat.add_zero, ctl_succ, toNat_refreshCounter_edge, if_pos h0]
    · rw [ctl_succ, initDone_edge, hdone, hinit]
      rfl
    · rw [ctl_succ, init_edge, hinit, decide_refreshCounter, decide_eq_true h0]
      rfl
  | succ k ih =>
    obtain ⟨t, rfl⟩ : ∃ t, n = t + 1 := ⟨5001 + k, hn⟩
    obtain ⟨hcount, hdone, hinit⟩ := ih (n := t) (by omega) (by omega)
    have hne : (boardAt p openRow cells inp t).ctl.refreshCounter.toNat ≠ 0 := by omega
    have hrun : ∀ k < 15, ((InitFsm.edge · false)^[k] .started).state ≠ .done := by decide
    refine ⟨?_, ?_, ?_⟩
    · rw [ctl_succ, toNat_refreshCounter_edge, if_neg hne]
      omega
    · rw [ctl_succ, initDone_edge, hdone, hinit, decide_eq_false (hrun k (by omega))]
      rfl
    · rw [ctl_succ, init_edge, hinit, decide_refreshCounter, decide_eq_false hne,
        Function.iterate_succ_apply']

/-- The power-up sequence takes 5017 clocks, and leaves the chip with two refreshes. -/
lemma powered_of_eq {n : ℕ} (hn : n = 5017) :
    (boardAt p openRow cells inp n).ctl.initDone = true ∧
      (boardAt p openRow cells inp n).ctl.refreshCounter.toNat = 765 ∧
      (boardAt p openRow cells inp n).ctl.refreshRequest = false ∧
      (boardAt p openRow cells inp n).ctl.main.ackRefreshRequest = false ∧
      2 ≤ (boardAt p openRow cells inp n).served.refreshes := by
  obtain ⟨t, rfl⟩ : ∃ t, n = t + 1 := ⟨5016, hn⟩
  obtain ⟨hcount, hdone, hinit⟩ := start_of_eq p openRow cells inp (n := t) (by omega) le_rfl
  have hlast : ((InitFsm.edge · false)^[15] .started).state = .done := by decide
  have hfit := (boardAt_sound p openRow cells inp t).fits.poweringUp hdone
  have hphase := hfit.phase
  unfold PowerPhase at hphase
  rw [hinit, hlast] at hphase
  obtain ⟨hpins, -, hack, hrefresh⟩ := hfit.edge_main (i := (inp t).slave)
    (w := (boardAt p openRow cells inp t).zsDq (inp t).float) hdone
  refine ⟨?_, ?_, hrefresh, hack, ?_⟩
  · rw [ctl_succ, initDone_edge, hinit, hlast, decide_eq_true rfl, Bool.or_true]
  · rw [ctl_succ, toNat_refreshCounter_edge, if_neg (by omega)]
    omega
  · unfold Board.served
    rw [ctl_succ, hpins]
    exact hphase.2.2.1

end Runs

/-! ### The refreshes -/

/-- A refresh is due: asked for, and not acknowledged. -/
def SdramController.due (s : SdramController) : Bool :=
  s.refreshRequest && !s.main.ackRefreshRequest

/-- The refreshes are in time after `n` clocks: one that is due is done by the time its rank says,
and all others have been done. -/
structure OnTime (n : ℕ) (s : Board) : Prop where
  done : s.ctl.initDone = true
  due : s.ctl.due = true → 772 + s.ctl.main.refreshRank ≤ s.ctl.refreshCounter.toNat
  acked : s.ctl.main.ackRefreshRequest = true →
    769 + s.ctl.main.ackRank ≤ s.ctl.refreshCounter.toNat
  count : ∃ q, n + s.ctl.refreshCounter.toNat = 5782 + 782 * q ∧
    2 + q ≤ s.served.refreshes + s.ctl.due.toNat

section OnTime

variable {s : Board} {i : SlaveIn} {w : BitVec 16} {n : ℕ}

/-- When the counter is at zero nothing is due, nor being acknowledged. -/
lemma OnTime.of_zero (h : OnTime n s) (h0 : s.ctl.refreshCounter.toNat = 0) :
    s.ctl.refreshRequest = false ∧ s.ctl.main.ackRefreshRequest = false := by
  have hack : s.ctl.main.ackRefreshRequest = false := Bool.eq_false_iff.2 fun ha => by
    have := h.acked ha
    omega
  refine ⟨Bool.eq_false_iff.2 fun hr => ?_, hack⟩
  have := h.due (by rw [SdramController.due, hr, hack]; rfl)
  omega

/-- A refresh becomes due when the counter is at zero. -/
lemma due_of_edge (h0 : s.ctl.refreshCounter.toNat ≠ 0) (hd : (s.edge i w).ctl.due = true) :
    s.ctl.due = true := by
  obtain ⟨hr, -⟩ := Bool.and_eq_true_iff.1 hd
  change ((decide (s.ctl.refreshCounter = 0) || s.ctl.refreshRequest) &&
    !s.ctl.main.ackRefreshRequest && s.ctl.initDone) = true at hr
  rw [decide_refreshCounter, decide_eq_false h0, Bool.false_or] at hr
  exact (Bool.and_eq_true_iff.1 hr).1

/-- **One clock.** -/
theorem OnTime.edge (h : OnTime n s) (hs : Sound s) : OnTime (n + 1) (s.edge i w) := by
  have hfit := hs.fits.phase h.done
  have hm : MainFsm.Move s.ctl.main s.ctl.mainIn (s.edge i w).ctl.main := MainFsm.moves h.done
  have hdone : (s.edge i w).ctl.initDone = true := by
    change (s.ctl.initDone || _) = true
    rw [h.done, Bool.true_or]
  have hrefresh : s.ctl.main.state = .refresh → s.ctl.refreshRequest = true := fun hstate => by
    have hstage := hfit.stage
    unfold Stage at hstage
    rw [hstate] at hstage
    exact hstage.2.2
  have hcounter := toNat_refreshCounter_edge (s := s.ctl) (i := i) (w := s.zsDq w)
  have hrequest : (s.edge i w).ctl.refreshRequest =
      ((decide (s.ctl.refreshCounter.toNat = 0) || s.ctl.refreshRequest) &&
        !s.ctl.main.ackRefreshRequest) := by
    change ((decide (s.ctl.refreshCounter = 0) || _) && _ && s.ctl.initDone) = _
    rw [h.done, Bool.and_true, decide_refreshCounter]
  have hmono : s.served.refreshes ≤ (s.edge i w).served.refreshes :=
    Chip.le_refreshes s.served _
  obtain ⟨q, hq, hcount⟩ := h.count
  by_cases h0 : s.ctl.refreshCounter.toNat = 0
  · -- the next refresh is asked for
    obtain ⟨hr, hack⟩ := h.of_zero h0
    have hack' : (s.edge i w).ctl.main.ackRefreshRequest = false :=
      Bool.eq_false_iff.2 fun ha => by
        rw [hrefresh (hm.acknowledges hack ha).1] at hr
        cases hr
    rw [decide_eq_true h0, hack, Bool.true_or] at hrequest
    rw [if_pos h0] at hcounter
    have hdue : (s.edge i w).ctl.due = true := by
      rw [SdramController.due, hrequest, hack']
      rfl
    have hdue0 : s.ctl.due = false := by rw [SdramController.due, hr, Bool.false_and]
    have hrank : (s.edge i w).ctl.main.refreshRank ≤ 9 := by
      exact ((hs.edge (i := i) (w := w)).fits.phase hdone).refreshRank_le
    refine ⟨hdone, fun _ => ?_, fun ha => absurd (hack'.symm.trans ha) Bool.false_ne_true,
      q + 1, ?_, ?_⟩
    · change _ ≤ (s.ctl.edge i (s.zsDq w)).refreshCounter.toNat
      omega
    · change n + 1 + (s.ctl.edge i (s.zsDq w)).refreshCounter.toNat = _
      omega
    · rw [hdue]
      rw [hdue0] at hcount
      simp only [Bool.toNat_true, Bool.toNat_false] at hcount ⊢
      omega
  · rw [decide_eq_false h0, Bool.false_or] at hrequest
    rw [if_neg h0] at hcounter
    have hdue_of (hr : s.ctl.refreshRequest = true) (ha : s.ctl.main.ackRefreshRequest = false) :
        s.ctl.due = true := by
      rw [SdramController.due, hr, ha]
      rfl
    -- what was due is nearer, or done
    have hway (hd : s.ctl.due = true) :
        (s.edge i w).ctl.main.cmd.command = .autoRefresh ∧ (s.edge i w).ctl.due = false ∨
          (s.edge i w).ctl.due = true ∧
            (s.edge i w).ctl.main.refreshRank < s.ctl.main.refreshRank := by
      obtain ⟨hr, ha⟩ := Bool.and_eq_true_iff.1 hd
      rw [Bool.not_eq_true'] at ha
      rw [SdramController.due, hrequest, hr, ha]
      rcases hm.refreshRank_lt hfit hr ha with ⟨ha', hcmd⟩ | ⟨ha', hlt⟩
      · exact Or.inl ⟨hcmd, by rw [ha']; rfl⟩
      · exact Or.inr ⟨by rw [ha']; rfl, hlt⟩
    refine ⟨hdone, fun hd => ?_, fun ha' => ?_, q, ?_, ?_⟩
    · have hlt := (hway (due_of_edge h0 hd)).resolve_left fun h =>
        Bool.false_ne_true (h.2.symm.trans hd)
      have := h.due (due_of_edge h0 hd)
      change _ ≤ (s.ctl.edge i (s.zsDq w)).refreshCounter.toNat
      omega
    · change _ ≤ (s.ctl.edge i (s.zsDq w)).refreshCounter.toNat
      by_cases ha : s.ctl.main.ackRefreshRequest = true
      · have := h.acked ha
        have := hm.ackRank_lt hfit ha ha'
        omega
      · rw [Bool.not_eq_true] at ha
        obtain ⟨hstate, hrank⟩ := hm.acknowledges ha ha'
        have := h.due (hdue_of (hrefresh hstate) ha)
        rw [show s.ctl.main.refreshRank = 1 by rw [MainFsm.refreshRank, hstate]] at this
        omega
    · change n + 1 + (s.ctl.edge i (s.zsDq w)).refreshCounter.toNat = _
      omega
    · cases hd : s.ctl.due with
      | false =>
        rw [hd] at hcount
        simp only [Bool.toNat_false] at hcount
        omega
      | true =>
        rw [hd] at hcount
        rcases hway hd with ⟨hcmd, -⟩ | ⟨hd', -⟩
        · have hplus : (s.edge i w).served.refreshes = s.served.refreshes + 1 :=
            Chip.refreshes_edge hcmd
          simp only [Bool.toNat_true] at hcount
          omega
        · rw [hd']
          simp only [Bool.toNat_true] at hcount ⊢
          omega

end OnTime

/-! ### The way to the next request -/

namespace MainFsm

/-- The clocks to the opening of a row, from rest. -/
def restRank (due : Bool) : ℕ := if due then 10 else 3

variable (s : MainFsm) (x : MainIn)

/-- A refresh is due. -/
def due : Bool := x.refreshRequest && !s.ackRefreshRequest

/-- The clocks until a request that waits goes out, at most, when no refresh comes in between. -/
def rank : ℕ :=
  match s.state with
  | .idle => restRank (s.due x)
  | .activate => 2
  | .wait =>
    max s.count.toNat 1 + match s.next with
      | .idle => restRank (s.due x)
      | .refresh => 7
      | _ => 0
  | .read | .write => if s.fPop && !s.pending x then if s.due x then 13 else 8 else 0
  | .recover => 3 + restRank (s.due x)
  | .precharge => if s.next = .refresh then 9 else 2 + restRank (s.due x)
  | .refresh => 7
  | .spin => if s.due x then 12 else if s.pending x then 1 else 7

end MainFsm

section Move

variable {s s' : MainFsm} {x x' : MainIn} {c : Chip} {refresh : Bool}

lemma restRank_le (d : Bool) : MainFsm.restRank d ≤ 10 := by cases d <;> decide

lemma rank_serving {rd : Bool} (hs : s.state = MainFsm.serving rd) : s.rank x =
    if s.fPop && !s.pending x then if s.due x then 13 else 8 else 0 := by
  unfold MainFsm.rank
  rw [hs]
  cases rd <;> rfl

lemma rank_idle (hs : s.state = .idle) : s.rank x = MainFsm.restRank (s.due x) := by
  rw [MainFsm.rank, hs]

lemma rank_wait_idle (hs : s.state = .wait) (hn : s.next = .idle) :
    s.rank x = max s.count.toNat 1 + MainFsm.restRank (s.due x) := by
  rw [MainFsm.rank, hs, hn]

lemma rank_wait_last (hs : s.state = .wait) (hn : s.next = .idle) (hc : ¬ 1 < s.count) :
    s.rank x = 1 + MainFsm.restRank (s.due x) := by
  rw [one_lt_iff, not_lt] at hc
  rw [rank_wait_idle hs hn, max_eq_right hc]

lemma rank_precharge (hs : s.state = .precharge) (hn : s.next = .idle) :
    s.rank x = 2 + MainFsm.restRank (s.due x) := by
  rw [MainFsm.rank, hs, hn]
  rfl

lemma rank_recover (hs : s.state = .recover) :
    s.rank x = 3 + MainFsm.restRank (s.due x) := by
  rw [MainFsm.rank, hs]

lemma rank_spin_le (hs : s.state = .spin) : s.rank x ≤ if s.due x then 12 else 7 := by
  unfold MainFsm.rank
  rw [hs]
  simp only
  split_ifs <;> omega

lemma Phase.rank_le (h : Phase s refresh c) : s.rank x ≤ 13 := by
  have hle := restRank_le (s.due x)
  unfold MainFsm.rank
  cases hs : s.state with
  | wait =>
    have hstage := h.stage
    unfold Stage at hstage
    rw [hs] at hstage
    rcases h.next_of_wait hs with hn | hn | hn | hn
    · rw [hn] at hstage ⊢
      have := hstage.2.1
      simp only
      omega
    · rw [hn] at hstage ⊢
      simp [hstage.2.2.2.2]
    · rw [hn] at hstage ⊢
      simp [hstage.2.2.2.2]
    · rw [hn] at hstage ⊢
      simp [hstage.2.2.1]
  | precharge | read | write | spin =>
    simp only
    split_ifs <;> omega
  | _ =>
    simp only
    omega

/-- **Every edge without a request on the wires brings the next one nearer**, as long as no new
refresh is due. -/
theorem MainFsm.Move.rank_lt (hm : Move s x s') (hph : Phase s x.refreshRequest c)
    (ht : s.Takes x) (hserve : s.serves x = []) (hwait : s.hand = [] → x.fEmpty = false)
    (hdue : s'.due x' = true → s.due x = true)
    (hfront : s.fSelect x = false → x.fEmpty = false → x'.fEmpty = false ∧ x'.f = x.f) :
    s'.rank x' < s.rank x := by
  have hrest : restRank (s'.due x') ≤ restRank (s.due x) := by
    cases hd : s'.due x' with
    | false => cases s.due x <;> decide
    | true => rw [hdue hd]
  have hfPop (h1 : s.state ≠ .activate) (h2 : s.state ≠ .read) (h3 : s.state ≠ .write) :
      s.fPop = false :=
    Bool.eq_false_iff.2 fun hf => (ht.popping hf).elim h1 fun h => h.elim h2 h3
  have hsome (h : s.state = .idle ∨ s.state = .spin) (he : x.fEmpty = true) : False := by
    have hhand : s.hand = [] := by rcases h with h | h <;> simp [hand, h]
    exact Bool.false_ne_true ((hwait hhand).symm.trans he)
  cases hm with
  | rest hs hr he => exact (hsome (Or.inl hs) he).elim
  | stay hs hr he => exact (hsome (Or.inr hs) he).elim
  | close hs hr =>
    have hack : s.ackRefreshRequest = false := Bool.eq_false_iff.2 fun ha =>
      Bool.false_ne_true ((((stage_idle hs).1 hph.stage).2.1 ha).symm.trans hr)
    simp [rank, hs, due, hr, hack, restRank]
  | start hs hr he => simp [rank, hs, due, hr, restRank]
  | activate hs => cases hrd : s.active.rnw <;> simp [rank, hs, serving]
  | pause b hs hc =>
    have hn := hph.next_of_pause hs hc
    have hsub := toNat_sub_one hc
    rw [one_lt_iff] at hc
    refine (rank_wait_idle (by exact hs) (by exact hn)).trans_lt ?_
    rw [rank_wait_idle hs hn]
    simp only [hsub]
    omega
  | resume b hs hc =>
    rcases hph.next_of_wait hs with hn | hn | hn | hn
    · refine (rank_idle (by exact hn)).trans_lt ?_
      rw [rank_wait_idle hs hn]
      omega
    · simp [rank, hs, hn]
    · simp [rank, hs, hn]
    · simp [rank, hs, hn]
  | serveLast rd hs hp | serveNext rd hs hp =>
    rw [serves_serving hs, hp] at hserve
    simp at hserve
  | serveOne rd hs hp hf =>
    rw [serves_serving hs, hf] at hserve
    simp at hserve
  | serveNone rd hs hp hf =>
    refine (rank_spin_le rfl).trans_lt ?_
    rw [rank_serving hs, hf, hp, Bool.not_false, Bool.and_self, if_pos rfl]
    split_ifs with h1 h2
    · omega
    · exact absurd (hdue h1) h2
    · omega
    · omega
  | recovering hs hc =>
    rw [((stage_recover hs).1 hph.stage).2.2.2] at hc
    exact absurd hc (by decide)
  | recovered hs hc =>
    have hn := ((stage_recover hs).1 hph.stage).2.1
    rw [rank_recover hs]
    refine (rank_precharge rfl (by exact hn)).trans_lt ?_
    omega
  | precharge hs =>
    have hstage := hph.stage
    unfold Stage at hstage
    rw [hs] at hstage
    rcases hph.next_of_precharge hs with hn | hn
    · rw [rank_precharge hs hn]
      refine (rank_wait_last rfl (by exact hn) ?_).trans_lt ?_
      · change ¬ 1 < s.count
        rw [hstage.2.1]
        decide
      · omega
    · simp [rank, hs, hn, hstage.2.1]
  | refresh hs => simp [rank, hs, due, restRank]
  | leave hs hr =>
    have hack : s.ackRefreshRequest = false := hph.not_acked (by simp [hs]) (by simp [hs])
    have hrank : s.rank x = 12 := by simp [rank, hs, due, hr, hack]
    have hle := restRank_le (s.due x)
    rw [hrank]
    refine (rank_wait_last rfl rfl (by simp)).trans_lt ?_
    omega
  | again hs hr hp =>
    have hsel : s.fSelect x = false :=
      fSelect_of_fPop (hfPop (by simp [hs]) (by simp [hs]) (by simp [hs]))
    obtain ⟨he', hf'⟩ := hfront hsel (pending_iff.1 hp).2.2.2.2
    have hrank : s.rank x = 1 := by simp [rank, hs, due, hr, hp]
    rw [hrank]
    refine (rank_serving rfl).trans_lt ?_
    have hp' : MainFsm.pending { s with
        fPop := true, oe := false, cmd := ⟨s.csnDecode x, 7⟩
        state := serving x.f.rnw, activeCsN := false, active := x.f } x' = true := by
      rw [pending_iff, hf']
      exact ⟨rfl, rfl, rfl, rfl, he'⟩
    rw [hp']
    simp
  | other hs hr he hp =>
    have hd : s.due x = false := by rw [due, hr, Bool.false_and]
    have hrank : s.rank x = 7 := by simp [rank, hs, hd, hp]
    rw [hd] at hrest
    rw [hrank]
    refine (rank_recover rfl).trans_lt ?_
    simp [restRank] at hrest ⊢
    omega

end Move

/-! ### Service -/

/-- The clocks until the next request goes out, at most, with the refresh that comes in between. -/
def SdramController.patience (s : SdramController) : ℕ :=
  s.main.rank s.mainIn + if s.refreshCounter.toNat ≤ s.main.rank s.mainIn then 14 else 0

section Service

variable {s : Board} {i : SlaveIn} {w : BitVec 16} {n : ℕ}

lemma OnTime.rank_le (h : OnTime n s) (hs : Sound s) : s.ctl.main.rank s.ctl.mainIn ≤ 13 := by
  have hfit := hs.fits.phase h.done
  exact hfit.rank_le

lemma OnTime.patience_lt (h : OnTime n s) (hs : Sound s) : s.ctl.patience < 28 := by
  have := h.rank_le hs
  unfold SdramController.patience
  split_ifs <;> omega

/-- **One clock** without a request on the wires. -/
theorem OnTime.patience_edge (h : OnTime n s) (hs : Sound s) (hwait : s.ctl.waiting ≠ [])
    (hserve : s.ctl.serving = []) : (s.edge i w).ctl.patience < s.ctl.patience := by
  have hnext := (h.edge (i := i) (w := w) hs).rank_le hs.edge
  have hcounter : (s.edge i w).ctl.refreshCounter.toNat = _ := toNat_refreshCounter_edge
  by_cases h0 : s.ctl.refreshCounter.toNat = 0
  · rw [if_pos h0] at hcounter
    unfold SdramController.patience
    rw [if_neg (by omega), if_pos (by omega)]
    omega
  · rw [if_neg h0] at hcounter
    have hfit := hs.fits.phase h.done
    have hlt : (s.edge i w).ctl.main.rank (s.edge i w).ctl.mainIn <
        s.ctl.main.rank s.ctl.mainIn := by
      refine (MainFsm.moves h.done).rank_lt hfit hs.held.takes hserve ?_
        (due_of_edge (i := i) (w := w) h0) ?_
      · intro hhand
        cases he : s.ctl.mainIn.fEmpty with
        | false => rfl
        | true =>
          rw [SdramController.waiting, hhand, Efifo.contents_of_empty he] at hwait
          exact absurd rfl hwait
      · exact fun hsel he => hs.held.front_edge hsel he
    unfold SdramController.patience
    split_ifs <;> omega

end Service

section Runs

variable (p : PowerUp) (openRow : BitVec 2 → Option (BitVec 13)) (cells : BitVec 25 → BitVec 16)
  (inp : ℕ → BoardIn)

theorem boardAt_onTime {n : ℕ} (hn : 5017 ≤ n) : OnTime n (boardAt p openRow cells inp n) := by
  induction n, hn using Nat.le_induction with
  | base =>
    obtain ⟨hdone, hcount, hr, hack, hrefs⟩ := powered_of_eq p openRow cells inp rfl
    refine ⟨hdone, fun hd => ?_, fun ha => absurd (hack.symm.trans ha) Bool.false_ne_true, 0,
      by rw [hcount], hrefs.trans (Nat.le_add_right _ _)⟩
    rw [SdramController.due, hr, Bool.false_and] at hd
    cases hd
  | succ n hn ih => exact ih.edge (boardAt_sound p openRow cells inp n)

/-- While something waits, a request goes out within 28 clocks. -/
lemma exists_serving {n : ℕ} (hn : 5017 ≤ n)
    (hwait : (boardAt p openRow cells inp n).ctl.waiting ≠ []) :
    ∃ m, n ≤ m ∧ m < n + 28 ∧ (boardAt p openRow cells inp m).ctl.serving ≠ [] := by
  have key (k : ℕ) : ∀ n, 5017 ≤ n → (boardAt p openRow cells inp n).ctl.waiting ≠ [] →
      (boardAt p openRow cells inp n).ctl.patience < k →
      ∃ m, n ≤ m ∧ m < n + k ∧ (boardAt p openRow cells inp m).ctl.serving ≠ [] := by
    induction k with
    | zero => exact fun n _ _ h => absurd h (Nat.not_lt_zero _)
    | succ k ih =>
      intro n hn hwait hk
      by_cases hserve : (boardAt p openRow cells inp n).ctl.serving = []
      · have hlt := (boardAt_onTime p openRow cells inp hn).patience_edge (i := (inp n).slave)
          (w := (inp n).float) (boardAt_sound p openRow cells inp n) hwait hserve
        have hstep := (queues_boardAt p openRow cells inp).step n
        rw [hserve, List.nil_append] at hstep
        have hwait' : (boardAt p openRow cells inp (n + 1)).ctl.waiting ≠ [] := by
          intro hnil
          rw [hnil] at hstep
          exact hwait (List.append_eq_nil_iff.1 hstep).1
        obtain ⟨m, hm, hmk, hout⟩ := ih (n + 1) (by omega) hwait'
          (hlt.trans_le (Nat.lt_succ_iff.1 hk))
        exact ⟨m, by omega, by omega, hout⟩
      · exact ⟨n, le_rfl, by omega, hserve⟩
  exact key 28 n hn hwait
    ((boardAt_onTime p openRow cells inp hn).patience_lt (boardAt_sound p openRow cells inp n))

lemma length_waiting_le (s : SdramController) : s.waiting.length ≤ 3 := by
  have hhand : s.main.hand.length ≤ 1 := by
    unfold MainFsm.hand
    split_ifs
    · exact Nat.zero_le _
    · split
      · exact le_rfl
      · exact le_rfl
      · split <;> simp
      · exact Nat.zero_le _
  have hfifo : s.fifo.contents.length ≤ 2 := (List.length_take_le' _ _)
  rw [SdramController.waiting, List.length_append]
  omega

/-- **The board is a memory.** At any time the words shown are a first part of what a memory
answers to the requests accepted, in order; and after the power-up sequence the requests accepted
up to any time have all been answered 89 clocks later. -/
theorem boardAt_answers (n : ℕ) :
    shown p openRow cells inp n <+:
        replies Op.act Op.reply cells ((accepted p openRow cells inp n).map Request.op) ∧
      (5017 ≤ n →
        replies Op.act Op.reply cells ((accepted p openRow cells inp n).map Request.op) <+:
          shown p openRow cells inp (n + 89)) := by
  have hq := queues_boardAt p openRow cells inp
  constructor
  · refine (history_mono (Nat.le_add_right n 5)).trans ?_
    change shown p openRow cells inp (n + 5) <+: _
    rw [shown_add_five]
    exact replies_mono _ ((hq.outs_le n).map _)
  · intro hn
    have hout := hq.le_outs (fun m => length_waiting_le _)
      (fun m hm hwait => exists_serving p openRow cells inp hm hwait) hn
    rw [shown_add_five p openRow cells inp (n + 84)]
    exact replies_mono _ (hout.map _)

/-- Until the power-up sequence is over nothing is done for a request. -/
lemma initDone_of_lt {n : ℕ} (hn : n < 5017) :
    (boardAt p openRow cells inp n).ctl.initDone = false := by
  by_cases h : n ≤ 5000
  · exact (hold_of_le p openRow cells inp h).2.1
  · exact (start_of_eq p openRow cells inp (k := n - 5001) (by omega) (by omega)).2.1

/-- A refresh is not asked for while the last one is. -/
lemma refreshRequest_of_zero {n : ℕ}
    (h0 : (boardAt p openRow cells inp n).ctl.refreshCounter.toNat = 0) :
    (boardAt p openRow cells inp n).ctl.refreshRequest = false := by
  by_cases hn : 5017 ≤ n
  · exact ((boardAt_onTime p openRow cells inp hn).of_zero h0).1
  · exact ((boardAt_sound p openRow cells inp n).fits.poweringUp
      (initDone_of_lt p openRow cells inp (not_le.1 hn))).refresh

/-- After the power-up sequence one refresh has been given for every 782 clocks and the two at
power-up, but for the last. -/
lemma le_refreshes_boardAt {n : ℕ} (hn : 5018 ≤ n) :
    1 + (n - 5002) / 782 ≤ (boardAt p openRow cells inp n).chip.refreshes := by
  obtain ⟨m, rfl⟩ : ∃ m, n = m + 1 := ⟨n - 1, by omega⟩
  obtain ⟨q, hq, hcount⟩ := (boardAt_onTime p openRow cells inp (n := m) (by omega)).count
  have hdue := Bool.toNat_le (boardAt p openRow cells inp m).ctl.due
  change 1 + (m + 1 - 5002) / 782 ≤ (boardAt p openRow cells inp m).served.refreshes
  omega

/-- **The refreshes come in time**: none is asked for before the last one was acknowledged, and
after `n` clocks from the end of the power-up sequence on, one has been given for every 782 clocks
and the two at power-up, but for the last. -/
theorem boardAt_refreshes (n : ℕ) :
    (boardAt p openRow cells inp n).ctl.zaCannotrefresh = false ∧
      (5018 ≤ n → 1 + (n - 5002) / 782 ≤ (boardAt p openRow cells inp n).chip.refreshes) := by
  constructor
  · cases n with
    | zero => rfl
    | succ n =>
      rw [ctl_succ]
      change (decide ((boardAt p openRow cells inp n).ctl.refreshCounter = 0) &&
        (boardAt p openRow cells inp n).ctl.refreshRequest) = false
      rw [decide_refreshCounter]
      by_cases h0 : (boardAt p openRow cells inp n).ctl.refreshCounter.toNat = 0
      · rw [refreshRequest_of_zero p openRow cells inp h0, Bool.and_false]
      · rw [decide_eq_false h0, Bool.false_and]
  · exact fun hn => le_refreshes_boardAt p openRow cells inp hn

end Runs

end VideoPipeline.Sdram

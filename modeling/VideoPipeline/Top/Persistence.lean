import VideoPipeline.Top.Boundary

/-!
A display without flushes. As long as the FIFO is never cleared and the picture stays loaded, a
frame leaves as many words behind as it found, or more: so a display that is in step at the end of
a frame stays in step for ever, and one that is not never comes back, until it is switched off.
-/

namespace VideoPipeline.Top

open VideoPipeline.Lib VideoPipeline.Vga VideoPipeline.Image VideoPipeline.Read
  SdramReadController

namespace Run

variable {r : Run} {q : Terms} {t t₀ u i j : ℕ} {x : SysIn}

/-! ### The end of a frame -/

/-- A restart that is pending waits for the bus, which is behind then. -/
lemma pending_or_lead (hl : r.Linked) (ht₀ : r.Rises t₀) (hle : t₀ ≤ t) (htb : t < t₀ + 420000)
    (hi : i ≤ (r.burst t).length) (hs : 4 ≤ r.since t i) :
    (r.point t i).path.ctl.vgaResetPending = false ∨ t ≤ t₀ + 4 + r.lead t i := by
  refine invariant (P := fun t i => t₀ ≤ t → t < t₀ + 420000 → 4 ≤ r.since t i →
    (r.point t i).path.ctl.vgaResetPending = false ∨ t ≤ t₀ + 4 + r.lead t i) ?_ ?_ ?_ hi hle htb hs
  · intro _ _ _
    exact Or.inl rfl
  · intro t i x hx ih h1 h2 h3
    rw [since_succ] at h3
    have hph := vsPhase_of_rises ht₀ h1 h2
    have hsince := vsPhase_le_since hl t i
    rw [pending_point_succ hl hx]
    by_cases hr : r.RestartsAt (r.point t i, x)
    · exact Or.inl (if_pos hr)
    · rw [if_neg hr]
      by_cases h4 : r.since t i = 3
      · exact Or.inr (by omega)
      · rw [decide_eq_false h4, Bool.false_or]
        cases hp : (r.point t i).path.ctl.vgaResetPending with
        | false => exact Or.inl rfl
        | true =>
          have hst : r.StalledAt (r.point t i, x) := stalledAt_of_not_restartsAt hp hr
          rw [lead_succ hx, if_pos hst]
          exact Or.inr ((ih h1 h2 (by omega)).resolve_left (by simp [hp]))
  · intro t ih h1 h2 h3
    by_cases h0 : vsPhase (t + 1) = 0
    · rw [since_zero_of_rises h0] at h3
      omega
    · rw [since_cycle h0] at h3
      have hne : t₀ ≠ t + 1 := fun he => h0 (he ▸ (rises_iff t₀).1 ht₀)
      rw [point_zero, ctl_start_succ, final_eq, lead_cycle]
      exact (ih (by omega) (by omega) h3).imp id fun _ => by omega

/-- The wait for the flush, once over, is over for the frame. -/
lemma flushWait_of_le (hl : r.Linked) (ht₀ : r.Rises t₀) (hle : t₀ + 4 ≤ t)
    (hi : i ≤ (r.burst t).length) (hw : (r.point t i).path.ctl.flushWait = false)
    (htu : t < u ∨ u = t ∧ i ≤ j)
    (hub : u < t₀ + 420000) (hj : j ≤ (r.burst u).length) :
    (r.point u j).path.ctl.flushWait = false := by
  refine invariant (P := fun u j => t < u ∨ u = t ∧ i ≤ j → u < t₀ + 420000 →
    (r.point u j).path.ctl.flushWait = false) ?_ ?_ ?_ hj htu hub
  · intro _ _
    rfl
  · intro u j y hy ih h1 h2
    by_cases hij : u = t ∧ i = j + 1
    · rw [hij.1, ← hij.2]
      exact hw
    · have hph := vsPhase_of_rises ht₀ (show t₀ ≤ u by omega) h2
      have hsince := vsPhase_le_since hl u j
      have hne : ¬ r.since u j = 3 := by omega
      rw [ctl_point_succ hy, flushWait_edge, vgaDonePulse_point hl (lt_of_burst hy).le,
        decide_eq_false hne, ih (by omega) h2]
      rfl
  · intro u ih h1 h2
    by_cases hij : u + 1 = t
    · obtain rfl : i = 0 := by omega
      rw [hij]
      exact hw
    · rw [point_zero, ctl_start_succ, final_eq]
      rcases Nat.lt_or_ge t u with hlt | hge
      · exact ih (Or.inl hlt) (by omega)
      · obtain rfl : u = t := by omega
        exact ih (Or.inr ⟨rfl, hi⟩) (by omega)

/-- In a frame that is not flushed the wait is over when the display has emptied the FIFO, at
the latest. -/
lemma flushWait_after_frame (hl : r.Linked) (hk : r.Keeps q) (ht₀ : r.Rises t₀) :
    (r.start (t₀ + 411000)).path.ctl.flushWait = false := by
  have h0 := (rises_iff t₀).1 ht₀
  have hdark := q.dark_le
  by_contra hwait
  have hall {t i : ℕ} (hle : t₀ + 4 ≤ t) (hte : t < t₀ + 411000) (hi : i ≤ (r.burst t).length) :
      (r.point t i).path.ctl.flushWait = true := by
    refine Bool.eq_true_of_not_eq_false fun hw => hwait ?_
    rw [← point_zero]
    exact flushWait_of_le hl ht₀ hle hi hw (Or.inl hte) (by omega) (Nat.zero_le _)
  have hg : r.Gated (t₀ + 4) (t₀ + 411000) := by
    intro t i x h1 h2 hx his
    have hflushed : (r.point t i).path.ctl.flushWait = false := (issues_iff.1 his).flushed
    exact Bool.false_ne_true (hflushed.symm.trans (hall h1 h2 (lt_of_burst hx).le))
  have hempty : (r.start (t₀ + 410994)).path.underWay = 0 :=
    hg.empty hl hk ht₀ le_rfl (by omega) (by omega) (by omega) (by omega)
  -- the next edge finds the FIFO empty
  have hx := List.getElem?_eq_getElem (hl (t₀ + 410994) (by omega))
  have hused := hk.wrusedw_le hx fun u h1 h2 hreq => by
    have := (between_of_requests ht₀ (by omega) (by omega) hreq).2
    omega
  rw [point_zero, (avmRead_of_underWay hempty).2.1, List.length_nil] at hused
  have hnil : ((r.point (t₀ + 410994) 0).ctlIn r.mem _).fifoIsEmpty = true :=
    decide_eq_true (BitVec.eq_of_toNat_eq (Nat.le_zero.1 hused))
  have hw := hall (i := 1) (show t₀ + 4 ≤ t₀ + 410994 by omega) (by omega) (hl _ (by omega))
  rw [ctl_point_succ hx, flushWait_edge, hnil, hall (by omega) (by omega) (Nat.zero_le _)] at hw
  exact Bool.false_ne_true hw

/-- **The end of a frame** with the picture loaded: the restart has been executed, and the picture
is complete or words are under way. -/
theorem frame_end (hl : r.Linked) (hk : r.Keeps q) (ht₀ : r.Rises t₀)
    (hon : ∀ t ≥ t₀, ∀ x ∈ r.burst t, x.pioImgLoaded = true) :
    (r.start (t₀ + 420000)).path.ctl.vgaResetPending = false ∧
      ((r.start (t₀ + 420000)).path.ctl.reqCnt.toNat = 307200 ∨
        1 ≤ (r.start (t₀ + 420000)).path.underWay) := by
  have hfits := q.fits
  have hpend {t i : ℕ} (h1 : t₀ + 505 ≤ t) (h2 : t < t₀ + 420000) (hi : i ≤ (r.burst t).length) :
      (r.point t i).path.ctl.vgaResetPending = false := by
    have hph := vsPhase_of_rises ht₀ (show t₀ ≤ t by omega) h2
    have hsince := vsPhase_le_since hl t i
    have hlead := hk.lead_le hi
    exact (pending_or_lead hl ht₀ (by omega) h2 hi (by omega)).resolve_right (by omega)
  -- in the blanking the controller fetches, unless the picture is complete
  have hfetch : r.Fetches t₀ (t₀ + 411000) := by
    refine ⟨ht₀, by omega, ?_, ⟨hpend (by omega) (by omega) (Nat.zero_le _), ?_⟩, ?_⟩
    · intro t h1 h2 hreq
      have := (between_of_requests ht₀ (by omega) (by omega) hreq).2
      omega
    · rw [point_zero]
      exact flushWait_after_frame hl hk ht₀
    · intro t h1 _
      exact hon t (by omega)
  obtain ⟨t, ht⟩ : ∃ t, t₀ + 420000 = t + 1 := ⟨t₀ + 419999, by omega⟩
  have hlev := hfetch.le_level hl hk (show t₀ + 411000 ≤ t by omega) (by omega)
    (le_refl (r.burst t).length)
  rw [ht, ctl_start_succ]
  refine ⟨hpend (by omega) (by omega) le_rfl, ?_⟩
  rcases (counted_point (le_refl (r.burst t).length)).le.lt_or_eq with hlt | heq
  · right
    have hlt' : (r.point t (r.burst t).length).path.ctl.reqCnt.toNat < 307200 := hlt
    have hspare : r.spare t (r.burst t).length = 0 := if_neg fun hs => by omega
    have hlead := hk.lead_le (le_refl (r.burst t).length)
    unfold level at hlev
    have hnext : vsPhase (t + 1) = 0 := by
      have h0 := (rises_iff t₀).1 ht₀
      rw [← ht]
      unfold vsPhase at h0 ⊢
      omega
    have hclr : ¬ r.Aclr (t + 1) := fun ha =>
      absurd ((aclr_add hl hnext (show 0 < 420000 by omega)).1 ha).2.1 (by omega)
    have hpop : ¬ r.Popped t := fun hp => by
      have := (between_of_requests ht₀ (by omega) (by omega) ((popped_iff t).1 hp).1).2
      omega
    have hway := underWay_start_succ hclr
    rw [if_neg hpop, final_eq] at hway
    omega
  · exact Or.inl heq

/-! ### What a frame leaves -/

section

variable (r)

/-- No flush happens from cycle `t₀` on: two edges of `clk_50m_sys` fall in the cycle of a rise. -/
def Unflushed (t₀ : ℕ) : Prop := ∀ t ≥ t₀, r.Rises t → (r.burst t).length = 2

end

lemma Unflushed.not_aclr (h : r.Unflushed t₀) (hl : r.Linked) (ht₀ : r.Rises t₀) (hle : t₀ ≤ t) :
    ¬ r.Aclr t := by
  have h0 := (rises_iff t₀).1 ht₀
  obtain ⟨k, rfl⟩ := Nat.exists_eq_add_of_le hle
  have hrise : vsPhase (t₀ + 420000 * (k / 420000)) = 0 := by
    unfold vsPhase at h0 ⊢
    omega
  intro ha
  rw [show t₀ + k = t₀ + 420000 * (k / 420000) + k % 420000 by omega,
    aclr_add hl hrise (Nat.mod_lt _ (by omega))] at ha
  have := h _ (by omega) ((rises_iff _).2 hrise)
  omega

/-- More words are under way, and have been taken since the rise, than were asked for since the
restart: so it is when a frame begins with words under way. -/
structure Behind (r : Run) (t₀ t i : ℕ) : Prop where
  left : Nat.count r.Popped t₀ + 1 ≤ (r.point t i).path.underWay + Nat.count r.Popped t
  ahead : 4 ≤ r.since t i → (r.point t i).path.ctl.vgaResetPending = true ∨
    Nat.count r.Popped t₀ + (r.point t i).path.ctl.reqCnt.toNat + 1 ≤
      (r.point t i).path.underWay + Nat.count r.Popped t

theorem behind (hl : r.Linked) (hk : r.Keeps q) (ht₀ : r.Rises t₀) (hu : r.Unflushed t₀)
    (hleft : 1 ≤ (r.start t₀).path.underWay) (hle : t₀ ≤ t) (htb : t < t₀ + 420000)
    (hi : i ≤ (r.burst t).length) : r.Behind t₀ t i := by
  have h0 := (rises_iff t₀).1 ht₀
  have hbase : r.Behind t₀ t₀ 0 := by
    refine ⟨?_, fun h4 => ?_⟩
    · rw [point_zero]
      omega
    · rw [since_zero_of_rises h0] at h4
      omega
  refine invariant (P := fun t i => t₀ ≤ t → t < t₀ + 420000 → r.Behind t₀ t i) ?_ ?_ ?_ hi hle htb
  · intro h1 _
    obtain rfl : t₀ = 0 := by omega
    exact hbase
  · intro t i x hx ih h1 h2
    obtain ⟨hone, hahead⟩ := ih h1 h2
    have hway := underWay_point_succ hk.roomy hx (hu.not_aclr hl ht₀ h1)
    refine ⟨by omega, ?_⟩
    rw [since_succ, pending_point_succ hl hx]
    intro h4
    by_cases hr : r.RestartsAt (r.point t i, x)
    · -- what is left then is ahead of the words asked for from now on
      have hzero : (r.point t (i + 1)).path.ctl.reqCnt.toNat = 0 := by
        rw [ctl_point_succ hx, reqCnt_of_restarts hr]
        rfl
      exact Or.inr (by omega)
    · rw [if_neg hr]
      by_cases h3 : r.since t i = 3
      · rw [decide_eq_true h3, Bool.true_or]
        exact Or.inl rfl
      · rw [decide_eq_false h3, Bool.false_or]
        refine (hahead (by omega)).imp id fun hcnt => ?_
        by_cases his : r.IssuesAt (r.point t i, x)
        · have hreq : (r.point t (i + 1)).path.ctl.reqCnt.toNat =
              (r.point t i).path.ctl.reqCnt.toNat + 1 := by
            rw [ctl_point_succ hx]
            exact toNat_reqCnt_of_issues his
          rw [if_pos his] at hway
          omega
        · have hreq : (r.point t (i + 1)).path.ctl.reqCnt = (r.point t i).path.ctl.reqCnt := by
            rw [ctl_point_succ hx]
            exact reqCnt_of_not_issues (Bool.eq_false_iff.2 hr) (Bool.eq_false_iff.2 his)
          rw [if_neg his] at hway
          rw [hreq]
          omega
  · intro t ih h1 h2
    by_cases he : t₀ = t + 1
    · rw [← he]
      exact hbase
    · obtain ⟨hone, hahead⟩ := ih (by omega) (by omega)
      have hway := underWay_start_succ (hu.not_aclr hl ht₀ h1)
      have hph := vsPhase_of_rises ht₀ h1 h2
      have hcount := Nat.count_succ r.Popped t
      rw [final_eq] at hway
      refine ⟨?_, ?_⟩
      · rw [point_zero]
        omega
      · rw [since_cycle (by omega), point_zero, ctl_start_succ, final_eq]
        exact fun h4 => (hahead h4).imp id fun hcnt => by omega

/-- Words are taken at requests only. -/
lemma count_popped_add (t k : ℕ) : Nat.count r.Popped (t + k) + Nat.count Requests t ≤
    Nat.count r.Popped t + Nat.count Requests (t + k) := by
  induction k with
  | zero => exact le_rfl
  | succ k ih =>
    rw [← Nat.add_assoc, Nat.count_succ, Nat.count_succ]
    have himp : r.Popped (t + k) → Requests (t + k) := fun hp => ((popped_iff _).1 hp).1
    split_ifs with hp hq hq
    · omega
    · exact absurd (himp hp) hq
    · omega
    · omega

/-- **A frame leaves what it found**, if it was not flushed. -/
theorem underWay_frame (hl : r.Linked) (hk : r.Keeps q) (ht₀ : r.Rises t₀) (hu : r.Unflushed t₀)
    (hon : ∀ t ≥ t₀, ∀ x ∈ r.burst t, x.pioImgLoaded = true)
    (hleft : 1 ≤ (r.start t₀).path.underWay) :
    1 ≤ (r.start (t₀ + 420000)).path.underWay := by
  obtain ⟨hpend, hcomplete⟩ := frame_end hl hk ht₀ hon
  refine hcomplete.elim (fun hcnt => ?_) id
  obtain ⟨t, ht⟩ : ∃ t, t₀ + 420000 = t + 1 := ⟨t₀ + 419999, by omega⟩
  have hph := vsPhase_of_rises ht₀ (show t₀ ≤ t by omega) (by omega)
  have hsince := vsPhase_le_since hl t (r.burst t).length
  have hb := behind hl hk ht₀ hu hleft (show t₀ ≤ t by omega) (by omega)
    (le_refl (r.burst t).length)
  have htaken := count_popped_add (r := r) t₀ 420000
  have hframe := count_requests_late ht₀ (show 410394 ≤ 420000 by omega) le_rfl
  have hway := underWay_start_succ (hu.not_aclr hl ht₀ (show t₀ ≤ t + 1 by omega))
  rw [ht, Nat.count_succ] at htaken
  rw [ht, ctl_start_succ] at hpend hcnt
  rw [final_eq] at hpend hcnt hway
  have hcnt' := (hb.ahead (by omega)).resolve_left (by simp [hpend])
  rw [ht] at hframe ⊢
  omega

/-- A frame that begins with words under way is not settled. -/
lemma not_settled (hl : r.Linked) (hk : r.Keeps q) (ht₀ : r.Rises t₀) (hu : r.Unflushed t₀)
    (hleft : 1 ≤ (r.start t₀).path.underWay) : ¬ r.Settled t₀ := by
  rintro ⟨hpend, hcnt⟩
  have hb := behind hl hk ht₀ hu hleft (Nat.le_add_right t₀ 12) (by omega) (Nat.zero_le _)
  have hph := vsPhase_of_rises ht₀ (Nat.le_add_right t₀ 12) (by omega)
  have hsince := vsPhase_le_since hl (t₀ + 12) 0
  have htaken := count_popped_add (r := r) t₀ 12
  have hnone := count_requests_early ht₀ (show 12 ≤ 26554 by omega)
  have hahead := (hb.ahead (by omega)).resolve_left (by rw [point_zero, hpend]; simp)
  rw [point_zero, ← hcnt] at hahead
  unfold ReadPath.underWay at hahead
  omega

/-! ### In step or not -/

/-- **In step for ever, or never.** Where the terms are kept, a display that is loaded and not
flushed serves every request from the second frame on, or none of its frames has a clean
boundary: words of an earlier frame are under way at every rise. -/
theorem in_step_or_not (h2 : r.TwoToOne) (hk : r.Keeps q) (ht₀ : r.Rises t₀) (hu : r.Unflushed t₀)
    (hon : ∀ t ≥ t₀, ∀ x ∈ r.burst t, x.pioImgLoaded = true) :
    (∀ t ≥ t₀ + 420000, r.VgaReq t → r.Popped t ∧
        r.poppedWord t = r.mem (bufferABase + (r.start t).oAddress.setWidth 25)) ∨
      ∀ t ≥ t₀ + 420000, r.Rises t → 1 ≤ (r.start t).path.underWay ∧ ¬ r.Clean t := by
  have hl := h2.linked
  have h0 := (rises_iff t₀).1 ht₀
  have hrise (n : ℕ) : r.Rises (t₀ + 420000 * n) := by
    refine (rises_iff _).2 ?_
    unfold vsPhase at h0 ⊢
    omega
  have hfree (n : ℕ) : r.Unflushed (t₀ + 420000 * n) := fun t ht => hu t (by omega)
  have hload (n : ℕ) : ∀ t ≥ t₀ + 420000 * n, ∀ x ∈ r.burst t, x.pioImgLoaded = true :=
    fun t ht => hon t (by omega)
  rcases Nat.eq_zero_or_pos (r.start (t₀ + 420000)).path.underWay with hidle | hleft
  · left
    obtain ⟨hpend, hcomplete⟩ := frame_end hl hk ht₀ hon
    have hrest : r.Rested (t₀ + 420000) :=
      ⟨hrise 1, hidle, hpend, Or.inl (hcomplete.resolve_right (by omega))⟩
    have hs : r.Spares (t₀ + 420000) := fun t i x ht _ hc =>
      absurd hc (hu.not_aclr hl ht₀ (by omega))
    exact fun t ht hreq => hrest.service h2 hk hs (fun u hu' => hon u (by omega)) ht hreq
  · right
    have hstay (n : ℕ) : 1 ≤ (r.start (t₀ + 420000 * (n + 1))).path.underWay := by
      induction n with
      | zero => exact hleft
      | succ n ih =>
        have hnext := underWay_frame hl hk (hrise (n + 1)) (hfree (n + 1)) (hload (n + 1)) ih
        rwa [show t₀ + 420000 * (n + 1) + 420000 = t₀ + 420000 * (n + 1 + 1) by omega] at hnext
    intro t ht hrt
    have hph := (rises_iff t).1 hrt
    obtain ⟨n, rfl⟩ : ∃ n, t = t₀ + 420000 * (n + 1) :=
      ⟨(t - t₀) / 420000 - 1, by unfold vsPhase at h0 hph; omega⟩
    have hset := not_settled hl hk hrt (hfree (n + 1)) (hstay n)
    exact ⟨hstay n, mt (settled_iff_clean h2 hk.roomy hrt).2 hset⟩

end Run

/-! ### The loop is in step -/

lemma unflushed_doubleLoop (mem : BitVec 25 → BitVec 16) (img : ℕ → Bool) (t : ℕ) :
    (doubleLoop mem img).Unflushed t := fun _ _ _ => rfl

theorem in_step_or_not_later : (∀ t ≥ 9606 + 420000 + 420000, (doubleLoop lowHalf later).VgaReq t →
      (doubleLoop lowHalf later).Popped t ∧ (doubleLoop lowHalf later).poppedWord t =
        (doubleLoop lowHalf later).mem
          (bufferABase + ((doubleLoop lowHalf later).start t).oAddress.setWidth 25)) ∨
    ∀ t ≥ 9606 + 420000 + 420000, (doubleLoop lowHalf later).Rises t →
      1 ≤ ((doubleLoop lowHalf later).start t).path.underWay ∧
        ¬ (doubleLoop lowHalf later).Clean t :=
  Run.in_step_or_not (twoToOne_doubleLoop lowHalf later) (keeps_doubleLoop lowHalf later)
    ((Run.rises_iff (9606 + 420000)).2 (by simp [vsPhase])) (unflushed_doubleLoop lowHalf later _)
    fun t ht => on_later t (by omega)

end VideoPipeline.Top

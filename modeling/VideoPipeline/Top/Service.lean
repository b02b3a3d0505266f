import VideoPipeline.Top.Supply

/-!
Frames served. A frame that begins with nothing under way is settled when its flush is over, as
long as no read is answered while the FIFO is in clear; under the terms of the supply every
request of a settled frame is then served, with the word of the picture at the address requested;
and a frame served to its end leaves nothing under way, so that the next one begins as it did.
-/

namespace VideoPipeline.Top

open VideoPipeline.Lib VideoPipeline.Vga VideoPipeline.Image VideoPipeline.Pixel VideoPipeline.Read
  SdramReadController

namespace Run

/-! ### The opening of a frame -/

section

variable (r : Run) (t₀ : ℕ)

/-- From cycle `t₀` on no read is answered while the FIFO is in clear. -/
def Spares : Prop := ∀ t i x, t₀ ≤ t → (r.burst t)[i]? = some x → r.Aclr t →
  x.respond = true → (r.point t i).path.bus = []

/-- At the rise `t₀` nothing is under way, and no command is placed before the restart: the
picture is complete, or not loaded. -/
structure Rested : Prop where
  rise : r.Rises t₀
  idle : (r.start t₀).path.underWay = 0
  pending : (r.start t₀).path.ctl.vgaResetPending = false
  calm : (r.start t₀).path.ctl.reqCnt.toNat = 307200 ∨ ∀ t i, t₀ ≤ t → t ≤ t₀ + 3 →
    i ≤ (r.burst t).length → (r.point t i).path.ctl.frameReady = false

/-- What holds from a rise to the end of the flush. -/
structure Opening (t i : ℕ) : Prop where
  idle : r.since t i ≤ 5 → (r.point t i).path.underWay = 0
  pending : (r.point t i).path.ctl.vgaResetPending = decide (r.since t i = 4)
  held : r.since t i ≤ 4 → (r.point t i).path.ctl.reqCnt = (r.start t₀).path.ctl.reqCnt
  wait : 1 ≤ r.since t i → r.since t i ≠ 4 → (r.point t i).path.ctl.flushWait = false
  counts : 5 ≤ r.since t i → (r.point t i).path.underWay = (r.point t i).path.ctl.reqCnt.toNat

end

variable {r : Run} {q : Terms} {t t₀ i : ℕ} {x : SysIn}

lemma avmRead_of_underWay {s : ReadPath} (h : s.underWay = 0) :
    s.ctl.avmRead = false ∧ s.fifo = [] ∧ s.bus = [] := by
  unfold ReadPath.underWay ReadPath.onBus at h
  refine ⟨?_, List.eq_nil_of_length_eq_zero (by omega), List.eq_nil_of_length_eq_zero (by omega)⟩
  cases hrd : s.ctl.avmRead with
  | false => rfl
  | true =>
    rw [hrd, if_pos rfl] at h
    omega

/-- With no command on the bus a pending restart is executed. -/
lemma restartsAt_of_idle (hrd : (r.point t i).path.ctl.avmRead = false) :
    r.RestartsAt (r.point t i, x) ↔ (r.point t i).path.ctl.vgaResetPending = true := by
  unfold RestartsAt SdramReadController.restarts stalled
  rw [hrd]
  simp

/-- While no read is answered in the clear, an edge adds the command it places. -/
lemma Spares.underWay_succ (hs : r.Spares t₀) (hroom : r.Roomy) (ht : t₀ ≤ t)
    (hx : (r.burst t)[i]? = some x) : (r.point t (i + 1)).path.underWay =
      (r.point t i).path.underWay + if r.IssuesAt (r.point t i, x) then 1 else 0 := by
  by_cases hc : r.Aclr t
  · have hclr : (r.point t i).fifoAclr = true := by
      rw [fifoAclr_point]
      exact hc
    have hans : (r.point t i).path.answered ((r.point t i).pathIn r.mem x) = none := by
      unfold ReadPath.answered DoanTop.pathIn
      cases hr : x.respond with
      | false => rfl
      | true => simp [hs t i x ht hx hc hr]
    rw [point_succ hx, DoanTop.edge50, hclr]
    exact ReadPath.underWay_edge_clear (fifo_of_aclr (lt_of_burst hx).le hc) hans
  · exact underWay_point_succ hroom hx hc

/-- Words that have been in the FIFO for long enough are shown to the read side. -/
lemma Keeps.not_rdemptyLags (hk : r.Keeps q)
    (h : ∀ u ≤ t, t < u + q.dark → (r.start u).path.fifo ≠ []) : (r.vga t).rdemptyLags = false := by
  by_contra hlag
  obtain ⟨u, hut, hu, hnil⟩ := hk.shown t (Bool.eq_true_of_not_eq_false hlag)
  exact h u hut hu hnil

/-- When no word was taken lately, the FIFO reports no more words than it has. -/
lemma Keeps.wrusedw_le (hk : r.Keeps q) (hx : (r.burst t)[i]? = some x)
    (hno : ∀ u < t, t ≤ u + 500 → ¬ Requests u) :
    x.vgaFifoWrusedw.toNat ≤ (r.point t i).path.fifo.length := by
  have hrep := hk.reported t i x hx
  have hfits := q.fits
  have hsame : Nat.count r.Popped t ≤ Nat.count r.Popped (t - q.stale) := by
    by_contra hlt
    obtain ⟨u, hu, hp⟩ := Nat.exists_of_count_lt_count (not_le.1 hlt)
    have hle := hu.1
    exact hno u hu.2 (by omega) ((popped_iff u).1 hp).1
  omega

lemma not_requests_of_rises (ht₀ : r.Rises t₀) (hle : t₀ ≤ t + 9606) (ht : t < t₀ + 26554) :
    ¬ Requests t := by
  have h0 := (rises_iff t₀).1 ht₀
  intro hr
  have hph := vsPhase_of_requests hr
  unfold vsPhase at h0 hph
  omega

namespace Rested

variable (h : r.Rested t₀)

include h

/-- Before the restart no command is placed. -/
lemma not_issuesAt (ho : r.Opening t₀ t i) (hl : r.Linked) (hle : t₀ ≤ t) (ht : t ≤ t₀ + 12)
    (hi : i ≤ (r.burst t).length) (hs : r.since t i ≤ 4) : ¬ r.IssuesAt (r.point t i, x) := by
  intro his
  have hmay : (r.point t i).path.ctl.MayIssue ((r.point t i).ctlIn r.mem x) := issues_iff.1 his
  rcases hs.lt_or_eq with hlt | h4
  · rcases h.calm with hc | hc
    · have hneed := hmay.need
      rw [ho.held hs] at hneed
      omega
    · have hph := vsPhase_of_rises h.rise hle (by omega)
      have hsince := vsPhase_le_since hl t i
      exact Bool.false_ne_true ((hc t i hle (by omega) hi).symm.trans hmay.ready)
  · have hp := ho.pending
    rw [decide_eq_true h4] at hp
    exact Bool.false_ne_true (hmay.restarted.symm.trans hp)

omit h in
/-- Four edges after the rise, and at no other time, the restart is executed. -/
lemma restartsAt_iff (ho : r.Opening t₀ t i) :
    r.RestartsAt (r.point t i, x) ↔ r.since t i = 4 := by
  have hp := ho.pending
  constructor
  · intro hr
    have hp' : (r.point t i).path.ctl.vgaResetPending = true := pending_of_restarts hr
    exact of_decide_eq_true (hp.symm.trans hp')
  · intro h4
    rw [decide_eq_true h4] at hp
    exact (restartsAt_of_idle (avmRead_of_underWay (ho.idle (by omega))).1).2 hp

lemma opening_edge50 (h2 : r.TwoToOne) (hk : r.Keeps q) (hs : r.Spares t₀) (hle : t₀ ≤ t)
    (ht : t ≤ t₀ + 12) (hx : (r.burst t)[i]? = some x) (ho : r.Opening t₀ t i) :
    r.Opening t₀ t (i + 1) := by
  have hl := h2.linked
  have hi := (lt_of_burst hx).le
  have hway := hs.underWay_succ hk.roomy hle hx
  have hre := restartsAt_iff (x := x) ho
  constructor
  · rw [since_succ]
    intro h5
    rw [if_neg (h.not_issuesAt ho hl hle ht hi (by omega)), ho.idle (by omega)] at hway
    exact hway
  · rw [pending_point_succ hl hx, ho.pending, since_succ]
    by_cases h4 : r.since t i = 4
    · rw [if_pos (hre.2 h4), decide_eq_false (by omega)]
    · rw [if_neg (mt hre.1 h4), decide_eq_false h4, Bool.or_false, decide_eq_decide]
      omega
  · rw [since_succ]
    intro h4
    have hno : ¬ r.RestartsAt (r.point t i, x) := mt hre.1 (by omega)
    rw [ctl_point_succ hx, reqCnt_of_not_issues (Bool.eq_false_iff.2 hno)
      (Bool.eq_false_iff.2 (h.not_issuesAt ho hl hle ht hi (by omega))), ho.held (by omega)]
  · rw [since_succ]
    intro _ hne
    have hne' : ¬ r.since t i = 3 := by omega
    rw [ctl_point_succ hx, flushWait_edge, vgaDonePulse_point hl hi, decide_eq_false hne',
      Bool.false_or]
    by_cases hw : 1 ≤ r.since t i ∧ r.since t i ≠ 4
    · rw [ho.wait hw.1 hw.2]
      rfl
    · -- nothing is under way, and the FIFO says so
      have hfifo := (avmRead_of_underWay (ho.idle (by omega))).2.1
      have hused := hk.wrusedw_le hx fun u h1 h2 =>
        not_requests_of_rises h.rise (by omega) (by omega)
      rw [hfifo, List.length_nil] at hused
      have hempty : ((r.point t i).ctlIn r.mem x).fifoIsEmpty = true :=
        decide_eq_true (BitVec.eq_of_toNat_eq (Nat.le_zero.1 hused))
      rw [hempty]
      cases (r.point t i).path.ctl.flushWait <;> rfl
  · rw [since_succ]
    intro h5
    rw [ctl_point_succ hx]
    by_cases h4 : r.since t i = 4
    · rw [if_neg (h.not_issuesAt ho hl hle ht hi (by omega)), ho.idle (by omega)] at hway
      rw [reqCnt_of_restarts (hre.2 h4), hway]
      rfl
    · have hcnt := ho.counts (by omega)
      by_cases his : r.IssuesAt (r.point t i, x)
      · rw [if_pos his, hcnt] at hway
        rw [toNat_reqCnt_of_issues his, hway]
      · rw [if_neg his, hcnt] at hway
        rw [hway,
          reqCnt_of_not_issues (Bool.eq_false_iff.2 (mt hre.1 h4)) (Bool.eq_false_iff.2 his)]
        rfl

/-- When the clear is raised the FIFO is empty already. -/
lemma underWay_edge25 (h2 : r.TwoToOne) (hle : t₀ ≤ t) (ht : t < t₀ + 12)
    (ho : r.Opening t₀ t (r.burst t).length) :
    (r.start (t + 1)).path.underWay = (r.final t).path.underWay := by
  have hl := h2.linked
  have h0 := (rises_iff t₀).1 h.rise
  have hno := not_requests_of_rises h.rise (show t₀ ≤ t + 9606 by omega) (by omega)
  by_cases hc : r.Aclr (t + 1)
  · have hnil : (r.final t).path.fifo = [] := by
      by_cases hc' : r.Aclr t
      · exact fifo_of_aclr le_rfl hc'
      · -- the clear starts three cycles after the rise
        obtain ⟨k, rfl⟩ := Nat.exists_eq_add_of_le hle
        have h3 := (aclr_add hl h0 (show k + 1 < 420000 by omega)).1 hc
        have hk : ¬ (3 ≤ k) := fun hk => hc' ((aclr_add hl h0 (by omega)).2 ⟨h3.1, hk, by omega⟩)
        obtain rfl : k = 2 := by omega
        have s0 : r.sinceStart t₀ = 0 := since_zero_of_rises h0
        have s1 : r.since (t₀ + 1) 0 = r.since t₀ _ :=
          since_cycle (by rw [vsPhase_add h0 (by omega)]; omega)
        have s2 : r.since (t₀ + 2) 0 = r.since (t₀ + 1) _ :=
          since_cycle (by rw [Nat.add_assoc, vsPhase_add h0 (by omega)]; omega)
        have hpos : t₀ ≠ 0 := by
          rintro rfl
          simp [vsPhase] at h0
        have b1 := h2 (t₀ + 1) (by omega)
        have b2 := h2 (t₀ + 2) (by omega)
        refine (avmRead_of_underWay (ho.idle ?_)).2.1
        unfold since at s1 s2 ⊢
        omega
    exact underWay_start_of_nil hnil
  · have hway := underWay_start_succ hc
    rwa [if_neg fun hp => hno ((popped_iff t).1 hp).1] at hway

theorem opening (h2 : r.TwoToOne) (hk : r.Keeps q) (hs : r.Spares t₀) (hle : t₀ ≤ t)
    (ht : t ≤ t₀ + 12) (hi : i ≤ (r.burst t).length) : r.Opening t₀ t i := by
  have h0 := (rises_iff t₀).1 h.rise
  have hbase : r.Opening t₀ t₀ 0 := by
    have hz := since_zero_of_rises (r := r) h0
    refine ⟨fun _ => h.idle, ?_, fun _ => rfl, ?_, ?_⟩
    · rw [hz]
      exact h.pending
    · omega
    · omega
  refine invariant (P := fun t i => t₀ ≤ t → t ≤ t₀ + 12 → r.Opening t₀ t i) ?_ ?_ ?_ hi hle ht
  · intro hz _
    obtain rfl : t₀ = 0 := by omega
    exact hbase
  · intro t i x hx ih h1 h3
    exact h.opening_edge50 h2 hk hs h1 h3 hx (ih h1 h3)
  · intro t ih h1 h3
    rcases Nat.lt_or_ge t t₀ with hlt | hge
    · obtain rfl : t₀ = t + 1 := by omega
      exact hbase
    · have ho := ih hge (by omega)
      have hway := h.underWay_edge25 h2 hge (by omega) ho
      have hph := vsPhase_of_rises h.rise h1 (by omega)
      have hctl : (r.point (t + 1) 0).path.ctl = (r.point t (r.burst t).length).path.ctl := by
        rw [point_zero, ctl_start_succ, final_eq]
      rw [final_eq] at hway
      constructor <;> rw [since_cycle (by omega)]
      · rw [point_zero, hway]
        exact ho.idle
      · rw [hctl]
        exact ho.pending
      · rw [hctl]
        exact ho.held
      · rw [hctl]
        exact ho.wait
      · rw [point_zero, hway, ← point_zero, hctl]
        exact ho.counts

/-- **A frame that begins with nothing under way is settled.** -/
theorem settled (h2 : r.TwoToOne) (hk : r.Keeps q) (hs : r.Spares t₀) :
    r.Settled t₀ ∧ r.Open (t₀ + 12) 0 := by
  have ho := h.opening h2 hk hs (Nat.le_add_right t₀ 12) le_rfl (Nat.zero_le _)
  have hsince := vsPhase_le_since h2.linked (t₀ + 12) 0
  rw [vsPhase_of_rises h.rise (by omega) (by omega)] at hsince
  have hp := ho.pending
  rw [decide_eq_false (by omega)] at hp
  exact ⟨⟨hp, ho.counts (by omega)⟩, ⟨hp, ho.wait (by omega) (by omega)⟩⟩

end Rested

/-! ### A frame that is served -/

lemma served_lt (t : ℕ) : served t < 307200 := by
  rw [served, count_requests]
  unfold requestsBefore
  split_ifs <;> omega

lemma Aligned.underWay_eq (hal : Aligned r t i) :
    (r.point t i).path.underWay = (r.point t i).path.ctl.reqCnt.toNat - served t := by
  have hlen := congrArg List.length hal.words
  rwa [ReadPath.length_words_eq, List.length_drop, length_picture] at hlen

/-- A request of the frame that begins with the rise `t₀` comes in its middle. -/
lemma between_of_requests (ht₀ : r.Rises t₀) (hle : t₀ ≤ t) (htb : t < t₀ + 420000)
    (h : Requests t) : t₀ + 26554 ≤ t ∧ t < t₀ + 410394 := by
  have hph := vsPhase_of_requests h
  rw [vsPhase_of_rises ht₀ hle htb] at hph
  omega

/-- The frames before a rise are complete. -/
lemma count_requests_of_rises (ht₀ : r.Rises t₀) :
    Nat.count Requests t₀ = 307200 * (t₀ / 420000) := by
  have h0 := (rises_iff t₀).1 ht₀
  rw [count_requests]
  unfold requestsBefore
  unfold vsPhase at h0
  split_ifs <;> omega

/-- There are no requests before the middle of the frame, -/
lemma count_requests_early (ht₀ : r.Rises t₀) {k : ℕ} (hk : k ≤ 26554) :
    Nat.count Requests (t₀ + k) = Nat.count Requests t₀ := by
  have h0 := (rises_iff t₀).1 ht₀
  rw [count_requests_of_rises ht₀, count_requests]
  unfold requestsBefore
  unfold vsPhase at h0
  split_ifs <;> omega

/-- and after it there have been those of the whole picture. -/
lemma count_requests_late (ht₀ : r.Rises t₀) {k : ℕ} (hk : 410394 ≤ k) (hle : k ≤ 420000) :
    Nat.count Requests (t₀ + k) = Nat.count Requests t₀ + 307200 := by
  have h0 := (rises_iff t₀).1 ht₀
  rw [count_requests_of_rises ht₀, count_requests]
  unfold requestsBefore
  unfold vsPhase at h0
  split_ifs <;> omega

namespace Fetches

variable (h : r.Fetches t₀ (t₀ + 20010)) (h2 : r.TwoToOne) (hk : r.Keeps q) (hset : r.Settled t₀)

include h h2 hk hset

/-- As long as every request has been served, words are under way: those of the picture that are
left, or those fetched ahead. -/
lemma underWay_pos (hat : t₀ + 20521 ≤ t) (htb : t < t₀ + 410394)
    (hpop : ∀ u < t, u / 420000 = t / 420000 → r.VgaReq u → r.Popped u)
    (hi : i ≤ (r.burst t).length) : 1 ≤ (r.point t i).path.underWay := by
  have hal := aligned h2 hk.roomy h.rise hset hi (by omega) htb hpop
  have hcnt : (r.point t i).path.ctl.reqCnt.toNat ≤ 307200 := (counted_point hi).le
  rcases hcnt.lt_or_eq with hlt | hcomplete
  · have hlev := h.le_level h2.linked hk (show t₀ + 20010 ≤ t by omega) (by omega) hi
    have hspare : r.spare t i = 0 := if_neg fun hs => by omega
    have hlead := hk.lead_le hi
    have hfits := q.fits
    unfold level at hlev
    omega
  · have := served_lt t
    rw [hal.underWay_eq]
    omega

lemma fifo_pos (hat : t₀ + 20521 ≤ t) (htb : t < t₀ + 410394)
    (hpop : ∀ u < t, u / 420000 = t / 420000 → r.VgaReq u → r.Popped u)
    (hi : i ≤ (r.burst t).length) : (r.point t i).path.fifo ≠ [] :=
  h.fifo_ne_nil h2.linked hk (by omega) (by omega) hi (h.underWay_pos h2 hk hset hat htb hpop hi)

/-- The next request is served as well. -/
lemma popped_next (hreq : Requests t) (hle : t₀ ≤ t) (htb : t < t₀ + 420000)
    (hpop : ∀ u < t, u / 420000 = t / 420000 → r.VgaReq u → r.Popped u) : r.Popped t := by
  obtain ⟨h1, h3⟩ := between_of_requests h.rise hle htb hreq
  have h0 := (rises_iff t₀).1 h.rise
  refine (popped_iff t).2 ⟨hreq, ?_, ?_, h.not_aclr h2.linked (by omega) htb⟩
  · exact h.fifo_pos h2 hk hset (by omega) h3 hpop le_rfl
  · refine hk.not_rdemptyLags fun u hut hu => ?_
    have hdark := q.dark_le
    have hdiv : u / 420000 = t / 420000 := by
      unfold vsPhase at h0
      omega
    refine h.fifo_pos h2 hk hset (show t₀ + 20521 ≤ u by omega) (by omega) ?_ (Nat.zero_le _)
    intro v hv hvd hvr
    exact hpop v (by omega) (hvd.trans hdiv) hvr

/-- **Every request of the frame is served.** -/
theorem popped (hle : t₀ ≤ t) (htb : t < t₀ + 420000) (hreq : Requests t) : r.Popped t := by
  induction t using Nat.strong_induction_on with
  | h t ih =>
    refine h.popped_next h2 hk hset hreq hle htb fun u hu hd hr => ?_
    have hr' := (vgaReq_iff u).1 hr
    have hph := vsPhase_of_requests hr'
    have h0 := (rises_iff t₀).1 h.rise
    obtain ⟨h1, h3⟩ := between_of_requests h.rise hle htb hreq
    unfold vsPhase at h0 hph
    exact ih u hu (by omega) (by omega) hr'

lemma aligned_point (hle : t₀ + 12 ≤ t) (htb : t < t₀ + 410394)
    (hi : i ≤ (r.burst t).length) : Aligned r t i := by
  refine aligned h2 hk.roomy h.rise hset hi hle htb fun u hu hd hr => ?_
  have hr' := (vgaReq_iff u).1 hr
  have hph := vsPhase_of_requests hr'
  have h0 := (rises_iff t₀).1 h.rise
  unfold vsPhase at h0 hph
  exact h.popped h2 hk hset (by omega) (by omega) hr'

/-! ### The end of the frame -/

/-- The last request takes the last word. -/
lemma drained (ht : t + 1 = t₀ + 410394) : (r.start (t + 1)).path.underWay = 0 ∧
    (r.start (t + 1)).path.ctl.reqCnt.toNat = 307200 := by
  have h0 := (rises_iff t₀).1 h.rise
  have hreq : Requests t := by
    unfold vsPhase at h0
    unfold Requests
    omega
  have hpop := h.popped h2 hk hset (by omega) (by omega) hreq
  have hway := (h.aligned_point h2 hk hset (show t₀ + 12 ≤ t by omega) (by omega)
    (le_refl (r.burst t).length)).underWay_eq
  have hlast : served t = 307199 := by
    rw [served_of_requests hreq]
    unfold Vga.address
    unfold vsPhase at h0
    omega
  have hpos : 1 ≤ (r.final t).path.underWay := by
    have := List.length_pos_iff.2 ((popped_iff _).1 hpop).2.1
    unfold ReadPath.underWay
    omega
  have hcnt : (r.final t).path.ctl.reqCnt.toNat ≤ 307200 := (counted_point le_rfl).le
  have hnext := underWay_start_succ
    (h.not_aclr h2.linked (show t₀ + 20010 ≤ t + 1 by omega) (by omega))
  rw [if_pos hpop] at hnext
  rw [← final_eq, hlast] at hway
  rw [ctl_start_succ]
  omega

/-- Until the next rise nothing comes under way. -/
lemma resting (hle : t₀ + 410394 ≤ t) (htb : t < t₀ + 420000) (hi : i ≤ (r.burst t).length) :
    (r.point t i).path.underWay = 0 ∧ (r.point t i).path.ctl.reqCnt.toNat = 307200 := by
  have hl := h2.linked
  refine invariant (P := fun t i => t₀ + 410394 ≤ t → t < t₀ + 420000 →
    (r.point t i).path.underWay = 0 ∧ (r.point t i).path.ctl.reqCnt.toNat = 307200)
    ?_ ?_ ?_ hi hle htb
  · intro h1
    omega
  · intro t i x hx ih h1 h3
    obtain ⟨hway, hcnt⟩ := ih h1 h3
    obtain ⟨his, -⟩ := h.spare_succ hl (show t₀ + 20010 ≤ t by omega) h3 hx hcnt
    have hnext := underWay_point_succ hk.roomy hx (h.not_aclr hl (by omega) h3)
    rw [if_neg his, hway] at hnext
    have hre : ¬ r.RestartsAt (r.point t i, x) := by
      intro hr
      exact Bool.false_ne_true ((h.open_point hl (by omega) h3 (lt_of_burst hx).le).pending.symm.trans
        (pending_of_restarts hr))
    rw [ctl_point_succ hx, reqCnt_of_not_issues (Bool.eq_false_iff.2 hre) (Bool.eq_false_iff.2 his)]
    exact ⟨hnext, hcnt⟩
  · intro t ih h1 h3
    rcases Nat.lt_or_ge t (t₀ + 410394) with hlt | hge
    · exact h.drained h2 hk hset (by omega)
    · obtain ⟨hway, hcnt⟩ := ih hge (by omega)
      have hnext := underWay_start_succ (h.not_aclr hl (show t₀ + 20010 ≤ t + 1 by omega) h3)
      rw [final_eq, hway] at hnext
      rw [point_zero, ctl_start_succ]
      exact ⟨by omega, hcnt⟩

/-- **A frame served to its end leaves nothing under way.** -/
theorem rested : r.Rested (t₀ + 420000) := by
  have hl := h2.linked
  have h0 := (rises_iff t₀).1 h.rise
  have h0' : vsPhase (t₀ + 420000) = 0 := by
    unfold vsPhase at h0 ⊢
    omega
  have hclr : ¬ r.Aclr (t₀ + 420000) := by
    intro hc
    have := ((aclr_add hl h0' (show 0 < 420000 by omega)).1 hc).2
    omega
  obtain ⟨t, ht⟩ : ∃ t, t₀ + 420000 = t + 1 := ⟨t₀ + 419999, by omega⟩
  rw [ht] at h0' hclr ⊢
  obtain ⟨hway, hcnt⟩ := h.resting h2 hk hset (show t₀ + 410394 ≤ t by omega) (by omega)
    (le_refl (r.burst t).length)
  have hopen := h.open_point hl (show t₀ + 20010 ≤ t by omega) (by omega)
    (le_refl (r.burst t).length)
  have hnext := underWay_start_succ hclr
  rw [final_eq, hway] at hnext
  refine ⟨(rises_iff _).2 h0', by omega, ?_, Or.inl ?_⟩
  · rw [ctl_start_succ]
    exact hopen.pending
  · rw [ctl_start_succ]
    exact hcnt

end Fetches

/-! ### Frame after frame -/

/-- After a rise at which the display is at rest, a frame in which the picture is loaded in time
is fetched as it should be. -/
lemma Rested.fetches (h : r.Rested t₀) (h2 : r.TwoToOne) (hk : r.Keeps q) (hs : r.Spares t₀)
    (hon : ∀ t, t₀ + 20000 ≤ t → t < t₀ + 420000 → ∀ x ∈ r.burst t, x.pioImgLoaded = true) :
    r.Fetches t₀ (t₀ + 20010) where
  rise := h.rise
  flushed := by omega
  quiet t h1 h3 := not_requests_of_rises h.rise (by omega) (by omega)
  opened := (h.settled h2 hk hs).2.of_le h2.linked h.rise le_rfl (by omega) (by omega)
    (Nat.zero_le _)
  loaded t h1 h3 := hon t (by omega) h3

/-- **Service.** From a rise on at which the display is at rest, with the picture loaded from the
first blanking on, every request is served, with the word at the address requested. -/
theorem Rested.service (h : r.Rested t₀) (h2 : r.TwoToOne) (hk : r.Keeps q) (hs : r.Spares t₀)
    (hon : ∀ t ≥ t₀ + 20000, ∀ x ∈ r.burst t, x.pioImgLoaded = true) (hle : t₀ ≤ t)
    (hreq : r.VgaReq t) : r.Popped t ∧
      r.poppedWord t = r.mem (bufferABase + (r.start t).oAddress.setWidth 25) := by
  have hframe (n : ℕ) : r.Rested (t₀ + 420000 * n) := by
    induction n with
    | zero => exact h
    | succ n ih =>
      have hs' : r.Spares (t₀ + 420000 * n) := fun t i x ht => hs t i x (by omega)
      have hf := ih.fetches h2 hk hs' fun t h1 _ => hon t (by omega)
      have := hf.rested h2 hk (ih.settled h2 hk hs').1
      rwa [Nat.mul_succ, ← Nat.add_assoc]
  obtain ⟨n, hn⟩ : ∃ n, n = (t - t₀) / 420000 := ⟨_, rfl⟩
  have hr := hframe n
  have hs' : r.Spares (t₀ + 420000 * n) := fun t i x ht => hs t i x (by omega)
  have hf := hr.fetches h2 hk hs' fun t h1 _ => hon t (by omega)
  have hset := (hr.settled h2 hk hs').1
  have hreq' := (vgaReq_iff t).1 hreq
  have hpop := hf.popped h2 hk hset (by omega) (by omega) hreq'
  obtain ⟨h1, h3⟩ := between_of_requests hr.rise (by omega) (by omega) hreq'
  exact ⟨hpop, (hf.aligned_point h2 hk hset (by omega) h3 le_rfl).poppedWord_eq hpop⟩

end Run

end VideoPipeline.Top

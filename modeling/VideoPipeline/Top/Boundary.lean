import VideoPipeline.Top.Recovery

/-!
The boundary of a frame. After the restart the words still under way belong to the frame before,
and the clear of the FIFO is what removes them: so a flushed frame begins right if, by the end of
the flush, the bus has answered the reads placed before the restart and no others, and a frame
that is not flushed if there were none of them. Frames that begin so are intact; and one that is
served throughout shows in the words taken that it did.
-/

namespace VideoPipeline.Top

open VideoPipeline.Lib VideoPipeline.Vga VideoPipeline.Image VideoPipeline.Pixel VideoPipeline.Read
  SdramReadController

namespace Run

section Counts

variable (r : Run)

/-- The edge `e` brings the answer to a read. -/
def AnswersAt (e : DoanTop × SysIn) : Prop :=
  (e.1.path.answered (e.1.pathIn r.mem e.2)).isSome = true

instance : DecidablePred r.AnswersAt := fun e => by unfold AnswersAt; infer_instance

/-- The commands placed on the bus before a point of the run. -/
def commands (t i : ℕ) : ℕ := (r.clocks.edges t i).countP fun e => r.IssuesAt e

/-- The reads answered before a point of the run. -/
def answers (t i : ℕ) : ℕ := (r.clocks.edges t i).countP fun e => r.AnswersAt e

/-- The edge `j` of cycle `u` executes the restart of the frame that begins with the rise `t₀`:
it is one of the twelve cycles, when the pulse of the rise has come. -/
def RestartOf (t₀ u j : ℕ) : Prop :=
  t₀ ≤ u ∧ u < t₀ + 12 ∧ 3 ≤ r.since u j ∧
    ∃ x, (r.burst u)[j]? = some x ∧ r.RestartsAt (r.point u j, x)

/-- **The boundary of the frame that begins with the rise `t₀` is clean.** The restart is executed
within twelve cycles. If the frame is flushed, the reads answered up to the end of the flush are
those placed before the restart, all of them and no others; if it is not, nothing is under way at
the rise, and no command is placed from then to the restart. -/
def Clean (t₀ : ℕ) : Prop :=
  ∃ u j, r.RestartOf t₀ u j ∧
    ((r.burst t₀).length = 1 → r.answers (t₀ + 12) 0 = r.commands u j) ∧
      ((r.burst t₀).length ≠ 1 →
        (r.start t₀).path.underWay = 0 ∧ r.commands u j = r.commands t₀ 0)

end Counts

variable {r : Run} {t t₀ u i j : ℕ} {x : SysIn}

/-! ### Commands and answers -/

lemma commands_succ (hx : (r.burst t)[i]? = some x) : r.commands t (i + 1) =
    r.commands t i + if r.IssuesAt (r.point t i, x) then 1 else 0 := by
  rw [commands, TwoClock.countP_edges_succ _ hx]
  simp only [decide_eq_true_eq]
  rfl

lemma commands_cycle : r.commands (t + 1) 0 = r.commands t (r.burst t).length := by
  rw [commands, TwoClock.edges_cycle]
  rfl

lemma answers_succ (hx : (r.burst t)[i]? = some x) : r.answers t (i + 1) =
    r.answers t i + if r.AnswersAt (r.point t i, x) then 1 else 0 := by
  rw [answers, TwoClock.countP_edges_succ _ hx]
  simp only [decide_eq_true_eq]
  rfl

lemma answers_cycle : r.answers (t + 1) 0 = r.answers t (r.burst t).length := by
  rw [answers, TwoClock.edges_cycle]
  rfl

/-- **Every command is answered, accepted or on the bus.** -/
theorem commands_eq (hi : i ≤ (r.burst t).length) : r.commands t i =
    r.answers t i + (r.point t i).path.bus.length + (r.point t i).path.onBus := by
  refine invariant (P := fun t i => r.commands t i =
    r.answers t i + (r.point t i).path.bus.length + (r.point t i).path.onBus) rfl ?_ ?_ hi
  · intro t i x hx ih
    have hbus := ReadPath.length_bus_edge (s := (r.point t i).path)
      (i := (r.point t i).pathIn r.mem x) (r.point t i).fifoAclr
    have hun := (r.point t i).path.length_unanswered ((r.point t i).pathIn r.mem x)
    have hans : (if r.AnswersAt (r.point t i, x) then 1 else 0) =
        ((r.point t i).path.answered ((r.point t i).pathIn r.mem x)).toList.length := by
      by_cases h : r.AnswersAt (r.point t i, x)
      · obtain ⟨w, hw⟩ := Option.isSome_iff_exists.1 h
        rw [if_pos h, show ReadPath.answered _ _ = _ from hw]
        rfl
      · rw [if_neg h, show ReadPath.answered _ _ = _ from Option.not_isSome_iff_eq_none.1 h]
        rfl
    rw [commands_succ hx, answers_succ hx, point_succ hx, hans]
    change _ = _ + (ReadPath.edge _ _ _).bus.length + (ReadPath.edge _ _ _).onBus
    have his : (if r.IssuesAt (r.point t i, x) then 1 else 0) =
        if (r.point t i).path.ctl.issues ((r.point t i).path.ctlIn
          ((r.point t i).pathIn r.mem x)) then 1 else 0 := rfl
    omega
  · intro t ih
    rw [commands_cycle, answers_cycle, ih, point_zero, ReadPath.onBus, ReadPath.onBus,
      ctl_start_succ, bus_start_succ, final_eq]

/-! ### The restart -/

/-- Once the pulse has come, the restart is pending or was executed. -/
lemma exists_restart (hl : r.Linked) (ht₀ : r.Rises t₀) (hle : t₀ ≤ t) (htb : t < t₀ + 420000)
    (hi : i ≤ (r.burst t).length) (hs : 4 ≤ r.since t i)
    (hp : (r.point t i).path.ctl.vgaResetPending = false) :
    ∃ u j x, t₀ ≤ u ∧ (u < t ∨ u = t ∧ j < i) ∧ 3 ≤ r.since u j ∧ (r.burst u)[j]? = some x ∧
      r.RestartsAt (r.point u j, x) := by
  refine invariant (P := fun t i => t₀ ≤ t → t < t₀ + 420000 → 4 ≤ r.since t i →
    (r.point t i).path.ctl.vgaResetPending = false → ∃ u j x, t₀ ≤ u ∧ (u < t ∨ u = t ∧ j < i) ∧
      3 ≤ r.since u j ∧ (r.burst u)[j]? = some x ∧ r.RestartsAt (r.point u j, x))
    ?_ ?_ ?_ hi hle htb hs hp
  · intro h
    have h0 := (rises_iff t₀).1 ht₀
    unfold vsPhase at h0
    omega
  · intro t i x hx ih h1 h2 h3 hp
    rw [since_succ] at h3
    by_cases hr : r.RestartsAt (r.point t i, x)
    · exact ⟨t, i, x, h1, Or.inr ⟨rfl, Nat.lt_succ_self i⟩, by omega, hx, hr⟩
    · rw [pending_point_succ hl hx, if_neg hr, Bool.or_eq_false_iff] at hp
      have hne : r.since t i ≠ 3 := of_decide_eq_false hp.1
      obtain ⟨u, j, y, hu, hb, hrest⟩ := ih h1 h2 (by omega) hp.2
      exact ⟨u, j, y, hu, by omega, hrest⟩
  · intro t ih h1 h2 h3 hp
    have hph : vsPhase (t + 1) ≠ 0 := by
      intro h0
      rw [since_zero_of_rises h0] at h3
      omega
    have hne : t₀ ≠ t + 1 := fun he => hph (he ▸ (rises_iff t₀).1 ht₀)
    rw [since_cycle hph] at h3
    rw [point_zero, ctl_start_succ, final_eq] at hp
    obtain ⟨u, j, y, hu, hb, hrest⟩ := ih (by omega) (by omega) h3 hp
    exact ⟨u, j, y, hu, by omega, hrest⟩

/-- From the restart on the read counter counts the commands placed. -/
lemma RestartOf.counts (h : r.RestartOf t₀ u j) (hl : r.Linked) (ht₀ : r.Rises t₀)
    (hb : u < t ∨ u = t ∧ j < i) (htb : t < t₀ + 420000) (hi : i ≤ (r.burst t).length) :
    (r.point t i).path.ctl.vgaResetPending = false ∧
      r.commands t i = r.commands u j + (r.point t i).path.ctl.reqCnt.toNat := by
  obtain ⟨h1, -, h3, y, hy, hr⟩ := h
  have hlen := lt_of_burst hy
  suffices hall : 4 ≤ r.since t i ∧ (r.point t i).path.ctl.vgaResetPending = false ∧
      r.commands t i = r.commands u j + (r.point t i).path.ctl.reqCnt.toNat from hall.2
  refine invariant (P := fun t i => u < t ∨ u = t ∧ j < i → t < t₀ + 420000 →
    4 ≤ r.since t i ∧ (r.point t i).path.ctl.vgaResetPending = false ∧
      r.commands t i = r.commands u j + (r.point t i).path.ctl.reqCnt.toNat) ?_ ?_ ?_ hi hb htb
  · intro h
    omega
  · intro t i x hx ih hb h2
    rw [since_succ, pending_point_succ hl hx, commands_succ hx, ctl_point_succ hx]
    by_cases hij : u = t ∧ j = i
    · -- the restart itself
      obtain ⟨rfl, rfl⟩ := hij
      obtain rfl : y = x := Option.some.inj (hy.symm.trans hx)
      have hno : ¬ r.IssuesAt (r.point u j, y) :=
        Bool.eq_false_iff.1 (not_issues_of_restarts hr)
      rw [if_pos hr, if_neg hno, reqCnt_of_restarts hr]
      exact ⟨by omega, rfl, rfl⟩
    · obtain ⟨hs, hp, hc⟩ := ih (by omega) h2
      have hre : ¬ r.RestartsAt (r.point t i, x) := fun hr =>
        Bool.false_ne_true (hp.symm.trans (pending_of_restarts hr))
      rw [if_neg hre, hp, decide_eq_false (by omega)]
      refine ⟨by omega, rfl, ?_⟩
      by_cases his : r.IssuesAt (r.point t i, x)
      · rw [if_pos his, toNat_reqCnt_of_issues his, hc, Nat.add_assoc]
      · rw [if_neg his, hc,
          reqCnt_of_not_issues (Bool.eq_false_iff.2 hre) (Bool.eq_false_iff.2 his)]
        rfl
  · intro t ih hb h2
    have hph : vsPhase (t + 1) ≠ 0 := by
      rw [vsPhase_of_rises ht₀ (by omega) h2]
      omega
    rw [since_cycle hph, commands_cycle, point_zero, ctl_start_succ, final_eq]
    rcases Nat.lt_or_ge u t with hlt | hge
    · exact ih (Or.inl hlt) (by omega)
    · obtain rfl : u = t := by omega
      exact ih (Or.inr ⟨rfl, hlen⟩) (by omega)

/-! ### The end of the flush -/

/-- Without a flush no word is lost, and in the blanking none is taken. -/
lemma underWay_unflushed (hl : r.Linked) (hroom : r.Roomy) (ht₀ : r.Rises t₀)
    (hno : (r.burst t₀).length ≠ 1) (hle : t₀ ≤ t) (ht : t ≤ t₀ + 12)
    (hi : i ≤ (r.burst t).length) : (r.point t i).path.underWay + r.commands t₀ 0 =
      (r.start t₀).path.underWay + r.commands t i := by
  have h0 := (rises_iff t₀).1 ht₀
  have hclr {v : ℕ} (h1 : t₀ ≤ v) (h2 : v ≤ t₀ + 12) : ¬ r.Aclr v := by
    obtain ⟨k, rfl⟩ := Nat.exists_eq_add_of_le h1
    rw [aclr_add hl h0 (by omega)]
    exact fun h => hno h.1
  refine invariant (P := fun t i => t₀ ≤ t → t ≤ t₀ + 12 →
    (r.point t i).path.underWay + r.commands t₀ 0 =
      (r.start t₀).path.underWay + r.commands t i) ?_ ?_ ?_ hi hle ht
  · intro h1 _
    obtain rfl : t₀ = 0 := by omega
    rfl
  · intro t i x hx ih h1 h2
    rw [underWay_point_succ hroom hx (hclr h1 h2), commands_succ hx]
    have := ih h1 h2
    omega
  · intro t ih h1 h2
    rcases Nat.lt_or_ge t t₀ with hlt | hge
    · obtain rfl : t₀ = t + 1 := by omega
      rfl
    · have hway := underWay_start_succ (hclr h1 h2)
      obtain ⟨k, rfl⟩ := Nat.exists_eq_add_of_le hge
      have hpop : ¬ r.Popped (t₀ + k) := fun hp =>
        not_requests_add h0 (by omega) ((popped_iff _).1 hp).1
      rw [if_neg hpop, Nat.add_zero, final_eq] at hway
      rw [commands_cycle, point_zero, hway]
      exact ih hge (by omega)

/-- After a flush the FIFO is empty. -/
lemma fifo_of_flushed (hl : r.Linked) (ht₀ : r.Rises t₀) (h1 : (r.burst t₀).length = 1) :
    (r.start (t₀ + 12)).path.fifo = [] := by
  have h0 := (rises_iff t₀).1 ht₀
  have hclr : r.Aclr (t₀ + 11) := (aclr_add hl h0 (by omega)).2 ⟨h1, by omega, le_rfl⟩
  have hfin : (r.final (t₀ + 11)).path.fifo = [] := fifo_of_aclr le_rfl hclr
  rw [show t₀ + 12 = t₀ + 11 + 1 from rfl, fifo_start_succ, hfin]
  split_ifs <;> rfl

/-- **The boundary decides** what is under way when the flush is over: as many words as were asked
for since the restart, if and only if it is clean. -/
theorem settled_iff_clean (h2 : r.TwoToOne) (hroom : r.Roomy) (ht₀ : r.Rises t₀) :
    r.Settled t₀ ↔ r.Clean t₀ := by
  have hl := h2.linked
  have hcmd := commands_eq (r := r) (Nat.zero_le (r.burst (t₀ + 12)).length)
  -- what is under way, if it is flushed and if it is not
  have hflushed (h1 : (r.burst t₀).length = 1) : (r.start (t₀ + 12)).path.fifo.length = 0 :=
    congrArg List.length (fifo_of_flushed hl ht₀ h1)
  have hno (h1 : (r.burst t₀).length ≠ 1) := underWay_unflushed hl hroom ht₀ h1
    (Nat.le_add_right t₀ 12) le_rfl (Nat.zero_le _)
  have hmono {u j : ℕ} (h : r.RestartOf t₀ u j) : r.commands t₀ 0 ≤ r.commands u j :=
    List.Sublist.countP_le (TwoClock.edges_sublist_of_le h.1)
  have hcount {u j : ℕ} (h : r.RestartOf t₀ u j) := h.counts hl ht₀ (t := t₀ + 12) (i := 0)
    (Or.inl h.2.1) (by omega) (Nat.zero_le _)
  rw [point_zero] at hcmd
  simp only [point_zero, ReadPath.underWay] at hno hcount
  unfold Settled Clean ReadPath.underWay
  constructor
  · rintro ⟨hpend, hlen⟩
    have hs := vsPhase_le_since hl (t₀ + 12) 0
    rw [vsPhase_of_rises ht₀ (by omega) (by omega)] at hs
    obtain ⟨u, j, x, hu, hb, h3, hx, hr⟩ := exists_restart hl ht₀ (Nat.le_add_right t₀ 12)
      (by omega) (Nat.zero_le _) (by omega) hpend
    have h : r.RestartOf t₀ u j := ⟨hu, by omega, h3, x, hx, hr⟩
    have hc := (hcount h).2
    have hm := hmono h
    refine ⟨u, j, h, fun h1 => ?_, fun h1 => ?_⟩
    · have := hflushed h1
      omega
    · have := hno h1
      omega
  · rintro ⟨u, j, h, hf, hn⟩
    obtain ⟨hpend, hc⟩ := hcount h
    refine ⟨hpend, ?_⟩
    by_cases h1 : (r.burst t₀).length = 1
    · have := hflushed h1
      have := hf h1
      omega
    · have := hno h1
      have := hn h1
      omega

/-! ### What the words taken tell -/

variable (r) in
/-- The frame that begins with the rise `t₀` shows which words it was served: all requests are, the
first word of the picture is unlike the others, and less than a picture is under way when the
flush is over. -/
structure Telling (t₀ : ℕ) : Prop where
  served : ∀ t, t₀ ≤ t → t < t₀ + 420000 → r.VgaReq t → r.Popped t
  unlike : ∀ j, 0 < j → j < 307200 → pictureWord r.mem j ≠ pictureWord r.mem 0
  few : (r.start (t₀ + 12)).path.underWay < 307200

/-- A restart is left pending by a command that waits. -/
lemma avmRead_of_pending (hl : r.Linked) (hi : i ≤ (r.burst t).length) (hs : 5 ≤ r.since t i)
    (hp : (r.point t i).path.ctl.vgaResetPending = true) :
    (r.point t i).path.ctl.avmRead = true := by
  refine invariant (P := fun t i => 5 ≤ r.since t i →
    (r.point t i).path.ctl.vgaResetPending = true → (r.point t i).path.ctl.avmRead = true)
    (fun _ h => by cases h) ?_ ?_ hi hs hp
  · intro t i x hx _ h5 hp
    rw [since_succ] at h5
    rw [pending_point_succ hl hx, decide_eq_false (by omega), Bool.false_or] at hp
    split_ifs at hp with hr
    have hst : (r.point t i).path.ctl.stalled ((r.point t i).ctlIn r.mem x) = true :=
      stalledAt_of_not_restartsAt hp hr
    rw [ctl_point_succ hx, avmRead_edge, hst]
    rfl
  · intro t ih h5 hp
    have hph : vsPhase (t + 1) ≠ 0 := by
      intro h0
      rw [since_zero_of_rises h0] at h5
      omega
    rw [since_cycle hph] at h5
    rw [point_zero, ctl_start_succ, final_eq] at hp ⊢
    exact ih h5 hp

/-- When the flush is over, the words under way are some of those asked for before the restart,
and those asked for since; if the frame is not settled, too many or too few of the former. -/
lemma exists_trailing (hl : r.Linked) (hroom : r.Roomy) (ht₀ : r.Rises t₀) :
    ∃ l k, Trailing r l k (t₀ + 12) 0 ∧ l.length ≤ k + (r.start (t₀ + 12)).path.underWay ∧
      (¬ r.Settled t₀ → k ≠ l.length) := by
  have hz := served_of_rise ((rises_iff t₀).1 ht₀)
  have hlen := ReadPath.length_words_eq (s := (r.start (t₀ + 12)).path) r.mem
  cases hp : (r.start (t₀ + 12)).path.ctl.vgaResetPending with
  | true =>
    -- nothing has been asked for yet, and the command that waits is under way
    have hnew : r.renewed (t₀ + 12) 0 = [] := if_pos hp
    have hs := vsPhase_le_since hl (t₀ + 12) 0
    rw [vsPhase_of_rises ht₀ (by omega) (by omega)] at hs
    have hrd := avmRead_of_pending hl (Nat.zero_le (r.burst (t₀ + 12)).length) (by omega) hp
    have hpos : 1 ≤ (r.start (t₀ + 12)).path.underWay := by
      unfold ReadPath.underWay ReadPath.onBus
      rw [← point_zero, hrd, if_pos rfl]
      exact Nat.le_add_left _ _
    refine ⟨(r.start (t₀ + 12)).path.words r.mem, 0, ⟨?_, ?_⟩, ?_, fun _ => ?_⟩
    · rw [hz]
      exact Nat.zero_le _
    · rw [hz, hnew, List.append_nil]
      rfl
    · rw [hlen, Nat.zero_add]
    · rw [hlen]
      omega
  | false =>
    have hnew := renewed_of_not_pending (r := r) (t := t₀ + 12) (i := 0) hp
    obtain ⟨old, hold⟩ := trails hroom (Nat.zero_le (r.burst (t₀ + 12)).length)
    have hle := hold.length_le
    rw [List.length_append, length_picture, point_zero, hlen] at hle
    refine ⟨old, old.length + (r.start (t₀ + 12)).path.ctl.reqCnt.toNat -
      (r.start (t₀ + 12)).path.underWay, ⟨?_, ?_⟩, by omega, fun hset => ?_⟩
    · rw [hz, hnew, List.length_append, length_picture, point_zero]
      omega
    · have hdrop := List.suffix_iff_eq_drop.1 hold
      rw [List.length_append, length_picture, point_zero, hlen] at hdrop
      rw [hz, hnew, point_zero]
      exact hdrop
    · intro heq
      refine hset ⟨hp, ?_⟩
      unfold ReadPath.underWay at heq hle
      omega

/-- Every address is requested once in the frame. -/
lemma exists_request (ht₀ : r.Rises t₀) {a : ℕ} (ha : a < 307200) :
    ∃ t, t₀ + 12 ≤ t ∧ t < t₀ + 410394 ∧ Requests t ∧ address t = a := by
  have h0 := (rises_iff t₀).1 ht₀
  unfold vsPhase at h0
  refine ⟨t₀ + 26554 + 800 * (a / 640) + a % 640, by omega, by omega, ?_, ?_⟩
  · unfold Requests
    omega
  · unfold Vga.address
    omega

/-- **A frame that tells is clean if it is intact.** -/
theorem Telling.clean (h : r.Telling t₀) (h2 : r.TwoToOne) (hroom : r.Roomy) (ht₀ : r.Rises t₀)
    (hint : ∀ t, t₀ ≤ t → t < t₀ + 420000 → r.Intact t) : r.Clean t₀ := by
  have h0 := (rises_iff t₀).1 ht₀
  rw [← settled_iff_clean h2 hroom ht₀]
  by_contra hset
  obtain ⟨l, k, hbase, hlen, hne⟩ := exists_trailing h2.linked hroom ht₀
  have hkl := hne hset
  have hfew := h.few
  -- where the first of the words asked for since the restart should come, or comes
  obtain ⟨t, h1, h3, hreq, haddr⟩ := exists_request ht₀ (show l.length - k < 307200 by omega)
  have hall : ∀ u < t, u / 420000 = t / 420000 → r.VgaReq u → r.Popped u := by
    intro u hu hd hr
    have hph := vsPhase_of_requests ((vgaReq_iff u).1 hr)
    unfold vsPhase at h0 hph
    exact h.served u (by omega) (by omega) hr
  have hpop := h.served t (by omega) (by omega) ((vgaReq_iff t).2 hreq)
  have hright := hint t (by omega) (by omega) hpop hall
  have hget := (trailing h2 hroom ht₀ hbase le_rfl h1 h3 hall).poppedWord_eq hpop
  rw [haddr, List.getElem?_append_right (by omega)] at hget
  obtain ⟨hword, hlt⟩ := getElem?_renewed hget
  have hcnt : (r.point t (r.burst t).length).path.ctl.reqCnt.toNat ≤ 307200 :=
    (counted_point le_rfl).le
  rw [← pictureWord_oAddress, haddr] at hright
  have hsame := hright.symm.trans hword
  rcases Nat.lt_or_ge k l.length with hlt' | hge
  · rw [show k + (l.length - k) - l.length = 0 by omega] at hsame
    exact h.unlike _ (by omega) (by omega) hsame
  · rw [show l.length - k = 0 by omega] at hsame
    exact h.unlike _ (by omega) (by omega) hsame.symm

/-- **Frame integrity.** In every run in which no word meets a full FIFO, a cycle is intact if its
frame began with a clean boundary; and a frame that tells is intact only if it did. -/
theorem integrity (h2 : r.TwoToOne) (hroom : r.Roomy) :
    (∀ t, (∀ t₀ ≤ t, r.Rises t₀ → t < t₀ + 420000 → r.Clean t₀) → r.Intact t) ∧
      ∀ t₀, r.Rises t₀ → r.Telling t₀ →
        (r.Clean t₀ ↔ ∀ t, t₀ ≤ t → t < t₀ + 420000 → r.Intact t) := by
  have hclean (t : ℕ) (h : ∀ t₀ ≤ t, r.Rises t₀ → t < t₀ + 420000 → r.Clean t₀) : r.Intact t :=
    intact_of_settled h2 hroom fun t₀ h1 ht₀ h3 =>
      (settled_iff_clean h2 hroom ht₀).2 (h t₀ h1 ht₀ h3)
  refine ⟨hclean, fun t₀ ht₀ htell => ⟨fun hc t h1 h3 => ?_, htell.clean h2 hroom ht₀⟩⟩
  refine hclean t fun u hu hru hlt => ?_
  -- the frame has one rise
  have h0 := (rises_iff t₀).1 ht₀
  have hu0 := (rises_iff u).1 hru
  obtain rfl : u = t₀ := by
    unfold vsPhase at h0 hu0
    omega
  exact hc

end Run

/-! ### Frames that are intact -/

lemma length_bus_closedLoop {img : ℕ → Bool} {t i : ℕ}
    (hi : i ≤ ((closedLoop img).burst t).length) :
    ((closedLoop img).point t i).path.bus.length ≤ 1 := by
  refine Run.invariant (P := fun t i => ((closedLoop img).point t i).path.bus.length ≤ 1)
    (Nat.zero_le _) ?_ ?_ hi
  · intro t i x hx h
    have hresp : x.respond = true := by
      have hmem := List.mem_of_getElem? hx
      rw [List.mem_singleton.1 hmem]
      rfl
    rw [Run.point_succ hx, DoanTop.edge50, ReadPath.edge, ReadPath.unanswered, DoanTop.pathIn,
      hresp]
    dsimp only
    rw [if_pos rfl, Option.elim_some, List.eraseIdx_zero, List.length_append, List.length_tail]
    split_ifs <;> simp <;> omega
  · intro t h
    rw [Run.point_zero, Run.start_succ]
    exact h

lemma roomy_closedLoop {img : ℕ → Bool} : (closedLoop img).Roomy :=
  Run.roomy_of_honest (honest_closedLoop img) fun _ _ hi =>
    (length_bus_closedLoop hi).trans (by omega)

/-- The picture is loaded for four cycles, so that at the first rise three words are under way,
and again when the flush is over. -/
def glimpse (t : ℕ) : Bool := decide (9600 ≤ t ∧ t < 9604 ∨ 9620 ≤ t)

lemma rises_glimpse : (closedLoop glimpse).Rises 9606 := (Run.rises_iff _).2 (by simp [vsPhase])

/-- The flush removes them. -/
lemma clean_glimpse : (closedLoop glimpse).Clean 9606 := by
  have himg : ∀ u < 9600, glimpse u = false := fun u hu => decide_eq_false (by omega)
  have hpath := path_closedLoop_add glimpse 9600 18 fun j hj => not_requests_of_lt (by omega)
  rw [path_closedLoop_idle (by omega) (by omega) himg] at hpath
  rw [← Run.settled_iff_clean (twoToOne_closedLoop glimpse) roomy_closedLoop rises_glimpse,
    Run.Settled, show 9606 + 12 = 9600 + 18 from rfl, hpath]
  decide +kernel

/-- A memory that tells the first word of the picture from the others. -/
def corner (a : BitVec 25) : BitVec 16 := if a = bufferABase then 1 else 0

lemma unlike_corner {j : ℕ} (h0 : 0 < j) (hj : j < 307200) :
    pictureWord corner j ≠ pictureWord corner 0 := by
  have hne : bufferABase + BitVec.ofNat 25 j ≠ bufferABase := by
    intro h
    have htoNat := congrArg BitVec.toNat h
    rw [toNat_base_add hj] at htoNat
    omega
  rw [pictureWord, corner, if_neg hne]
  decide

lemma underWay_doubleLoop_lt {mem : BitVec 25 → BitVec 16} {img : ℕ → Bool} (t : ℕ) :
    ((doubleLoop mem img).start t).path.underWay < 307200 := by
  have hb := ((keeps_doubleLoop mem img).bounded (t := t) (Nat.zero_le _)).total
  rw [show loopTerms.unanswered = 1 from rfl, Run.point_zero] at hb
  unfold ReadPath.underWay
  omega

lemma telling_corner : (doubleLoop corner later).Telling 9606 where
  served _ h1 _ hreq := (Run.Rested.service rested_later (twoToOne_doubleLoop corner later)
    (keeps_doubleLoop corner later) spares_doubleLoop on_later h1 hreq).1
  unlike _ := unlike_corner
  few := underWay_doubleLoop_lt _

theorem integrity_glimpse : (closedLoop glimpse).Intact 36500 ∧
    ((doubleLoop corner later).Clean 9606 ↔
      ∀ t, 9606 ≤ t → t < 9606 + 420000 → (doubleLoop corner later).Intact t) := by
  constructor
  · refine (Run.integrity (twoToOne_closedLoop glimpse) roomy_closedLoop).1 36500 ?_
    intro t₀ h1 h2 h3
    have h0 := (Run.rises_iff t₀).1 h2
    obtain rfl : t₀ = 9606 := by
      unfold vsPhase at h0
      omega
    exact clean_glimpse
  · exact (Run.integrity (twoToOne_doubleLoop corner later) (keeps_doubleLoop corner later).roomy).2
      9606 rises_doubleLoop telling_corner

end VideoPipeline.Top

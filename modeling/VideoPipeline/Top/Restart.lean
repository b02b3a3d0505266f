import VideoPipeline.Top.VSync

/-!
One restart of the read counter for each frame. Every rise of the vertical sync becomes one
pulse, the pulse one pending restart, and the pending restart is executed as soon as no command
is stalled. Counted together, the restarts executed, the restart pending and the rise still on
its way are as many as the rises.
-/

namespace VideoPipeline.Top

open VideoPipeline.Lib VideoPipeline.Vga VideoPipeline.Image VideoPipeline.Read
  SdramReadController

namespace Run

variable (r : Run)

/-- The edge `e` executes the branch that clears the count. -/
def RestartsAt (e : DoanTop × SysIn) : Prop := e.1.path.ctl.restarts (e.1.ctlIn r.mem e.2) = true

/-- The edge `e` finds a command on the bus and `waitrequest`. -/
def StalledAt (e : DoanTop × SysIn) : Prop := e.1.path.ctl.stalled (e.1.ctlIn r.mem e.2) = true

instance : DecidablePred r.RestartsAt := fun e => by unfold RestartsAt; infer_instance

/-- The restarts executed before a point of the run. -/
def restarts (t i : ℕ) : ℕ := (r.clocks.edges t i).countP fun e => r.RestartsAt e

/-- The rises of the vertical sync up to cycle `t`. -/
def rises (t : ℕ) : ℕ := Nat.count r.Rises (t + 1)

/-- At no point of the run have more than the last `n` edges found a stalled command. -/
def StallsAtMost (n : ℕ) : Prop :=
  ∀ t i block, i ≤ (r.burst t).length → block <:+ r.clocks.edges t i →
    (∀ e ∈ block, r.StalledAt e) → block.length ≤ n

variable {r} {t i : ℕ} {x : SysIn}

lemma rises_zero : r.rises 0 = 0 := by
  rw [rises, Nat.count_succ, Nat.count_zero, if_neg fun h : r.Rises 0 => h]

lemma rises_succ (t : ℕ) : r.rises (t + 1) = r.rises t + if vsPhase (t + 1) = 0 then 1 else 0 := by
  rw [rises, Nat.count_succ]
  simp only [rises_iff]
  rfl

lemma restarts_zero : r.restarts 0 0 = 0 := by
  rw [restarts, TwoClock.edges_zero]
  rfl

lemma restarts_succ (hx : (r.burst t)[i]? = some x) : r.restarts t (i + 1) =
    r.restarts t i + if r.RestartsAt (r.point t i, x) then 1 else 0 := by
  rw [restarts, TwoClock.countP_edges_succ _ hx]
  simp only [decide_eq_true_eq]
  rfl

lemma restarts_cycle : r.restarts (t + 1) 0 = r.restarts t (r.burst t).length := by
  rw [restarts, TwoClock.edges_cycle]
  rfl

/-! ### Where the rise is -/

/-- **The tokens.** Until the pulse is seen the last rise is on its way; then its restart is
pending, which it is only while the command on the bus is stalled, or executed. -/
structure Tokens (r : Run) (t i : ℕ) : Prop where
  early : r.since t i ≤ 3 →
    (r.point t i).path.ctl.vgaResetPending = false ∧ r.restarts t i + 1 = r.rises t
  late : 4 ≤ r.since t i →
    r.restarts t i + (if (r.point t i).path.ctl.vgaResetPending then 1 else 0) = r.rises t
  held : 4 ≤ r.since t i → (r.point t i).path.ctl.vgaResetPending = true →
    ∃ block, block <:+ r.clocks.edges t i ∧ (∀ e ∈ block, r.StalledAt e) ∧
      block.length + 4 = r.since t i

lemma tokens_zero : Tokens r 0 0 where
  early h := by
    rw [since_zero] at h
    omega
  late _ := by
    rw [restarts_zero, rises_zero]
    rfl
  held _ h := by cases h

lemma pending_point_succ (hl : r.Linked) (hx : (r.burst t)[i]? = some x) :
    (r.point t (i + 1)).path.ctl.vgaResetPending =
      if r.RestartsAt (r.point t i, x) then false
      else (decide (r.since t i = 3) || (r.point t i).path.ctl.vgaResetPending) := by
  rw [ctl_point_succ hx, vgaResetPending_edge, vgaDonePulse_point hl (lt_of_burst hx).le]
  rfl

/-- A restart is executed at once unless the bus is stalled. -/
lemma stalledAt_of_not_restartsAt {e : DoanTop × SysIn}
    (hp : e.1.path.ctl.vgaResetPending = true) (h : ¬ r.RestartsAt e) : r.StalledAt e := by
  unfold RestartsAt SdramReadController.restarts at h
  unfold StalledAt
  rw [hp, Bool.and_true] at h
  simpa using h

lemma Tokens.edge50 (hl : r.Linked) (hx : (r.burst t)[i]? = some x) (h : Tokens r t i) :
    Tokens r t (i + 1) := by
  have hpend := pending_point_succ hl hx
  have hcnt := restarts_succ hx
  have hneed : r.RestartsAt (r.point t i, x) → (r.point t i).path.ctl.vgaResetPending = true :=
    pending_of_restarts
  rcases Nat.lt_or_ge (r.since t i) 4 with hj | hj
  · -- nothing is pending, so nothing is executed
    obtain ⟨hp, hc⟩ := h.early (by omega)
    have hno : ¬ r.RestartsAt (r.point t i, x) := by
      intro hr
      simp [hneed hr] at hp
    rw [if_neg hno, hp, Bool.or_false] at hpend
    rw [if_neg hno, Nat.add_zero] at hcnt
    constructor <;> rw [since_succ, hpend]
    · intro h3
      exact ⟨decide_eq_false (by omega), hcnt ▸ hc⟩
    · intro h4
      rw [if_pos (decide_eq_true (by omega)), hcnt]
      exact hc
    · intro h4 _
      exact ⟨[], List.nil_suffix, by simp, by simp; omega⟩
  · have hne : ¬ r.since t i = 3 := by omega
    have hlate := h.late hj
    rw [decide_eq_false hne, Bool.false_or] at hpend
    by_cases hr : r.RestartsAt (r.point t i, x)
    · rw [if_pos hr] at hpend hcnt
      rw [hneed hr, if_pos rfl] at hlate
      constructor <;> rw [since_succ, hpend]
      · omega
      · rw [hcnt]
        intro _
        simpa using hlate
      · simp
    · rw [if_neg hr] at hpend hcnt
      constructor <;> rw [since_succ, hpend]
      · omega
      · rw [hcnt]
        intro _
        exact hlate
      · intro _ hp
        obtain ⟨block, hsuf, hst, hlen⟩ := h.held hj hp
        refine ⟨block ++ [(r.point t i, x)], ?_, ?_, ?_⟩
        · rw [TwoClock.edges_succ hx]
          exact List.suffix_append_inj_of_length_eq rfl |>.2 ⟨hsuf, rfl⟩
        · intro e he
          rcases List.mem_append.1 he with he | he
          · exact hst e he
          · rw [List.mem_singleton.1 he]
            exact stalledAt_of_not_restartsAt hp hr
        · simp
          omega

/-- A restart does not stay pending for longer than the bus stalls. -/
lemma Tokens.drained (hs : r.StallsAtMost 20000) (hi : i ≤ (r.burst t).length) (h : Tokens r t i)
    (hj : 20005 ≤ r.since t i) : (r.point t i).path.ctl.vgaResetPending = false := by
  rw [← Bool.not_eq_true]
  intro hp
  obtain ⟨block, hsuf, hst, hlen⟩ := h.held (by omega) hp
  have := hs t i block hi hsuf hst
  omega

lemma Tokens.edge25 (hl : r.Linked) (hs : r.StallsAtMost 20000)
    (h : Tokens r t (r.burst t).length) : Tokens r (t + 1) 0 := by
  have hpend : (r.point (t + 1) 0).path.ctl.vgaResetPending =
      (r.point t (r.burst t).length).path.ctl.vgaResetPending := by
    rw [point_zero, ctl_start_succ, final_eq]
  have hle := vsPhase_le_since hl t (r.burst t).length
  by_cases h0 : vsPhase (t + 1) = 0
  · have hlast := vsPhase_of_succ_eq_zero h0
    have hdr := h.drained hs le_rfl (by omega)
    have hlate := h.late (by omega)
    rw [hdr] at hpend hlate
    constructor <;> rw [since_zero_of_rises h0, hpend]
    · rw [restarts_cycle, rises_succ, if_pos h0]
      intro _
      exact ⟨rfl, by simpa using hlate⟩
    · omega
    · simp
  · constructor <;>
      rw [since_cycle h0, hpend]
    · rw [restarts_cycle, rises_succ, if_neg h0]
      exact h.early
    · rw [restarts_cycle, rises_succ, if_neg h0]
      exact h.late
    · rw [TwoClock.edges_cycle]
      exact h.held

theorem tokens (hl : r.Linked) (hs : r.StallsAtMost 20000) (hi : i ≤ (r.burst t).length) :
    Tokens r t i :=
  invariant tokens_zero (fun _ _ _ hx h => h.edge50 hl hx) (fun _ h => h.edge25 hl hs) hi

lemma vgaReq_point : (r.point t i).vgaReq = decide (Requests t) := by
  rw [← vgaReq_start (r := r) t, DoanTop.vgaReq, pipe_point]
  rfl

/-- **One restart for each frame.** There are never more restarts than rises, and while pixels
are requested there are as many. -/
theorem restarts_le_rises (hl : r.Linked) (hs : r.StallsAtMost 20000)
    (hi : i ≤ (r.burst t).length) :
    r.restarts t i ≤ r.rises t ∧ ((r.point t i).vgaReq = true → r.restarts t i = r.rises t) := by
  have h := tokens hl hs hi
  constructor
  · rcases Nat.lt_or_ge (r.since t i) 4 with hj | hj
    · have := (h.early (by omega)).2
      omega
    · have := h.late hj
      omega
  · intro hreq
    rw [vgaReq_point, decide_eq_true_eq] at hreq
    have hph := (vsPhase_of_requests hreq).1
    have hle := vsPhase_le_since hl t i
    have hlate := h.late (by omega)
    rw [h.drained hs hi (by omega)] at hlate
    simpa using hlate

/-! ### A bus that waits -/

/-- The stalls are as short as the stretches of edges with `waitrequest`, which `age` bounds. -/
lemma stallsAtMost_of_age (age : ℕ → ℕ → ℕ) {n : ℕ}
    (hedge : ∀ t i x, (r.burst t)[i]? = some x → x.rDmaWaitrequest = true →
      age t i < age t (i + 1))
    (hcycle : ∀ t, age t (r.burst t).length ≤ age (t + 1) 0) (hn : ∀ t i, age t i ≤ n) :
    r.StallsAtMost n := by
  have hage {t i : ℕ} (hi : i ≤ (r.burst t).length) : ∀ block, block <:+ r.clocks.edges t i →
      (∀ e ∈ block, r.StalledAt e) → block.length ≤ age t i := by
    refine invariant (r := r) (P := fun t i => ∀ block, block <:+ r.clocks.edges t i →
      (∀ e ∈ block, r.StalledAt e) → block.length ≤ age t i) ?_ ?_ ?_ hi
    · intro block hsuf _
      rw [TwoClock.edges_zero, List.suffix_nil] at hsuf
      rw [hsuf]
      exact Nat.zero_le _
    · intro t i x hx ih block hsuf hst
      rw [TwoClock.edges_succ hx] at hsuf
      rcases List.suffix_concat_iff.1 hsuf with rfl | ⟨block', rfl, hsuf'⟩
      · exact Nat.zero_le _
      · have hlen := ih block' hsuf' fun e he => hst e (List.mem_append_left _ he)
        have hstalled := hst _ (List.mem_append_right _ (List.mem_singleton_self _))
        have hlt := hedge t i x hx (Bool.and_eq_true_iff.1 hstalled).2
        rw [List.length_append, List.length_singleton]
        omega
    · intro t ih block hsuf hst
      rw [TwoClock.edges_cycle] at hsuf
      exact (ih block hsuf hst).trans (hcycle t)
  exact fun t i block hi hsuf hst => (hage hi block hsuf hst).trans (hn t i)

/-- One edge of `clk_50m_sys` in each cycle; the picture is loaded, and the bus takes a command in
every hundredth cycle only. -/
def flowing : Run where
  m := blankInit 30
  mem := fun a => a.setWidth 16
  burst := fun t => [⟨true, decide (t % 100 ≠ 0), true, 0⟩]
  vga := fun _ => ⟨false, 0⟩

lemma linked_flowing : flowing.Linked := fun _ _ => le_rfl

/-- The edges since the bus took a command last. -/
def waited (t i : ℕ) : ℕ :=
  if t % 100 = 0 then 99 * (1 - i) else t % 100 - 1 + min i 1

lemma stallsAtMost_flowing : flowing.StallsAtMost 20000 := by
  refine stallsAtMost_of_age waited ?_ ?_ ?_
  · intro t i x hx hw
    have hi : i < 1 := lt_of_burst hx
    obtain rfl : i = 0 := by omega
    obtain rfl := Option.some.inj hx
    have hmod : t % 100 ≠ 0 := of_decide_eq_true hw
    rw [waited, waited, if_neg hmod, if_neg hmod]
    omega
  · intro t
    change waited t 1 ≤ waited (t + 1) 0
    unfold waited
    split_ifs <;> omega
  · intro t i
    unfold waited
    split_ifs <;> omega

theorem restarts_le_rises_flowing : 1 < flowing.rises 456160 ∧
    flowing.restarts 456160 1 = flowing.rises 456160 := by
  have h := restarts_le_rises (t := 456160) (i := 1) linked_flowing stallsAtMost_flowing le_rfl
  have hrise (t : ℕ) (ht : vsPhase t = 0) : flowing.Rises t := (rises_iff t).2 ht
  have h1 := Nat.count_strict_mono (hrise 9606 (by decide)) (show 9606 < 429606 by omega)
  have h2 := Nat.count_strict_mono (hrise 429606 (by decide)) (show 429606 < 456160 + 1 by omega)
  refine ⟨?_, h.2 ?_⟩
  · change 1 < Nat.count flowing.Rises _
    omega
  · rw [vgaReq_point]
    decide

end Run

end VideoPipeline.Top

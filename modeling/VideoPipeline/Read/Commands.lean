import VideoPipeline.Lib.Bits
import VideoPipeline.Read.Controller

/-!
The commands of one run of `sdram_read_controller`. A restart clears the count, so the restarts
cut the run into segments; within a segment the accepted addresses count up from
`BUFFER_A_BASE`. The invariant behind this says how far the segment has come: the count is one
ahead of what was accepted exactly while a command is on the bus.
-/

namespace VideoPipeline.Read

open VideoPipeline.Lib SdramReadController

section Run

variable (inp : ℕ → CtlIn)

/-- `vga_done_pulse` in cycle `n`. -/
def Pulse (n : ℕ) : Prop := (ctlAt inp n).vgaDonePulse = true

/-- `avm_read` is up and `avm_waitrequest` is down in cycle `n`. -/
def Accepted (n : ℕ) : Prop := (ctlAt inp n).accepts (inp n) = true

/-- The command of cycle `n` meets `avm_waitrequest`. -/
def Stalled (n : ℕ) : Prop := (ctlAt inp n).stalled (inp n) = true

/-- The count is cleared at the edge that ends cycle `n`. -/
def Restarts (n : ℕ) : Prop := (ctlAt inp n).restarts (inp n) = true

/-- A command is placed on the bus at the edge that ends cycle `n`. -/
def Issues (n : ℕ) : Prop := (ctlAt inp n).issues (inp n) = true

instance : DecidablePred (Accepted inp) := fun n => by unfold Accepted; infer_instance
instance : DecidablePred (Restarts inp) := fun n => by unfold Restarts; infer_instance
instance : DecidablePred (Issues inp) := fun n => by unfold Issues; infer_instance

/-- The address on the bus in cycle `n`. -/
def address (n : ℕ) : ℕ := (ctlAt inp n).avmAddress.toNat

/-- The restarts before cycle `n`, which number the segments. -/
def restartsBefore (n : ℕ) : ℕ := Nat.count (Restarts inp) n

/-- The addresses accepted before cycle `N`, in order. -/
def accepted (N : ℕ) : List ℕ :=
  ((List.range N).filter fun n => Accepted inp n).map (address inp)

/-- Those of segment `k`. -/
def segment (k N : ℕ) : List ℕ :=
  ((List.range N).filter fun n => Accepted inp n ∧ restartsBefore inp n = k).map (address inp)

/-- The addresses `BUFFER_A_BASE`, `BUFFER_A_BASE + 1`, ..., `n` of them. -/
def fromBase (n : ℕ) : List ℕ := (List.range n).map (bufferABase.toNat + ·)

/-- **The command sequence of a run.** -/
structure CommandDiscipline : Prop where
  /-- The accepted addresses are the segments one after another. -/
  concat : ∀ N, accepted inp N =
    (List.range (restartsBefore inp N + 1)).flatMap fun k => segment inp k N
  /-- Every segment counts up from the base, and stays within the picture. -/
  counts : ∀ k N, ∃ n ≤ 307200, segment inp k N = fromBase n
  /-- A stalled command is presented unchanged in the next cycle. -/
  held : ∀ n, Stalled inp n →
    (ctlAt inp (n + 1)).avmRead = true ∧ address inp (n + 1) = address inp n
  /-- Every restart has a pulse of its own before it. -/
  caused : ∀ r, Restarts inp r →
    ∃ p < r, Pulse inp p ∧ ∀ q, p ≤ q → q < r → ¬ Restarts inp q
  /-- Of two commands accepted after a pulse, the second comes after the address restarted. -/
  prompt : ∀ p c₁ c₂, Pulse inp p → p < c₁ → c₁ < c₂ → Accepted inp c₁ → Accepted inp c₂ →
    ∃ c, p < c ∧ c ≤ c₂ ∧ Accepted inp c ∧ address inp c = bufferABase.toNat
  /-- No command is placed after a pulse before a cycle, not before the pulse, that saw the FIFO
  empty. -/
  flushed : ∀ p e, Pulse inp p → p < e → Issues inp e →
    ∃ z, p ≤ z ∧ z < e ∧ (inp z).fifoWrusedw = 0

end Run

variable {inp : ℕ → CtlIn}

/-! ### The lists of a run -/

lemma restartsBefore_succ (n : ℕ) :
    restartsBefore inp (n + 1) = restartsBefore inp n + if Restarts inp n then 1 else 0 :=
  Nat.count_succ _ _

lemma restartsBefore_mono {m n : ℕ} (h : m ≤ n) : restartsBefore inp m ≤ restartsBefore inp n :=
  Nat.count_monotone _ h

lemma restartsBefore_lt {r n : ℕ} (h : Restarts inp r) (hr : r < n) :
    restartsBefore inp r < restartsBefore inp n :=
  Nat.count_strict_mono h hr

lemma accepted_succ (N : ℕ) : accepted inp (N + 1) =
    accepted inp N ++ if Accepted inp N then [address inp N] else [] := by
  unfold accepted
  rw [List.range_succ, List.filter_append, List.map_append]
  by_cases h : Accepted inp N <;> simp [h]

lemma segment_succ (k N : ℕ) : segment inp k (N + 1) = segment inp k N ++
    if Accepted inp N ∧ restartsBefore inp N = k then [address inp N] else [] := by
  unfold segment
  rw [List.range_succ, List.filter_append, List.map_append]
  by_cases h : Accepted inp N ∧ restartsBefore inp N = k <;> simp [h]

/-- A segment that is not the present one does not grow. -/
lemma segment_succ_of_ne {k N : ℕ} (h : restartsBefore inp N ≠ k) :
    segment inp k (N + 1) = segment inp k N := by
  rw [segment_succ, if_neg fun hk => h hk.2, List.append_nil]

lemma segment_of_lt {k N : ℕ} (h : restartsBefore inp N < k) : segment inp k N = [] := by
  induction N with
  | zero => rfl
  | succ N ih =>
    have hle : restartsBefore inp N ≤ restartsBefore inp (N + 1) := restartsBefore_mono (by omega)
    rw [segment_succ_of_ne (by omega), ih (by omega)]

lemma fromBase_succ (n : ℕ) : fromBase (n + 1) = fromBase n ++ [bufferABase.toNat + n] := by
  unfold fromBase
  rw [List.range_succ, List.map_append, List.map_singleton]

theorem accepted_eq (N : ℕ) : accepted inp N =
    (List.range (restartsBefore inp N + 1)).flatMap fun k => segment inp k N := by
  induction N with
  | zero => simp [accepted, segment]
  | succ N ih =>
    -- only the present segment grows, and a segment that begins here is empty
    have hgrow : (List.range (restartsBefore inp N + 1)).flatMap (fun k => segment inp k (N + 1)) =
        accepted inp (N + 1) := by
      have hold : (List.range (restartsBefore inp N)).flatMap (fun k => segment inp k (N + 1)) =
          (List.range (restartsBefore inp N)).flatMap fun k => segment inp k N :=
        List.flatMap_congr fun k hk => segment_succ_of_ne (List.mem_range.1 hk).ne'
      rw [accepted_succ, ih, List.range_succ, List.flatMap_append, List.flatMap_append, hold,
        List.append_assoc]
      simp [segment_succ]
    rw [restartsBefore_succ]
    split_ifs with hr
    · have hnew : segment inp (restartsBefore inp N + 1) (N + 1) = [] := by
        rw [segment_succ_of_ne (Nat.succ_ne_self _).symm, segment_of_lt (Nat.lt_succ_self _)]
      rw [List.range_succ, List.flatMap_append, hgrow]
      simp [hnew]
    · exact hgrow.symm

/-! ### How far the segment has come -/

/-- The commands of the segment that were accepted: all that were counted, but for the one that
is still on the bus. -/
def SdramReadController.sent (s : SdramReadController) : ℕ :=
  s.reqCnt.toNat - if s.avmRead then 1 else 0

/-- The count stays within the picture, and the command on the bus is the last one counted. -/
structure Counted (s : SdramReadController) : Prop where
  le : s.reqCnt.toNat ≤ 307200
  pos : s.avmRead = true → 0 < s.reqCnt.toNat
  addr : s.avmRead = true → s.avmAddress.toNat + 1 = bufferABase.toNat + s.reqCnt.toNat

lemma toNat_issued {c : BitVec 19} (h : c.toNat < 307200) :
    (bufferABase + ((0 : BitVec 6) ++ c)).toNat = bufferABase.toNat + c.toNat := by
  have hb : bufferABase.toNat = 0x1000000 := rfl
  have hz : ((0 : BitVec 6) ++ c).toNat = c.toNat := toNat_zero_append c
  rw [BitVec.toNat_add_of_lt (by omega), hz]

lemma counted_reset : Counted .reset :=
  ⟨Nat.zero_le _, fun h => absurd h Bool.false_ne_true, fun h => absurd h Bool.false_ne_true⟩

lemma Counted.edge {s : SdramReadController} (h : Counted s) (i : CtlIn) : Counted (s.edge i) := by
  by_cases hi : s.issues i = true
  · have hlt := (issues_iff.1 hi).need
    have hcnt := toNat_reqCnt_of_issues hi
    refine ⟨by omega, fun _ => by omega, ?_⟩
    intro _
    rw [hcnt, avmAddress_edge, if_pos hi, toNat_issued hlt, Nat.add_assoc]
  · by_cases hst : s.stalled i = true
    · -- the command is held, and so is the count
      have hrd := avmRead_of_stalled hst
      have hcnt : (s.edge i).reqCnt = s.reqCnt :=
        reqCnt_of_not_issues (not_restarts_of_stalled hst) (not_issues_of_stalled hst)
      have haddr : (s.edge i).avmAddress = s.avmAddress := by rw [avmAddress_edge, if_neg hi]
      exact ⟨hcnt ▸ h.le, fun _ => hcnt ▸ h.pos hrd, fun _ => haddr ▸ hcnt ▸ h.addr hrd⟩
    · -- the bus falls idle
      have hrd : (s.edge i).avmRead ≠ true := by simp [avmRead_edge, hst, hi]
      refine ⟨?_, fun hc => absurd hc hrd, fun hc => absurd hc hrd⟩
      rw [reqCnt_edge, if_neg hi]
      split_ifs
      · simp
      · exact h.le

lemma counted_ctlAt (n : ℕ) : Counted (ctlAt inp n) :=
  run_invariant (P := fun _ s => Counted s) counted_reset (fun _ h => h.edge _) n

/-- The command taken is the next one of the segment. -/
lemma Counted.of_accepts {s : SdramReadController} (h : Counted s) {i : CtlIn}
    (ha : s.accepts i = true) :
    s.avmAddress.toNat = bufferABase.toNat + s.sent ∧ s.sent + 1 = s.reqCnt.toNat := by
  have hrd := avmRead_of_accepts ha
  have h1 := h.pos hrd
  have h2 := h.addr hrd
  rw [sent, if_pos hrd]
  omega

lemma sent_of_restarts {s : SdramReadController} {i : CtlIn} (hr : s.restarts i = true) :
    (s.edge i).sent = 0 := by
  rw [sent, reqCnt_of_restarts hr]
  simp

/-- What was accepted of the segment grows by the command that is taken. -/
lemma Counted.sent_edge {s : SdramReadController} (h : Counted s) {i : CtlIn}
    (hr : s.restarts i = false) : (s.edge i).sent = s.sent + if s.accepts i then 1 else 0 := by
  by_cases hst : s.stalled i = true
  · have hi := not_issues_of_stalled hst
    rw [sent, sent, reqCnt_of_not_issues hr hi, avmRead_edge, hst, hi, avmRead_of_stalled hst,
      not_accepts_of_stalled hst]
    rfl
  · -- the command on the bus is taken, and another one may follow it
    have hst' : s.stalled i = false := Bool.eq_false_iff.2 hst
    have hpos := h.pos
    rw [sent, sent, avmRead_edge, hst', accepts_eq hst', Bool.false_or]
    by_cases hi : s.issues i = true
    · rw [toNat_reqCnt_of_issues hi, if_pos hi]
      split_ifs with hrd
      · have := hpos hrd
        omega
      · omega
    · rw [reqCnt_of_not_issues hr (Bool.eq_false_iff.2 hi), if_neg hi]
      split_ifs with hrd
      · have := hpos hrd
        omega
      · omega

/-! ### The segments -/

lemma segment_present_succ {N : ℕ}
    (h : segment inp (restartsBefore inp N) N = fromBase (ctlAt inp N).sent) :
    segment inp (restartsBefore inp N) (N + 1) =
      fromBase ((ctlAt inp N).sent + if (ctlAt inp N).accepts (inp N) then 1 else 0) := by
  rw [segment_succ, h]
  by_cases ha : Accepted inp N
  · have ha' : (ctlAt inp N).accepts (inp N) = true := ha
    rw [if_pos ⟨ha, rfl⟩, if_pos ha', fromBase_succ, address, ((counted_ctlAt N).of_accepts ha').1]
  · have ha' : ¬ (ctlAt inp N).accepts (inp N) = true := ha
    rw [if_neg fun hk => ha hk.1, if_neg ha', List.append_nil, Nat.add_zero]

/-- **The present segment.** What was accepted of it is what the count says was sent. -/
theorem segment_restartsBefore (N : ℕ) :
    segment inp (restartsBefore inp N) N = fromBase (ctlAt inp N).sent := by
  induction N with
  | zero => rfl
  | succ N ih =>
    by_cases hr : Restarts inp N
    · -- a new segment, in which nothing is accepted yet
      rw [restartsBefore_succ, if_pos hr, segment_succ_of_ne (Nat.succ_ne_self _).symm,
        segment_of_lt (Nat.lt_succ_self _), ctlAt_succ, sent_of_restarts hr]
      rfl
    · rw [restartsBefore_succ, if_neg hr, Nat.add_zero, segment_present_succ ih, ctlAt_succ,
        (counted_ctlAt N).sent_edge (Bool.eq_false_iff.2 hr)]

theorem segment_counts (k N : ℕ) : ∃ n ≤ 307200, segment inp k N = fromBase n := by
  induction N with
  | zero => exact ⟨0, by omega, rfl⟩
  | succ N ih =>
    by_cases hk : restartsBefore inp N = k
    · have hc : Counted (ctlAt inp N) := counted_ctlAt N
      refine ⟨_, ?_, hk ▸ segment_present_succ (segment_restartsBefore N)⟩
      have hle := hc.le
      split_ifs with ha
      · have := (hc.of_accepts ha).2
        omega
      · rw [sent]
        omega
    · rw [segment_succ_of_ne hk]
      exact ih

/-! ### Pulses and restarts -/

lemma pending_succ (n : ℕ) : (ctlAt inp (n + 1)).vgaResetPending = true ↔
    ¬ Restarts inp n ∧ (Pulse inp n ∨ (ctlAt inp n).vgaResetPending = true) := by
  rw [ctlAt_succ, vgaResetPending_edge]
  unfold Restarts Pulse
  cases (ctlAt inp n).restarts (inp n) <;> simp

/-- A pending restart has a pulse that no restart has answered. -/
theorem pulse_of_pending {n : ℕ} (h : (ctlAt inp n).vgaResetPending = true) :
    ∃ p < n, Pulse inp p ∧ ∀ q, p ≤ q → q < n → ¬ Restarts inp q := by
  induction n with
  | zero => cases h
  | succ n ih =>
    obtain ⟨hr, hp | hp⟩ := (pending_succ n).1 h
    · exact ⟨n, by omega, hp, fun q h1 h2 => by rwa [show q = n by omega]⟩
    · obtain ⟨p, hlt, hpulse, hno⟩ := ih hp
      refine ⟨p, by omega, hpulse, ?_⟩
      intro q h1 h2
      rcases Nat.lt_succ_iff_lt_or_eq.1 h2 with hq | rfl
      · exact hno q h1 hq
      · exact hr

/-- A pulse leaves a restart pending until one is executed. -/
theorem pending_of_pulse {p n : ℕ} (h : Pulse inp p) (hn : p < n)
    (hno : ∀ q, p ≤ q → q < n → ¬ Restarts inp q) : (ctlAt inp n).vgaResetPending = true := by
  induction n, hn using Nat.le_induction with
  | base => exact (pending_succ p).2 ⟨hno p le_rfl (by omega), Or.inl h⟩
  | succ n hn ih =>
    have hp := ih fun q h1 h2 => hno q h1 (by omega)
    exact (pending_succ n).2 ⟨hno n (by omega) (by omega), Or.inr hp⟩

/-- No command is accepted after a pulse unless a restart is executed by then. -/
theorem restart_of_accepted {p c : ℕ} (h : Pulse inp p) (hc : p < c) (ha : Accepted inp c) :
    ∃ r, p ≤ r ∧ r ≤ c ∧ Restarts inp r := by
  by_contra hno
  have hp : (ctlAt inp c).vgaResetPending = true :=
    pending_of_pulse h hc fun q h1 h2 hr => hno ⟨q, h1, by omega, hr⟩
  refine hno ⟨c, by omega, le_rfl, ?_⟩
  unfold Restarts restarts
  rw [not_stalled_of_accepts ha, hp]
  rfl

/-- The first command accepted since the last restart has the base address. -/
theorem base_of_accepted {c : ℕ} (ha : Accepted inp c) :
    ∃ c' ≤ c, Accepted inp c' ∧ restartsBefore inp c' = restartsBefore inp c ∧
      address inp c' = bufferABase.toNat := by
  have hmem : address inp c ∈ segment inp (restartsBefore inp c) (c + 1) := by
    rw [segment_succ, if_pos ⟨ha, rfl⟩]
    exact List.mem_append_right _ (List.mem_singleton_self _)
  obtain ⟨n, -, hn⟩ : ∃ n ≤ 307200, segment inp (restartsBefore inp c) (c + 1) = fromBase n :=
    segment_counts _ _
  have hpos : 0 < n := by
    rcases Nat.eq_zero_or_pos n with rfl | h
    · rw [hn] at hmem
      simp [fromBase] at hmem
    · exact h
  have hbase : bufferABase.toNat ∈ segment inp (restartsBefore inp c) (c + 1) := by
    rw [hn]
    exact List.mem_map.2 ⟨0, List.mem_range.2 hpos, rfl⟩
  unfold segment at hbase
  simp only [List.mem_map, List.mem_filter, List.mem_range, decide_eq_true_eq] at hbase
  obtain ⟨c', ⟨hlt, ha', hk⟩, haddr⟩ := hbase
  exact ⟨c', by omega, ha', hk, haddr⟩

/-! ### The flush -/

/-- After a pulse the wait for the flush ends only by an empty FIFO. -/
theorem flushWait_of_pulse {p n : ℕ} (h : Pulse inp p) (hn : p < n) :
    (∃ z, p ≤ z ∧ z < n ∧ (inp z).fifoWrusedw = 0) ∨ (ctlAt inp n).flushWait = true := by
  have hstep (m : ℕ) (hm : (ctlAt inp m).vgaDonePulse = true ∨ (ctlAt inp m).flushWait = true) :
      (inp m).fifoWrusedw = 0 ∨ (ctlAt inp (m + 1)).flushWait = true := by
    rw [ctlAt_succ, flushWait_edge]
    unfold CtlIn.fifoIsEmpty
    by_cases hz : (inp m).fifoWrusedw = 0
    · exact Or.inl hz
    · right
      rw [decide_eq_false hz]
      rcases hm with hm | hm <;> simp [hm]
  induction n, hn using Nat.le_induction with
  | base => exact (hstep p (Or.inl h)).imp (fun hz => ⟨p, le_rfl, by omega, hz⟩) id
  | succ n hn ih =>
    rcases ih with ⟨z, h1, h2, hz⟩ | hf
    · exact Or.inl ⟨z, h1, by omega, hz⟩
    · exact (hstep n (Or.inr hf)).imp (fun hz => ⟨n, by omega, by omega, hz⟩) id

/-! ### The discipline -/

/-- **Every run keeps the command discipline**, whatever the bus and the FIFO report. -/
theorem commandDiscipline (inp : ℕ → CtlIn) : CommandDiscipline inp where
  concat := accepted_eq
  counts := segment_counts
  held n h := by
    have hst : (ctlAt inp n).stalled (inp n) = true := h
    constructor
    · rw [ctlAt_succ, avmRead_edge, hst]
      rfl
    · rw [address, address, ctlAt_succ, avmAddress_edge, not_issues_of_stalled hst]
      rfl
  caused r h := pulse_of_pending (pending_of_restarts h)
  prompt p c₁ c₂ hp h1 h2 ha₁ ha₂ := by
    obtain ⟨r, hpr, hrc, hr⟩ := restart_of_accepted hp h1 ha₁
    obtain ⟨c, hc, ha, hk, haddr⟩ := base_of_accepted ha₂
    refine ⟨c, ?_, hc, ha, haddr⟩
    -- it belongs to the segment of the second command, so it comes after the restart
    by_contra hle
    have h3 : restartsBefore inp c ≤ restartsBefore inp r := restartsBefore_mono (by omega)
    have h4 := restartsBefore_lt hr (show r < c₂ by omega)
    omega
  flushed p e hp hlt hi := by
    have hno : (ctlAt inp e).flushWait = false := (issues_iff.1 hi).flushed
    refine (flushWait_of_pulse hp hlt).resolve_right ?_
    intro hf
    rw [hno] at hf
    cases hf

end VideoPipeline.Read

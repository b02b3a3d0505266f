import VideoPipeline.Read.Controller

/-!
The way of a word from the read command to the FIFO: the controller, the reads the bus has
accepted and not answered, and the FIFO of 2048 words. The bus answers when and in which order
it likes; an answer is written to the FIFO in its cycle, whether or not there is room. The
invariant behind the absence of overflow bounds all that may still reach the FIFO: its words,
the unanswered reads and the command on the bus.
-/

namespace VideoPipeline.Read

open VideoPipeline.Lib SdramReadController

/-- The write port of `video_dcfifo`: `aclr` empties the queue, and a full queue drops the word. -/
def fifoWrite (aclr wrreq : Bool) (data : BitVec 16) (fifo : List (BitVec 16)) :
    List (BitVec 16) :=
  if aclr then [] else if wrreq && decide (fifo.length < 2048) then fifo ++ [data] else fifo

/-- The controller, the reads accepted and not answered, oldest first, and the FIFO. -/
structure ReadPath where
  ctl : SdramReadController
  bus : List (BitVec 25)
  fifo : List (BitVec 16)
deriving DecidableEq, Repr

/-- What one cycle of `clk_50m_sys` brings from outside: which of the unanswered reads the bus
answers, and what the memory holds. -/
structure PathIn where
  pioImgLoaded : Bool
  vgaFrameDone : Bool
  avmWaitrequest : Bool
  answer : Option ℕ
  mem : BitVec 25 → BitVec 16
  fifoWrusedw : BitVec 11

namespace ReadPath

def reset : ReadPath := ⟨.reset, [], []⟩

variable (s : ReadPath) (i : PathIn)

/-- The word answered in this cycle. -/
def answered : Option (BitVec 16) := (i.answer.bind fun j => s.bus[j]?).map i.mem

/-- The inputs of the controller. -/
def ctlIn : CtlIn where
  camFrameDone := i.pioImgLoaded
  vgaFrameDone := i.vgaFrameDone
  avmWaitrequest := i.avmWaitrequest
  avmReaddata := (s.answered i).getD 0
  avmReaddatavalid := (s.answered i).isSome
  fifoWrusedw := i.fifoWrusedw

/-- The reads left after the answer of this cycle. -/
def unanswered : List (BitVec 25) := i.answer.elim s.bus s.bus.eraseIdx

/-- One rising edge of `clk_50m_sys`, with the clear of the FIFO at `aclr`. -/
def edge (aclr : Bool) : ReadPath where
  ctl := s.ctl.edge (s.ctlIn i)
  bus := s.unanswered i ++ if s.ctl.accepts (s.ctlIn i) then [s.ctl.avmAddress] else []
  fifo := fifoWrite aclr (s.ctlIn i).fifoWrreq (s.ctlIn i).fifoWrdata s.fifo

/-- The commands on the bus, none or one. -/
def onBus : ℕ := if s.ctl.avmRead then 1 else 0

/-! ### What an edge adds -/

/-- An answer takes one read off the bus. -/
lemma length_unanswered : (s.unanswered i).length + (s.answered i).toList.length = s.bus.length := by
  unfold unanswered answered
  cases i.answer with
  | none => simp
  | some j =>
    rcases Nat.lt_or_ge j s.bus.length with hj | hj
    · simp [List.length_eraseIdx_of_lt hj, List.getElem?_eq_getElem hj]
      omega
    · simp [List.eraseIdx_of_length_le hj, List.getElem?_eq_none hj]

lemma length_fifoWrite_le (aclr wrreq : Bool) (d : BitVec 16) (q : List (BitVec 16)) :
    (fifoWrite aclr wrreq d q).length ≤ q.length + if wrreq then 1 else 0 := by
  unfold fifoWrite
  cases aclr <;> cases wrreq <;> simp
  split_ifs <;> simp

lemma fifoWrreq_eq : (if (s.ctlIn i).fifoWrreq then 1 else 0) = (s.answered i).toList.length := by
  unfold CtlIn.fifoWrreq ctlIn
  cases s.answered i <;> rfl

/-- An edge moves words from the bus to the FIFO, and the command taken onto the bus. -/
theorem length_edge_le (aclr : Bool) :
    (s.edge i aclr).fifo.length + (s.edge i aclr).bus.length ≤
      s.fifo.length + s.bus.length + if s.ctl.accepts (s.ctlIn i) then 1 else 0 := by
  have hans := s.length_unanswered i
  have hfifo := length_fifoWrite_le aclr (s.ctlIn i).fifoWrreq (s.ctlIn i).fifoWrdata s.fifo
  rw [fifoWrreq_eq] at hfifo
  have hbus : (s.edge i aclr).bus.length =
      (s.unanswered i).length + if s.ctl.accepts (s.ctlIn i) then 1 else 0 := by
    unfold edge
    cases s.ctl.accepts (s.ctlIn i) <;> simp
  rw [hbus]
  change (fifoWrite aclr _ _ s.fifo).length + _ ≤ _
  omega

lemma fifo_edge_le (aclr : Bool) : (s.edge i aclr).fifo.length ≤ s.fifo.length + 1 := by
  have hfifo := length_fifoWrite_le aclr (s.ctlIn i).fifoWrreq (s.ctlIn i).fifoWrdata s.fifo
  change (fifoWrite aclr _ _ s.fifo).length ≤ _
  split_ifs at hfifo <;> omega

/-- Unless a command is placed, no new word comes under way. -/
theorem total_edge_le (aclr : Bool) (h : s.ctl.issues (s.ctlIn i) = false) :
    (s.edge i aclr).fifo.length + (s.edge i aclr).bus.length + (s.edge i aclr).onBus ≤
      s.fifo.length + s.bus.length + s.onBus := by
  have hlen := s.length_edge_le i aclr
  have hon : (s.edge i aclr).ctl.avmRead = s.ctl.stalled (s.ctlIn i) := by
    change (s.ctl.edge _).avmRead = _
    rw [avmRead_edge, h, Bool.or_false]
  unfold onBus
  rw [hon]
  cases hst : s.ctl.stalled (s.ctlIn i)
  · rw [accepts_eq hst] at hlen
    simpa using hlen
  · rw [not_accepts_of_stalled hst] at hlen
    rw [avmRead_of_stalled hst]
    simpa using hlen

end ReadPath

/-! ### A run with the read side left open -/

/-- One cycle of `clk_50m_sys` with what the read side does to the FIFO in it: take a word, clear
the FIFO before the edge, or hold the clear over the edge. -/
structure PathCycle extends PathIn where
  pop : Bool
  clear : Bool
  aclr : Bool

namespace ReadPath

/-- The FIFO at the edge: what the read side left of it. -/
def atEdge (s : ReadPath) (c : PathCycle) : ReadPath :=
  { s with fifo := if c.clear || c.aclr then [] else if c.pop then s.fifo.tail else s.fifo }

def cycle (s : ReadPath) (c : PathCycle) : ReadPath := (s.atEdge c).edge c.toPathIn c.aclr

lemma fifo_atEdge_le (s : ReadPath) (c : PathCycle) :
    (s.atEdge c).fifo.length ≤ s.fifo.length := by
  unfold atEdge
  split_ifs <;> simp

end ReadPath

/-- The read path after `n` cycles from reset. -/
def pathAt (inp : ℕ → PathCycle) : ℕ → ReadPath := run ReadPath.cycle .reset inp

/-! ### The FIFO does not overflow -/

/-- The bound of everything under way, and of the FIFO while reading is switched on. -/
structure Bounded (L : ℕ) (s : ReadPath) : Prop where
  total : s.fifo.length + s.bus.length + s.onBus ≤ 1541 + L
  reading : s.ctl.readingFlag = true → s.fifo.length ≤ 1539

lemma bounded_reset (L : ℕ) : Bounded L .reset := ⟨Nat.zero_le _, fun _ => Nat.zero_le _⟩

/-- Words taken from the FIFO do not hurt the bound. -/
lemma Bounded.of_fifo_le {L : ℕ} {s s' : ReadPath} (h : Bounded L s) (hctl : s'.ctl = s.ctl)
    (hbus : s'.bus = s.bus) (hfifo : s'.fifo.length ≤ s.fifo.length) : Bounded L s' := by
  have htot := h.total
  constructor
  · have hon : s'.onBus = s.onBus := by rw [ReadPath.onBus, hctl, ReadPath.onBus]
    rw [hbus, hon]
    omega
  · intro hf
    rw [hctl] at hf
    exact hfifo.trans (h.reading hf)

/-- The flag is up after an edge only if the FIFO reported 1536 words or less. -/
lemma le_of_readingFlag {s : SdramReadController} {i : CtlIn}
    (h : (s.edge i).readingFlag = true) : i.fifoWrusedw.toNat ≤ 1536 := by
  rw [readingFlag_edge] at h
  have h512 : (512 : BitVec 11).toNat = 512 := rfl
  have h1536 : (1536 : BitVec 11).toNat = 1536 := rfl
  simp only [BitVec.lt_def, gt_iff_lt, h512, h1536] at h
  split_ifs at h <;> omega

/-- **One cycle keeps the bound.** The count of what is under way grows only when a command is
placed, which needs the flag; the flag was computed one cycle earlier, at most one word ago. -/
theorem Bounded.cycle {L : ℕ} {s : ReadPath} (h : Bounded L s) (c : PathCycle)
    (hbus : (s.cycle c).bus.length ≤ L)
    (hused : (s.atEdge c).fifo.length ≤ c.fifoWrusedw.toNat + 2) : Bounded L (s.cycle c) := by
  have hle := s.fifo_atEdge_le c
  have hword := (s.atEdge c).fifo_edge_le c.toPathIn c.aclr
  change (s.cycle c).fifo.length ≤ _ at hword
  constructor
  · by_cases hi : (s.atEdge c).ctl.issues ((s.atEdge c).ctlIn c.toPathIn) = true
    · have hf := h.reading (issues_iff.1 hi).reading
      have hon : (s.cycle c).onBus ≤ 1 := by unfold ReadPath.onBus; split_ifs <;> omega
      omega
    · have htot := (s.atEdge c).total_edge_le c.toPathIn c.aclr (Bool.eq_false_iff.2 hi)
      have h0 := h.total
      change (s.cycle c).fifo.length + (s.cycle c).bus.length + (s.cycle c).onBus ≤
        _ + s.bus.length + s.onBus at htot
      omega
  · intro hf
    have hw := le_of_readingFlag (show ((s.atEdge c).ctl.edge _).readingFlag = true from hf)
    change c.fifoWrusedw.toNat ≤ 1536 at hw
    omega

/-- What the absence of overflow means in one cycle. -/
structure NoOverflow (L : ℕ) (s : ReadPath) (c : PathCycle) : Prop where
  total : s.fifo.length + s.bus.length + s.onBus ≤ 1541 + L
  room : s.fifo.length < 2048
  /-- A word that is answered finds room, and is written unless the FIFO is in clear. -/
  written : ∀ d, (s.atEdge c).answered c.toPathIn = some d → (s.atEdge c).fifo.length < 2048 ∧
    (c.aclr = false → (s.cycle c).fifo = (s.atEdge c).fifo ++ [d])
  /-- Eleven bits hold the number of words. -/
  noWrap : (BitVec.ofNat 11 s.fifo.length).toNat = s.fifo.length

/-- **The FIFO never overflows**, as long as at most 500 reads are unanswered and the reported
number of words lags by at most two. -/
theorem noOverflow {L : ℕ} (hL : L ≤ 500) {inp : ℕ → PathCycle}
    (hbus : ∀ n, (pathAt inp n).bus.length ≤ L)
    (hused : ∀ n, ((pathAt inp n).atEdge (inp n)).fifo.length ≤ (inp n).fifoWrusedw.toNat + 2)
    (n : ℕ) : NoOverflow L (pathAt inp n) (inp n) := by
  have hb : Bounded L (pathAt inp n) :=
    run_invariant (P := fun _ => Bounded L) (bounded_reset L)
      (fun m hm => hm.cycle (inp m) (hbus (m + 1)) (hused m)) n
  have htot := hb.total
  have hle := (pathAt inp n).fifo_atEdge_le (inp n)
  refine ⟨htot, by omega, ?_, ?_⟩
  · intro d hd
    refine ⟨by omega, ?_⟩
    intro hclr
    change fifoWrite (inp n).aclr _ _ _ = _
    unfold fifoWrite CtlIn.fifoWrreq CtlIn.fifoWrdata ReadPath.ctlIn
    rw [hd, hclr]
    simp
    omega
  · rw [BitVec.toNat_ofNat, Nat.mod_eq_of_lt (by omega)]

/-- A bus that answers every read in the next cycle, and a read side that takes nothing: from the
sixth cycle on a word comes in every cycle, until reading is switched off. -/
def filling (n : ℕ) : PathCycle where
  pioImgLoaded := true
  vgaFrameDone := false
  avmWaitrequest := false
  answer := some 0
  mem := fun a => a.setWidth 16
  fifoWrusedw := BitVec.ofNat 11 (min (n - 5) 1540)
  pop := false
  clear := false
  aclr := false

/-- What is on its way after `n` cycles. The flag drops one cycle after 1537 words, and the command,
the read and the word that it let through follow. -/
structure Filled (n : ℕ) (s : ReadPath) : Prop where
  ready : s.ctl.camDoneSync = 7
  done : s.ctl.vgaDoneSync = 0
  restarted : s.ctl.vgaResetPending = false
  flushed : s.ctl.flushWait = false
  reqCnt : s.ctl.reqCnt.toNat = min (n - 3) 1540
  reading : s.ctl.readingFlag = decide (n ≤ 1542)
  command : s.ctl.avmRead = decide (n ≤ 1543)
  bus : s.bus.length = if n ≤ 1544 then 1 else 0
  fifo : s.fifo.length = min (n - 5) 1540

/-- A word that is under way comes to the FIFO, and a command becomes the next one. -/
lemma lengths_cycle_filling {n : ℕ} {s : ReadPath} (hbus : s.bus.length ≤ 1)
    (hfifo : s.fifo.length < 2048) :
    (s.cycle (filling n)).fifo.length = s.fifo.length + s.bus.length ∧
      (s.cycle (filling n)).bus.length = if s.ctl.avmRead then 1 else 0 := by
  have hacc : s.ctl.accepts (s.ctlIn (filling n).toPathIn) = s.ctl.avmRead := Bool.and_true _
  change (fifoWrite false (s.ctlIn (filling n).toPathIn).fifoWrreq _ s.fifo).length = _ ∧
    (s.bus.eraseIdx 0 ++ if s.ctl.accepts (s.ctlIn (filling n).toPathIn) then _ else []).length = _
  rw [hacc, List.length_append, List.eraseIdx_zero, List.length_tail, Nat.sub_eq_zero_of_le hbus]
  constructor
  · cases hb : s.bus with
    | nil =>
      have hwr : (s.ctlIn (filling n).toPathIn).fifoWrreq = false := by
        change (Option.map _ s.bus[0]?).isSome = false
        rw [hb]
        rfl
      rw [hwr]
      rfl
    | cons a l =>
      have hwr : (s.ctlIn (filling n).toPathIn).fifoWrreq = true := by
        change (Option.map _ s.bus[0]?).isSome = true
        rw [hb]
        rfl
      rw [hb, List.length_cons] at hbus
      obtain rfl : l = [] := List.length_eq_zero_iff.1 (by omega)
      rw [hwr, fifoWrite, decide_eq_true hfifo]
      exact List.length_append
  · cases s.ctl.avmRead <;> rfl

lemma Filled.cycle {n : ℕ} {s : ReadPath} (h : Filled n s) (hn : 5 ≤ n) :
    Filled (n + 1) (s.cycle (filling n)) := by
  have hpulse : s.ctl.vgaDonePulse = false := by
    rw [vgaDonePulse, h.done]
    rfl
  have hst : s.ctl.stalled (s.ctlIn (filling n).toPathIn) = false := Bool.and_false _
  have hres : s.ctl.restarts (s.ctlIn (filling n).toPathIn) = false := by
    rw [restarts, h.restarted, Bool.and_false]
  have hiss : s.ctl.issues (s.ctlIn (filling n).toPathIn) = decide (n ≤ 1542) := by
    have hneed : s.ctl.needToRead = true := by
      have hcnt := h.reqCnt
      rw [needToRead, decide_eq_true_eq, BitVec.lt_def, hcnt]
      exact (min_le_right _ _).trans_lt (by decide)
    rw [issues, hst, safeToRead, h.reading, frameReady, h.ready, h.flushed, h.restarted, hneed]
    simp
  have hused : (BitVec.ofNat 11 (min (n - 5) 1540)).toNat = min (n - 5) 1540 := by
    rw [BitVec.toNat_ofNat]
    omega
  have hbus : s.bus.length ≤ 1 := by
    rw [h.bus]
    split_ifs <;> omega
  obtain ⟨hfifo', hbus'⟩ := lengths_cycle_filling (n := n) hbus (by rw [h.fifo]; omega)
  refine ⟨?_, ?_, ?_, ?_, ?_, ?_, ?_, ?_, ?_⟩
  · change (s.ctl.edge (s.ctlIn (filling n).toPathIn)).camDoneSync = 7
    rw [camDoneSync_edge, h.ready]
    exact (by decide : (7 : BitVec 3).shiftConcat true = 7)
  · change (s.ctl.edge (s.ctlIn (filling n).toPathIn)).vgaDoneSync = 0
    rw [vgaDoneSync_edge, h.done]
    exact (by decide : (0 : BitVec 3).shiftConcat false = 0)
  · change (s.ctl.edge (s.ctlIn (filling n).toPathIn)).vgaResetPending = false
    rw [vgaResetPending_edge, hres, hpulse, h.restarted]
    rfl
  · change (s.ctl.edge (s.ctlIn (filling n).toPathIn)).flushWait = false
    rw [flushWait_edge, h.flushed, hpulse]
    rfl
  · change (s.ctl.edge (s.ctlIn (filling n).toPathIn)).reqCnt.toNat = _
    have hcnt := h.reqCnt
    by_cases hle : n ≤ 1542
    · rw [toNat_reqCnt_of_issues (by rw [hiss, decide_eq_true hle])]
      omega
    · rw [reqCnt_of_not_issues hres (by rw [hiss, decide_eq_false hle])]
      omega
  · change (s.ctl.edge (s.ctlIn (filling n).toPathIn)).readingFlag = _
    have h512 : (512 : BitVec 11).toNat = 512 := rfl
    have h1536 : (1536 : BitVec 11).toNat = 1536 := rfl
    rw [readingFlag_edge, h.reading]
    change (if BitVec.ofNat 11 _ < 512 then true else if BitVec.ofNat 11 _ > 1536 then false else _)
      = _
    simp only [BitVec.lt_def, gt_iff_lt, hused, h512, h1536]
    split_ifs
    · exact (decide_eq_true (by omega)).symm
    · exact (decide_eq_false (by omega)).symm
    · rw [decide_eq_decide]
      omega
  · change (s.ctl.edge (s.ctlIn (filling n).toPathIn)).avmRead = _
    rw [avmRead_edge, hst, hiss, Bool.false_or, decide_eq_decide]
    omega
  · rw [hbus', h.command]
    simp only [decide_eq_true_eq]
    split_ifs <;> omega
  · rw [hfifo', h.fifo, h.bus]
    split_ifs <;> omega

lemma filled_filling {n : ℕ} (hn : 5 ≤ n) : Filled n (pathAt filling n) := by
  induction n, hn using Nat.le_induction with
  | base =>
    constructor <;> decide
  | succ n hn ih => exact ih.cycle hn

lemma length_filling (n : ℕ) : (pathAt filling n).bus.length ≤ 1 ∧
    (pathAt filling n).fifo.length = min (n - 5) 1540 := by
  rcases Nat.lt_or_ge n 5 with hn | hn
  · revert n
    decide
  · refine ⟨?_, (filled_filling hn).fifo⟩
    rw [(filled_filling hn).bus]
    split_ifs <;> omega

theorem noOverflow_filling : (pathAt filling 2000).fifo.length = 1540 ∧
    NoOverflow 1 (pathAt filling 2000) (filling 2000) := by
  refine ⟨(length_filling 2000).2, noOverflow (by omega) (fun n => (length_filling n).1) ?_ 2000⟩
  intro n
  refine (ReadPath.fifo_atEdge_le _ _).trans ?_
  rw [(length_filling n).2]
  change _ ≤ (BitVec.ofNat 11 _).toNat + 2
  rw [BitVec.toNat_ofNat]
  omega

end VideoPipeline.Read

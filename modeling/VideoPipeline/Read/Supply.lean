import VideoPipeline.Read.Words

/-!
The number of words under way. An edge that loses no word, because the FIFO has room or because
nothing is answered while it is in clear, changes the number by the command it places and by
nothing else.
-/

namespace VideoPipeline.Read

open SdramReadController

namespace ReadPath

variable {s : ReadPath} {i : PathIn}

/-- The words in the FIFO, the unanswered reads and the command on the bus. -/
def underWay (s : ReadPath) : ℕ := s.fifo.length + s.bus.length + s.onBus

lemma length_words_eq (mem : BitVec 25 → BitVec 16) : (s.words mem).length = s.underWay :=
  length_words

lemma length_issuedWord (mem : BitVec 25 → BitVec 16) :
    (s.issuedWord mem i).length = if s.ctl.issues (s.ctlIn i) then 1 else 0 := by
  unfold issuedWord
  split_ifs <;> rfl

/-- What is on the bus side changes by the answer and by the command placed. -/
lemma length_bus_edge (aclr : Bool) : (s.edge i aclr).bus.length + (s.edge i aclr).onBus =
    (s.unanswered i).length + s.onBus + if s.ctl.issues (s.ctlIn i) then 1 else 0 := by
  have hrd : (s.edge i aclr).ctl.avmRead = (s.ctl.stalled (s.ctlIn i) || s.ctl.issues (s.ctlIn i)) :=
    avmRead_edge _ _
  have hbus : (s.edge i aclr).bus.length =
      (s.unanswered i).length + if s.ctl.accepts (s.ctlIn i) then 1 else 0 := by
    unfold edge
    cases s.ctl.accepts (s.ctlIn i) <;> simp
  rw [hbus, onBus, onBus, hrd]
  by_cases hst : s.ctl.stalled (s.ctlIn i) = true
  · rw [hst, not_accepts_of_stalled hst, not_issues_of_stalled hst, avmRead_of_stalled hst]
    simp
  · rw [Bool.eq_false_iff.2 hst, accepts_eq (Bool.eq_false_iff.2 hst), Bool.false_or]

/-- **An edge outside the clear**, if there is room. -/
theorem underWay_edge (hr : s.HasRoom i) : (s.edge i false).underWay =
    s.underWay + if s.ctl.issues (s.ctlIn i) then 1 else 0 := by
  have hbus := length_bus_edge (s := s) (i := i) false
  have hun := s.length_unanswered i
  have hfifo : (s.edge i false).fifo.length = s.fifo.length + (s.answered i).toList.length := by
    change (fifoWrite false (s.ctlIn i).fifoWrreq (s.ctlIn i).fifoWrdata s.fifo).length = _
    unfold fifoWrite CtlIn.fifoWrreq CtlIn.fifoWrdata ctlIn
    unfold HasRoom at hr
    cases ha : s.answered i with
    | none => simp
    | some d =>
      have hlt : s.fifo.length < 2048 := hr (by simp [ha])
      simp [hlt]
  rw [underWay, underWay, hfifo]
  omega

/-- **An edge in the clear**, if nothing is answered. -/
theorem underWay_edge_clear (hf : s.fifo = []) (ha : s.answered i = none) :
    (s.edge i true).underWay = s.underWay + if s.ctl.issues (s.ctlIn i) then 1 else 0 := by
  have hbus := length_bus_edge (s := s) (i := i) true
  have hun := s.length_unanswered i
  have hfifo : (s.edge i true).fifo = [] := rfl
  rw [ha] at hun
  rw [underWay, underWay, hfifo, hf]
  simp only [Option.toList_none, List.length_nil] at hun ⊢
  omega

end ReadPath

end VideoPipeline.Read

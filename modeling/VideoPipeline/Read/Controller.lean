import VideoPipeline.Lib.Machine

/-!
`sdram_read_controller.v`: the Avalon master that reads the picture into the FIFO. Its registers,
what one clock edge does to each of them, and what the edge can do to the command on the bus:
hold it, drop it and restart the count, place the next one, or leave the bus idle.
-/

namespace VideoPipeline.Read

open VideoPipeline.Lib

/-- `BUFFER_A_BASE`, a word address. -/
def bufferABase : BitVec 25 := 0x1000000

/-- `MAX_PIXELS`, the words of a 640x480 picture. -/
def maxPixels : BitVec 19 := 307200

/-- The registers of `sdram_read_controller`. -/
structure SdramReadController where
  camDoneSync : BitVec 3
  vgaDoneSync : BitVec 3
  readingFlag : Bool
  reqCnt : BitVec 19
  vgaResetPending : Bool
  flushWait : Bool
  avmRead : Bool
  avmAddress : BitVec 25
deriving DecidableEq, Repr

/-- What `sdram_read_controller` reads in one cycle. -/
structure CtlIn where
  camFrameDone : Bool
  vgaFrameDone : Bool
  avmWaitrequest : Bool
  avmReaddata : BitVec 16
  avmReaddatavalid : Bool
  fifoWrusedw : BitVec 11
deriving DecidableEq, Repr

/-- The data answered by the bus go straight to the write port of the FIFO. -/
def CtlIn.fifoWrreq (i : CtlIn) : Bool := i.avmReaddatavalid

def CtlIn.fifoWrdata (i : CtlIn) : BitVec 16 := i.avmReaddata

/-- `fifo_is_empty`: the FIFO is taken for flushed when it reports no words. -/
def CtlIn.fifoIsEmpty (i : CtlIn) : Bool := decide (i.fifoWrusedw = 0)

namespace SdramReadController

/-- What `rst_n = 0` sets. -/
def reset : SdramReadController where
  camDoneSync := 0
  vgaDoneSync := 0
  readingFlag := false
  reqCnt := 0
  vgaResetPending := false
  flushWait := false
  avmRead := false
  avmAddress := 0

variable (s : SdramReadController) (i : CtlIn)

def vgaDonePulse : Bool := !s.vgaDoneSync.getLsbD 2 && s.vgaDoneSync.getLsbD 1

def frameReady : Bool := s.camDoneSync.getLsbD 2

def safeToRead : Bool := s.readingFlag && s.frameReady && !s.flushWait && !s.vgaResetPending

def needToRead : Bool := decide (s.reqCnt < maxPixels)

/-- One rising edge of `clk`. Of two assignments to one register the later one wins. -/
def edge : SdramReadController :=
  let readingFlag :=
    if i.fifoWrusedw < 512 then true
    else if i.fifoWrusedw > 1536 then false
    else s.readingFlag
  let pending := if s.vgaDonePulse then true else s.vgaResetPending
  let flush := if s.vgaDonePulse then true else s.flushWait
  let s' : SdramReadController :=
    { s with
      camDoneSync := s.camDoneSync.shiftConcat i.camFrameDone
      vgaDoneSync := s.vgaDoneSync.shiftConcat i.vgaFrameDone
      readingFlag := readingFlag
      vgaResetPending := pending
      flushWait := if s.flushWait && i.fifoIsEmpty then false else flush }
  if s.avmRead && i.avmWaitrequest then s'
  else if s.vgaResetPending then { s' with reqCnt := 0, avmRead := false, vgaResetPending := false }
  else if s.safeToRead && s.needToRead then
    { s' with
      avmRead := true
      avmAddress := bufferABase + ((0 : BitVec 6) ++ s.reqCnt)
      reqCnt := s.reqCnt + 1 }
  else { s' with avmRead := false }

/-! ### What an edge does to the command on the bus -/

/-- The command waits and is held. -/
def stalled : Bool := s.avmRead && i.avmWaitrequest

/-- The command on the bus is taken. -/
def accepts : Bool := s.avmRead && !i.avmWaitrequest

/-- The branch that clears the count is executed. -/
def restarts : Bool := !s.stalled i && s.vgaResetPending

/-- A new command is placed on the bus. -/
def issues : Bool := !s.stalled i && s.safeToRead && s.needToRead

section Cases

variable {s i}

lemma avmRead_of_stalled (h : s.stalled i = true) : s.avmRead = true :=
  (Bool.and_eq_true_iff.1 h).1

lemma avmRead_of_accepts (h : s.accepts i = true) : s.avmRead = true :=
  (Bool.and_eq_true_iff.1 h).1

lemma not_stalled_of_accepts (h : s.accepts i = true) : s.stalled i = false := by
  unfold accepts at h
  unfold stalled
  cases hw : i.avmWaitrequest <;> simp_all

lemma not_stalled_of_restarts (h : s.restarts i = true) : s.stalled i = false := by
  unfold restarts at h
  cases hs : s.stalled i <;> simp_all

lemma pending_of_restarts (h : s.restarts i = true) : s.vgaResetPending = true :=
  (Bool.and_eq_true_iff.1 h).2

/-- A held command is not taken, and nothing else happens on the bus. -/
lemma not_accepts_of_stalled (h : s.stalled i = true) : s.accepts i = false := by
  rw [← Bool.not_eq_true]
  intro ha
  rw [not_stalled_of_accepts ha] at h
  cases h

lemma not_restarts_of_stalled (h : s.stalled i = true) : s.restarts i = false := by
  rw [restarts, h]
  rfl

lemma not_issues_of_stalled (h : s.stalled i = true) : s.issues i = false := by
  rw [issues, h]
  rfl

/-- A command on the bus is either held or taken. -/
lemma accepts_eq (h : s.stalled i = false) : s.accepts i = s.avmRead := by
  unfold stalled at h
  unfold accepts
  cases hr : s.avmRead <;> simp_all

variable (s i) in
/-- What a command on the bus has to wait for. -/
structure MayIssue : Prop where
  idle : s.stalled i = false
  reading : s.readingFlag = true
  ready : s.frameReady = true
  flushed : s.flushWait = false
  restarted : s.vgaResetPending = false
  need : s.reqCnt.toNat < 307200

/-- **A command is placed** in the cycles in which everything it waits for has come. -/
theorem issues_iff : s.issues i = true ↔ s.MayIssue i := by
  have hneed : s.needToRead = true ↔ s.reqCnt.toNat < 307200 := by
    rw [needToRead, decide_eq_true_eq, BitVec.lt_def]
    rfl
  unfold issues safeToRead
  simp only [Bool.and_eq_true, Bool.not_eq_true', hneed]
  constructor
  · rintro ⟨⟨hst, ⟨⟨hrd, hfr⟩, hfl⟩, hp⟩, hn⟩
    exact ⟨hst, hrd, hfr, hfl, hp, hn⟩
  · rintro ⟨hst, hrd, hfr, hfl, hp, hn⟩
    exact ⟨⟨hst, ⟨⟨hrd, hfr⟩, hfl⟩, hp⟩, hn⟩

lemma not_restarts_of_issues (h : s.issues i = true) : s.restarts i = false := by
  rw [restarts, (issues_iff.1 h).restarted, Bool.and_false]

lemma not_issues_of_restarts (h : s.restarts i = true) : s.issues i = false := by
  rw [← Bool.not_eq_true]
  intro hi
  rw [not_restarts_of_issues hi] at h
  cases h

end Cases

/-! ### The registers after an edge -/

/-- **The edge, register by register**, in terms of what it does to the bus. -/
theorem edge_eq : s.edge i =
    { camDoneSync := s.camDoneSync.shiftConcat i.camFrameDone
      vgaDoneSync := s.vgaDoneSync.shiftConcat i.vgaFrameDone
      readingFlag :=
        if i.fifoWrusedw < 512 then true
        else if i.fifoWrusedw > 1536 then false else s.readingFlag
      reqCnt := if s.restarts i then 0 else if s.issues i then s.reqCnt + 1 else s.reqCnt
      vgaResetPending :=
        if s.restarts i then false else (s.vgaDonePulse || s.vgaResetPending)
      flushWait :=
        if s.flushWait && i.fifoIsEmpty then false else (s.vgaDonePulse || s.flushWait)
      avmRead := s.stalled i || s.issues i
      avmAddress :=
        if s.issues i then bufferABase + ((0 : BitVec 6) ++ s.reqCnt) else s.avmAddress } := by
  have hpulse (b : Bool) : (if s.vgaDonePulse then true else b) = (s.vgaDonePulse || b) := by
    cases s.vgaDonePulse <;> rfl
  unfold edge restarts issues stalled
  dsimp only
  rw [hpulse, hpulse]
  cases hst : s.avmRead && i.avmWaitrequest
  · cases hp : s.vgaResetPending
    · cases hs : s.safeToRead && s.needToRead
      · simp only [Bool.false_eq_true, if_false, Bool.and_false, Bool.not_false, Bool.true_and,
          hs, Bool.or_false]
      · simp only [Bool.false_eq_true, if_false, if_true, Bool.and_false, Bool.not_false,
          Bool.true_and, hs, Bool.or_true]
    · have hs : s.safeToRead = false := by simp [safeToRead, hp]
      simp only [Bool.false_eq_true, if_false, if_true, Bool.and_true, Bool.not_false, hs,
        Bool.and_false, Bool.false_and, Bool.or_false]
  · have hrd : s.avmRead = true := (Bool.and_eq_true_iff.1 hst).1
    simp only [Bool.false_eq_true, if_false, if_true, Bool.not_true, Bool.false_and,
      Bool.or_false, hrd]

lemma camDoneSync_edge : (s.edge i).camDoneSync = s.camDoneSync.shiftConcat i.camFrameDone := by
  rw [edge_eq]

@[simp] lemma vgaDoneSync_edge :
    (s.edge i).vgaDoneSync = s.vgaDoneSync.shiftConcat i.vgaFrameDone := by rw [edge_eq]

lemma readingFlag_edge : (s.edge i).readingFlag =
    if i.fifoWrusedw < 512 then true
    else if i.fifoWrusedw > 1536 then false else s.readingFlag := by rw [edge_eq]

lemma flushWait_edge : (s.edge i).flushWait =
    if s.flushWait && i.fifoIsEmpty then false else (s.vgaDonePulse || s.flushWait) := by
  rw [edge_eq]

lemma vgaResetPending_edge : (s.edge i).vgaResetPending =
    if s.restarts i then false else (s.vgaDonePulse || s.vgaResetPending) := by rw [edge_eq]

lemma reqCnt_edge : (s.edge i).reqCnt =
    if s.restarts i then 0 else if s.issues i then s.reqCnt + 1 else s.reqCnt := by rw [edge_eq]

lemma reqCnt_of_restarts {s : SdramReadController} {i : CtlIn} (h : s.restarts i = true) :
    (s.edge i).reqCnt = 0 := by
  rw [reqCnt_edge, if_pos h]

/-- The count does not overflow: it is increased below `MAX_PIXELS` only. -/
lemma toNat_reqCnt_of_issues {s : SdramReadController} {i : CtlIn} (h : s.issues i = true) :
    (s.edge i).reqCnt.toNat = s.reqCnt.toNat + 1 := by
  have hlt := (issues_iff.1 h).need
  have h1 : (1 : BitVec 19).toNat = 1 := rfl
  rw [reqCnt_edge, not_restarts_of_issues h, if_neg Bool.false_ne_true, if_pos h,
    BitVec.toNat_add_of_lt (by omega), h1]

lemma reqCnt_of_not_issues {s : SdramReadController} {i : CtlIn} (hr : s.restarts i = false)
    (hi : s.issues i = false) : (s.edge i).reqCnt = s.reqCnt := by
  rw [reqCnt_edge, hr, hi]
  rfl

lemma avmRead_edge : (s.edge i).avmRead = (s.stalled i || s.issues i) := by rw [edge_eq]

lemma avmAddress_edge : (s.edge i).avmAddress =
    if s.issues i then bufferABase + ((0 : BitVec 6) ++ s.reqCnt) else s.avmAddress := by
  rw [edge_eq]

end SdramReadController

/-- The controller `n` edges after reset. -/
def ctlAt (inp : ℕ → CtlIn) : ℕ → SdramReadController := run (fun s i => s.edge i) .reset inp

lemma ctlAt_succ (inp : ℕ → CtlIn) (n : ℕ) : ctlAt inp (n + 1) = (ctlAt inp n).edge (inp n) := rfl

end VideoPipeline.Read

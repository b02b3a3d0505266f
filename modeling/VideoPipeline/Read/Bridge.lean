import VideoPipeline.Format.Convert
import VideoPipeline.Read.Words

/-!
The bridge of the read port (`altera_avalon_mm_bridge.v`, instance `mm_bridge_read`, with its
command and response pipelines). It shows its wait request one cycle late and keeps the command
that comes in this cycle in a second register: a queue of two commands. Seen from the controller
a bus behind the bridge is a bus as before, with at most three more reads unanswered.
-/

namespace VideoPipeline.Read

open VideoPipeline.Lib VideoPipeline.Format SdramReadController

/-! ### The bridge -/

/-- The command signals of an Avalon port. -/
structure AvmCommand where
  read : Bool
  write : Bool
  address : BitVec 26
  writedata : BitVec 16
  byteenable : BitVec 2
  burstcount : BitVec 1
  debugaccess : Bool
deriving DecidableEq, Repr

/-- What reset leaves in the command registers. -/
def AvmCommand.none : AvmCommand where
  read := false
  write := false
  address := 0
  writedata := 0
  byteenable := 0b11
  burstcount := 1
  debugaccess := false

/-- The registers of the bridge. -/
structure MmBridge where
  cmd : AvmCommand
  wrReg : AvmCommand
  wrRegWaitrequest : Bool
  useReg : Bool
  rspReaddata : BitVec 16
  rspReaddatavalid : Bool
deriving DecidableEq, Repr

/-- What the bridge reads in one cycle: the command at `s0` and what comes back at `m0`. -/
structure BridgeIn where
  s0 : AvmCommand
  m0Waitrequest : Bool
  m0Readdata : BitVec 16
  m0Readdatavalid : Bool
deriving DecidableEq, Repr

/-- There is a command: `~no_command`. -/
def AvmCommand.active (c : AvmCommand) : Bool := c.read || c.write

namespace MmBridge

/-- What `reset` sets. -/
def reset : MmBridge := ⟨.none, .none, true, true, 0, false⟩

variable (b : MmBridge) (i : BridgeIn)

def s0Waitrequest : Bool := b.wrRegWaitrequest

def cmdWaitrequest : Bool := i.m0Waitrequest && b.cmd.active

def waitRise : Bool := !b.wrRegWaitrequest && b.cmdWaitrequest i

/-- The command given to the second stage. -/
def wr : AvmCommand := if b.useReg then b.wrReg else i.s0

/-- One rising edge of `clk`. -/
def edge : MmBridge where
  cmd := if !b.cmdWaitrequest i then b.wr i else b.cmd
  wrReg := if b.waitRise i then i.s0 else b.wrReg
  wrRegWaitrequest := b.cmdWaitrequest i
  useReg := if !b.cmdWaitrequest i then false else if b.waitRise i then true else b.useReg
  rspReaddata := i.m0Readdata
  rspReaddatavalid := i.m0Readdatavalid

/-! ### A queue of two commands -/

/-- A command enters at `s0`. -/
def takes : Bool := i.s0.active && !b.s0Waitrequest

/-- A command leaves at `m0`. -/
def delivers : Bool := b.cmd.active && !i.m0Waitrequest

/-- The commands in the bridge, oldest first. -/
def held : List AvmCommand :=
  [b.cmd].filter AvmCommand.active ++ if b.useReg then [b.wrReg].filter AvmCommand.active else []

/-- The second register is in use exactly while the wait request is shown. -/
def InStep : Prop := b.useReg = b.wrRegWaitrequest

variable {b i}

lemma InStep.edge (h : b.InStep) : (b.edge i).InStep := by
  unfold InStep at h ⊢
  unfold MmBridge.edge waitRise
  cases hc : b.cmdWaitrequest i <;> cases hw : b.wrRegWaitrequest <;> simp [h, hw]

/-- **The bridge is a queue**: commands leave in the order in which they came, each once. -/
theorem held_edge (h : b.InStep) : (b.edge i).held =
    b.held.drop (if b.delivers i then 1 else 0) ++ if b.takes i then [i.s0] else [] := by
  unfold InStep at h
  unfold held MmBridge.edge takes delivers s0Waitrequest wr waitRise cmdWaitrequest
  rw [h]
  cases hw : b.wrRegWaitrequest <;> cases hm : i.m0Waitrequest <;>
    cases hc : b.cmd.active <;> cases hs : i.s0.active <;> simp [hc, hs]

lemma length_held_le (b : MmBridge) : b.held.length ≤ 2 := by
  unfold held
  cases b.useReg <;> cases hc : b.cmd.active <;> cases hr : b.wrReg.active <;> simp [hc, hr]

/-- What leaves is the oldest command. -/
lemma take_held : b.held.take (if b.delivers i then 1 else 0) =
    if b.delivers i then [b.cmd] else [] := by
  unfold held delivers
  cases hc : b.cmd.active <;> cases i.m0Waitrequest <;> simp [hc]

end MmBridge

/-! ### The read path with the bridge -/

/-- The command that `doan_top` gives to the bridge. -/
def bridgeCommand (s : SdramReadController) : AvmCommand where
  read := s.avmRead
  write := false
  address := byteAddress s.avmAddress
  writedata := 0
  byteenable := 0b11
  burstcount := 1
  debugaccess := false

/-- The controller, the bridge, the reads taken behind the bridge and not answered, and the
FIFO. -/
structure BridgedPath where
  ctl : SdramReadController
  bridge : MmBridge
  far : List (BitVec 26)
  fifo : List (BitVec 16)
deriving DecidableEq, Repr

/-- One cycle of `clk_50m_sys`: what comes in from outside, the bus behind the bridge, which
answers the oldest read or none, and what the read side does to the FIFO. -/
structure FarCycle where
  pioImgLoaded : Bool
  vgaFrameDone : Bool
  m0Waitrequest : Bool
  answer : Bool
  /-- `m0_readdata` when nothing is answered -/
  idleData : BitVec 16
  fifoWrusedw : BitVec 11
  pop : Bool
  clear : Bool
  aclr : Bool
deriving DecidableEq, Repr

namespace BridgedPath

def reset : BridgedPath := ⟨.reset, .reset, [], []⟩

variable (mem : BitVec 26 → BitVec 16) (s : BridgedPath) (c : FarCycle)

/-- The read answered behind the bridge in this cycle. -/
def answering : List (BitVec 26) := s.far.take (if c.answer then 1 else 0)

def bridgeIn : BridgeIn where
  s0 := bridgeCommand s.ctl
  m0Waitrequest := c.m0Waitrequest
  m0Readdata := ((s.answering c).map mem).headD c.idleData
  m0Readdatavalid := !(s.answering c).isEmpty

def ctlIn : CtlIn where
  camFrameDone := c.pioImgLoaded
  vgaFrameDone := c.vgaFrameDone
  avmWaitrequest := s.bridge.s0Waitrequest
  avmReaddata := s.bridge.rspReaddata
  avmReaddatavalid := s.bridge.rspReaddatavalid
  fifoWrusedw := c.fifoWrusedw

/-- The FIFO at the edge: what the read side left of it. -/
def fifoAtEdge : List (BitVec 16) :=
  if c.clear || c.aclr then [] else if c.pop then s.fifo.tail else s.fifo

/-- One cycle of `clk_50m_sys`. -/
def cycle : BridgedPath where
  ctl := s.ctl.edge (s.ctlIn c)
  bridge := s.bridge.edge (s.bridgeIn mem c)
  far := s.far.drop (if c.answer then 1 else 0) ++
    if s.bridge.delivers (s.bridgeIn mem c) then [s.bridge.cmd.address] else []
  fifo := fifoWrite c.aclr (s.ctlIn c).fifoWrreq (s.ctlIn c).fifoWrdata (s.fifoAtEdge c)

end BridgedPath

/-- The read path with the bridge after `n` cycles from reset. -/
def bridgedAt (mem : BitVec 26 → BitVec 16) (inp : ℕ → FarCycle) : ℕ → BridgedPath :=
  run (fun s c => s.cycle mem c) .reset inp

/-! ### The bus that the controller sees -/

section Refinement

variable {mem : BitVec 26 → BitVec 16} {s : BridgedPath} {c : FarCycle} {p : ReadPath}

variable (mem s c) in
/-- One cycle as the controller sees it, with the bridge as a part of the bus. -/
def seen : PathCycle where
  pioImgLoaded := c.pioImgLoaded
  vgaFrameDone := c.vgaFrameDone
  avmWaitrequest := s.bridge.s0Waitrequest
  answer := if s.bridge.rspReaddatavalid then some 0 else none
  mem := fun a => mem (byteAddress a)
  fifoWrusedw := c.fifoWrusedw
  pop := c.pop
  clear := c.clear
  aclr := c.aclr

lemma inOrder_seen : (seen mem s c).InOrder fun a => mem (byteAddress a) := by
  refine ⟨?_, rfl⟩
  change (if s.bridge.rspReaddatavalid then some 0 else none) = none ∨
    (if s.bridge.rspReaddatavalid then some 0 else none) = some 0
  split_ifs
  · exact Or.inr rfl
  · exact Or.inl rfl

/-- The read path with the bridge looks like the read path `p`, whose bus is the answer in the
response register, the reads behind the bridge and the commands in it. -/
structure LooksLike (mem : BitVec 26 → BitVec 16) (s : BridgedPath) (p : ReadPath) : Prop where
  ctl : s.ctl = p.ctl
  fifo : s.fifo = p.fifo
  inStep : s.bridge.InStep
  bus : ∃ l, p.bus.map byteAddress = l ++ s.far ++ s.bridge.held.map AvmCommand.address ∧
    l.map mem = if s.bridge.rspReaddatavalid then [s.bridge.rspReaddata] else []

lemma takes_bridgeCommand : s.bridge.takes (s.bridgeIn mem c) = s.ctl.accepts (s.ctlIn c) := by
  unfold MmBridge.takes accepts AvmCommand.active
  change ((s.ctl.avmRead || false) && !s.bridge.wrRegWaitrequest) = _
  rw [Bool.or_false]
  rfl

/-- The data that come with no answer do not matter. -/
lemma edge_of_answered {i j : CtlIn} (h : { i with avmReaddata := 0, avmReaddatavalid := false } =
    { j with avmReaddata := 0, avmReaddatavalid := false }) (t : SdramReadController) :
    t.edge i = t.edge j := by
  change t.edge { i with avmReaddata := 0, avmReaddatavalid := false } = _
  rw [h]
  rfl

/-- What the controller and the FIFO get. -/
lemma LooksLike.answered (h : LooksLike mem s p) :
    (p.atEdge (seen mem s c)).answered (seen mem s c).toPathIn =
      if s.bridge.rspReaddatavalid then some s.bridge.rspReaddata else none := by
  obtain ⟨l, hbus, hl⟩ := h.bus
  unfold ReadPath.answered seen
  cases hv : s.bridge.rspReaddatavalid with
  | false => rfl
  | true =>
    rw [hv, if_pos rfl] at hl
    obtain ⟨a, rfl, ha⟩ := List.map_eq_singleton_iff.1 hl
    obtain ⟨b, bus, hb, hba, -⟩ := List.map_eq_cons_iff.1 hbus
    change ((p.bus[0]?).map fun a => mem (byteAddress a)) = some s.bridge.rspReaddata
    rw [hb, List.getElem?_cons_zero, Option.map_some, hba, ha]

/-- **One cycle** of the path with the bridge is one of the path without it. -/
theorem LooksLike.cycle (h : LooksLike mem s p) :
    LooksLike mem (s.cycle mem c) (p.cycle (seen mem s c)) := by
  have hans := h.answered (c := c)
  refine ⟨?_, ?_, h.inStep.edge, ?_⟩
  · change s.ctl.edge _ = p.ctl.edge _
    rw [h.ctl]
    exact edge_of_answered rfl _
  · change fifoWrite c.aclr s.bridge.rspReaddatavalid s.bridge.rspReaddata (s.fifoAtEdge c) =
      fifoWrite c.aclr _ _ (p.atEdge (seen mem s c)).fifo
    unfold ReadPath.ctlIn CtlIn.fifoWrreq CtlIn.fifoWrdata
    rw [hans, BridgedPath.fifoAtEdge, h.fifo]
    unfold fifoWrite
    cases s.bridge.rspReaddatavalid <;> rfl
  · obtain ⟨l, hbus, hl⟩ := h.bus
    refine ⟨s.answering c, ?_, ?_⟩
    · have hrest : ((p.atEdge (seen mem s c)).unanswered (seen mem s c).toPathIn).map byteAddress =
          s.far ++ s.bridge.held.map AvmCommand.address := by
        unfold ReadPath.unanswered seen
        cases hv : s.bridge.rspReaddatavalid with
        | false =>
          rw [hv, if_neg Bool.false_ne_true, List.map_eq_nil_iff] at hl
          change p.bus.map byteAddress = _
          rw [hbus, hl, List.nil_append]
        | true =>
          rw [hv, if_pos rfl] at hl
          obtain ⟨a, rfl, -⟩ := List.map_eq_singleton_iff.1 hl
          change (p.bus.eraseIdx 0).map byteAddress = _
          rw [List.eraseIdx_zero, List.map_tail, hbus]
          rfl
      have htaken : (if p.ctl.accepts ((p.atEdge (seen mem s c)).ctlIn (seen mem s c).toPathIn) then
            [p.ctl.avmAddress] else []).map byteAddress =
          (if s.bridge.takes (s.bridgeIn mem c) then [bridgeCommand s.ctl] else []).map
            AvmCommand.address := by
        have hsame : p.ctl.accepts ((p.atEdge (seen mem s c)).ctlIn (seen mem s c).toPathIn) =
            s.bridge.takes (s.bridgeIn mem c) := by
          rw [takes_bridgeCommand, h.ctl]
          rfl
        rw [hsame, h.ctl]
        split_ifs <;> rfl
      have hheld : s.bridge.held.map AvmCommand.address =
          (if s.bridge.delivers (s.bridgeIn mem c) then [s.bridge.cmd.address] else []) ++
            (s.bridge.held.drop (if s.bridge.delivers (s.bridgeIn mem c) then 1 else 0)).map
              AvmCommand.address := by
        conv_lhs => rw [← List.take_append_drop
          (if s.bridge.delivers (s.bridgeIn mem c) then 1 else 0) s.bridge.held,
          MmBridge.take_held, List.map_append]
        split_ifs <;> rfl
      change List.map byteAddress (_ ++ if p.ctl.accepts _ then [p.ctl.avmAddress] else []) =
        s.far.take _ ++ (s.far.drop _ ++ _) ++ (s.bridge.edge _).held.map _
      rw [List.map_append, hrest, htaken, MmBridge.held_edge h.inStep, List.map_append, hheld,
        ← List.append_assoc (s.far.take _), List.take_append_drop]
      simp only [List.append_assoc]
      rfl
    · change (s.answering c).map mem = if !(s.answering c).isEmpty then
        [((s.answering c).map mem).headD c.idleData] else []
      unfold BridgedPath.answering
      cases c.answer <;> cases s.far <;> rfl

/-- **The bridge is a part of the bus**: what the controller and the FIFO do behind the bridge
they do in a run of the read path alone, whose bus answers in order out of the same memory and
has at most three reads more unanswered. -/
theorem bridgedAt_eq_pathAt (mem : BitVec 26 → BitVec 16) (inp : ℕ → FarCycle) :
    ∃ path : ℕ → PathCycle,
      (∀ n, (path n).InOrder (fun a => mem (byteAddress a)) ∧ (path n).pop = (inp n).pop ∧
        (path n).clear = (inp n).clear ∧ (path n).aclr = (inp n).aclr ∧
        (path n).fifoWrusedw = (inp n).fifoWrusedw ∧ (path n).pioImgLoaded = (inp n).pioImgLoaded ∧
        (path n).vgaFrameDone = (inp n).vgaFrameDone) ∧
      ∀ n, (bridgedAt mem inp n).ctl = (pathAt path n).ctl ∧
        (bridgedAt mem inp n).fifo = (pathAt path n).fifo ∧
        (pathAt path n).bus.length ≤ (bridgedAt mem inp n).far.length + 3 := by
  refine ⟨fun n => seen mem (bridgedAt mem inp n) (inp n), ?_, ?_⟩
  · exact fun n => ⟨inOrder_seen, rfl, rfl, rfl, rfl, rfl, rfl⟩
  · intro n
    have h : LooksLike mem (bridgedAt mem inp n)
        (pathAt (fun n => seen mem (bridgedAt mem inp n) (inp n)) n) := by
      induction n with
      | zero => exact ⟨rfl, rfl, rfl, [], rfl, rfl⟩
      | succ n ih => exact ih.cycle
    obtain ⟨l, hbus, hl⟩ := h.bus
    refine ⟨h.ctl, h.fifo, ?_⟩
    have hlen := congrArg List.length hbus
    have hheld := (bridgedAt mem inp n).bridge.length_held_le
    have hl1 : l.length ≤ 1 := by
      rw [← List.length_map (f := mem), hl]
      split_ifs <;> simp
    simp only [List.length_map, List.length_append] at hlen
    omega

end Refinement

end VideoPipeline.Read

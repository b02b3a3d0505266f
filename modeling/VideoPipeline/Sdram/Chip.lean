import VideoPipeline.Lib.InOrder
import VideoPipeline.Sdram.Controller

/-!
The memory chip, as the controller takes it to be: four banks with one open row each at most, a
mode register, reads that come out three clocks later, and the rules when a command is allowed
(the times of `system.qsys` in clocks of 20 ns). It is put on the wires of the controller, and
the reads and writes of the two together are given their meaning: a read shows the word of its
address, a write replaces the bytes that are not masked.
-/

namespace VideoPipeline.Sdram

open VideoPipeline.Lib

/-! ### Reads and writes -/

/-- A read or a write of one word. -/
inductive Op
  | read (addr : BitVec 25)
  | write (addr : BitVec 25) (dqm : BitVec 2) (data : BitVec 16)
deriving DecidableEq, Repr

/-- The bytes of `new` that are not masked, and those of `old` that are. -/
def masked (dqm : BitVec 2) (new old : BitVec 16) : BitVec 16 :=
  (if dqm.getLsbD 1 then old else new).extractLsb' 8 8 ++
    (if dqm.getLsbD 0 then old else new).extractLsb' 0 8

/-- What the memory holds after an access. -/
def Op.act (cells : BitVec 25 → BitVec 16) : Op → BitVec 25 → BitVec 16
  | .read _ => cells
  | .write addr dqm data => Function.update cells addr (masked dqm data (cells addr))

/-- What an access shows. -/
def Op.reply (cells : BitVec 25 → BitVec 16) : Op → Option (BitVec 16)
  | .read addr => some (cells addr)
  | .write _ _ _ => none

/-- What a request asks for. -/
def Request.op (q : Request) : Op := if q.rnw then .read q.addr else .write q.addr q.dqm q.data

/-! ### The chip -/

inductive Command
  | loadMode | autoRefresh | precharge | activate | write | read | burstStop | nop
deriving DecidableEq, Repr

def Cmd.command (c : Cmd) : Command :=
  if c.csN then .nop else
    match c.code with
    | 0 => .loadMode
    | 1 => .autoRefresh
    | 2 => .precharge
    | 3 => .activate
    | 4 => .write
    | 5 => .read
    | 6 => .burstStop
    | _ => .nop

/-- What the controller drives: `zs_cs_n` to `zs_we_n`, `zs_ba`, `zs_addr`, `zs_dq`, `zs_dqm`. -/
structure Pins where
  cmd : Cmd
  bank : BitVec 2
  addr : BitVec 13
  data : BitVec 16
  dqm : BitVec 2
deriving DecidableEq, Repr

/-- The address of the word in a column of an open row. -/
def cellOf (bank : BitVec 2) (row : BitVec 13) (col : BitVec 10) : BitVec 25 :=
  BitVec.ofBool (bank.getLsbD 1) ++ row ++ BitVec.ofBool (bank.getLsbD 0) ++ col

structure Chip where
  openRow : BitVec 2 → Option (BitVec 13)
  cells : BitVec 25 → BitVec 16
  mode : Option (BitVec 13)
  /-- the refreshes so far -/
  refreshes : ℕ
  /-- the clocks to come in which no command is allowed -/
  busy : ℕ
  /-- the words of the last three reads on their way to the pins -/
  q0 : Option (BitVec 16)
  q1 : Option (BitVec 16)
  q2 : Option (BitVec 16)

namespace Chip

/-- At power-up nothing is known of the rows, and 100 us have to pass. -/
def powerUp (openRow : BitVec 2 → Option (BitVec 13)) (cells : BitVec 25 → BitVec 16) : Chip :=
  ⟨openRow, cells, none, 0, 5000, none, none, none⟩

variable (c : Chip) (p : Pins)

/-- The access of a command, to the row that is open. -/
def access : List Op :=
  match p.cmd.command, c.openRow p.bank with
  | .read, some row => [.read (cellOf p.bank row (p.addr.extractLsb' 0 10))]
  | .write, some row => [.write (cellOf p.bank row (p.addr.extractLsb' 0 10)) p.dqm p.data]
  | _, _ => []

/-- The rows open after a command. -/
def rows : BitVec 2 → Option (BitVec 13) :=
  match p.cmd.command with
  | .activate => Function.update c.openRow p.bank (some p.addr)
  | .precharge =>
    if p.addr.getLsbD 10 then fun _ => none else Function.update c.openRow p.bank none
  | _ => c.openRow

/-- One clock of the chip. A word is masked by the mask of the clock after its read: all of it, if
one byte is. -/
def edge : Chip where
  openRow := c.rows p
  cells := (c.access p).foldl Op.act c.cells
  mode := if p.cmd.command = .loadMode then some p.addr else c.mode
  refreshes := c.refreshes + if p.cmd.command = .autoRefresh then 1 else 0
  busy :=
    if p.cmd.command = .autoRefresh then 3 else if p.cmd.command = .loadMode then 2
    else c.busy - 1
  q0 := (replies Op.act Op.reply c.cells (c.access p)).head?
  q1 := if p.dqm = 0 then c.q0 else none
  q2 := c.q1

/-- All rows are closed. -/
def Closed : Prop := ∀ b, c.openRow b = none

/-- The row of the request `q` is open, and no other. -/
def Opened (q : Request) : Prop := ∀ b, c.openRow b = if b = q.bank then some q.row else none

/-- The mode register is set to a CAS latency of three and a burst of one word. -/
def Ready : Prop := c.mode = some 0b0000000110000

/-- The command may be given now. -/
def Allows : Prop :=
  match p.cmd.command with
  | .nop => True
  | .loadMode => c.busy = 0 ∧ c.Closed ∧ 2 ≤ c.refreshes
  | .autoRefresh => c.busy = 0 ∧ c.Closed
  | .precharge => c.busy = 0
  | .activate => c.busy = 0 ∧ c.Ready ∧ c.openRow p.bank = none
  | .write | .read =>
    c.busy = 0 ∧ c.Ready ∧ c.openRow p.bank ≠ none ∧ p.addr.getLsbD 10 = false
  | .burstStop => False

end Chip

/-! ### The controller with its chip -/

structure Board where
  ctl : SdramController
  chip : Chip

/-- The output registers. -/
def MainFsm.pins (s : MainFsm) : Pins := ⟨s.cmd, s.bank, s.addr, s.data, s.dqm⟩

namespace Board

variable (s : Board) (i : SlaveIn) (float : BitVec 16)

/-- `zs_dq`, which shows `float` when neither side drives it. -/
def zsDq : BitVec 16 := if s.ctl.main.oe then s.ctl.main.data else s.chip.q2.getD float

/-- The chip to which the command on the wires has come. -/
def served : Chip := s.chip.edge s.ctl.main.pins

/-- One rising edge of `clk`. -/
def edge : Board := ⟨s.ctl.edge i (s.zsDq float), s.served⟩

end Board

/-- What comes in during one cycle, with what the data pins show when nothing drives them. -/
structure BoardIn where
  slave : SlaveIn
  float : BitVec 16
deriving DecidableEq, Repr

/-- The board after `n` clocks from reset. -/
def boardAt (p : PowerUp) (openRow : BitVec 2 → Option (BitVec 13)) (cells : BitVec 25 → BitVec 16)
    (inp : ℕ → BoardIn) : ℕ → Board :=
  run (fun s i => s.edge i.slave i.float) ⟨.reset p, .powerUp openRow cells⟩ inp

/-! ### The cells of a request -/

lemma cellOf_request (q : Request) : cellOf q.bank q.row q.col = q.addr := by
  unfold cellOf Request.bank Request.row Request.col
  grind

end VideoPipeline.Sdram

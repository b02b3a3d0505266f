import VideoPipeline.Lib.Machine

/-!
The SDRAM controller behind the bus (`system_new_sdram_controller_0.v`): its input FIFO of two
requests, the refresh counter, the state machine of the power-up sequence and the main one, which
opens a row, serves requests from it while they match, and closes all rows for another row or for
a refresh.
-/

namespace VideoPipeline.Sdram

open VideoPipeline.Lib

/-! ### Requests -/

/-- One entry of the input FIFO: `{az_wr_n, az_addr, dqm, az_data}`. -/
structure Request where
  rnw : Bool
  addr : BitVec 25
  dqm : BitVec 2
  data : BitVec 16
deriving DecidableEq, Repr

namespace Request

variable (q : Request)

/-- `f_bank`, `active_bank` -/
def bank : BitVec 2 := BitVec.ofBool (q.addr.getLsbD 24) ++ BitVec.ofBool (q.addr.getLsbD 10)

def row : BitVec 13 := q.addr.extractLsb' 11 13
def col : BitVec 10 := q.addr.extractLsb' 0 10

end Request

/-! ### The input FIFO -/

/-- `system_new_sdram_controller_0_input_efifo_module` -/
structure Efifo where
  entries : BitVec 2
  entry0 : Request
  entry1 : Request
  rdAddress : Bool
  wrAddress : Bool
deriving DecidableEq, Repr

namespace Efifo

variable (f : Efifo)

def full : Bool := decide (f.entries = 2)
def empty : Bool := decide (f.entries = 0)
def rdData : Request := if f.rdAddress then f.entry1 else f.entry0

/-- One rising edge of `clk`. -/
def edge (rd wr : Bool) (wrData : Request) : Efifo :=
  let f' : Efifo :=
    { f with
      entry0 := if wr && !f.full && !f.wrAddress then wrData else f.entry0
      entry1 := if wr && !f.full && f.wrAddress then wrData else f.entry1 }
  match rd, wr with
  | false, true =>
    if f.full then f' else { f' with entries := f.entries + 1, wrAddress := !f.wrAddress }
  | true, false =>
    if f.empty then f' else { f' with entries := f.entries - 1, rdAddress := !f.rdAddress }
  | true, true => { f' with wrAddress := !f.wrAddress, rdAddress := !f.rdAddress }
  | false, false => f'

/-- The requests in the FIFO, oldest first. -/
def contents : List Request :=
  [f.rdData, if f.rdAddress then f.entry0 else f.entry1].take f.entries.toNat

/-- The two addresses are as far apart as there are entries, modulo two. -/
def InStep : Prop := f.entries ≤ 2 ∧ f.wrAddress = (f.rdAddress ^^ decide (f.entries = 1))

variable {f} {rd wr : Bool} {d : Request}

lemma entries_cases : ∀ {e : BitVec 2}, e ≤ 2 → e = 0 ∨ e = 1 ∨ e = 2 := by decide

lemma InStep.edge (h : f.InStep) (hr : rd = true → f.empty = false)
    (hw : wr = true → f.full = false) : (f.edge rd wr d).InStep := by
  obtain ⟨entries, entry0, entry1, rdAddress, wrAddress⟩ := f
  obtain ⟨hle, hwr⟩ := h
  simp only at hle hwr
  rcases entries_cases hle with rfl | rfl | rfl <;> cases rd <;> cases wr <;>
    cases rdAddress <;> simp_all [Efifo.edge, full, empty, InStep]

/-- **A queue of two requests.** -/
theorem contents_edge (h : f.InStep) (hr : rd = true → f.empty = false)
    (hw : wr = true → f.full = false) : (f.edge rd wr d).contents =
      f.contents.drop (if rd then 1 else 0) ++ if wr then [d] else [] := by
  obtain ⟨entries, entry0, entry1, rdAddress, wrAddress⟩ := f
  obtain ⟨hle, hwr⟩ := h
  simp only at hle hwr
  rcases entries_cases hle with rfl | rfl | rfl <;> cases rd <;> cases wr <;>
    cases rdAddress <;> simp_all [Efifo.edge, full, empty, contents, rdData]

lemma contents_of_empty (h : f.empty = true) : f.contents = [] := by
  rw [contents, of_decide_eq_true h]
  rfl

/-- The request shown is the oldest one. -/
lemma contents_eq_cons (h : f.empty = false) :
    f.contents = f.rdData :: f.contents.drop 1 := by
  have hne : f.entries ≠ 0 := of_decide_eq_false h
  obtain ⟨n, hn⟩ := Nat.exists_eq_succ_of_ne_zero fun h0 => hne (BitVec.eq_of_toNat_eq h0)
  unfold contents
  rw [hn]
  rfl

end Efifo

/-! ### Commands to the chip -/

/-- `{cs_n, ras_n, cas_n, we_n}` -/
structure Cmd where
  csN : Bool
  code : BitVec 3
deriving DecidableEq, Repr

/-! ### The power-up sequence -/

/-- `i_state`: 000, 001, 010, 011, 101 and 111. -/
inductive IState
  | hold | precharge | refresh | wait | done | loadMode
deriving DecidableEq, Repr

structure InitFsm where
  state : IState
  next : IState
  cmd : Cmd
  addr : BitVec 13
  count : BitVec 3
  refs : BitVec 3
deriving DecidableEq, Repr

/-- One rising edge of `clk`, with `refresh_counter == 0` at the edge. -/
def InitFsm.edge (s : InitFsm) (zero : Bool) : InitFsm :=
  let s' := { s with addr := BitVec.allOnes 13 }
  match s.state with
  | .hold =>
    { s' with cmd := ⟨true, 7⟩, refs := 0, state := if zero then .precharge else .hold }
  | .precharge => { s' with state := .wait, cmd := ⟨false, 2⟩, count := 0, next := .refresh }
  | .refresh =>
    { s' with
      cmd := ⟨false, 1⟩
      refs := s.refs + 1
      state := .wait
      count := 3
      next := if s.refs = 1 then .loadMode else .refresh }
  | .wait =>
    if 1 < s.count then { s' with cmd := ⟨false, 7⟩, count := s.count - 1 }
    else { s' with cmd := ⟨false, 7⟩, state := s.next }
  | .done => s'
  | .loadMode =>
    { s' with state := .wait, cmd := ⟨false, 0⟩, addr := 0b0000000110000, count := 4, next := .done }

/-! ### The main state machine -/

/-- `m_state`, from `9'b000000001` to `9'b100000000`. -/
inductive MState
  | idle | activate | wait | read | write | recover | precharge | refresh | spin
deriving DecidableEq, Repr

structure MainFsm where
  state : MState
  next : MState
  cmd : Cmd
  bank : BitVec 2
  addr : BitVec 13
  data : BitVec 16
  dqm : BitVec 2
  count : BitVec 3
  ackRefreshRequest : Bool
  fPop : Bool
  oe : Bool
  activeCsN : Bool
  /-- `active_rnw`, `active_addr`, `active_dqm` and `active_data` -/
  active : Request
deriving DecidableEq, Repr

/-- What the main state machine reads in one cycle. -/
structure MainIn where
  initDone : Bool
  refreshRequest : Bool
  fEmpty : Bool
  f : Request
  iCmd : Cmd
  iAddr : BitVec 13
deriving DecidableEq, Repr

namespace MainFsm

variable (s : MainFsm) (x : MainIn)

/-- `csn_match && rnw_match && bank_match && row_match`: the request of the FIFO is of the kind
served last, and for the open row. -/
def hit : Bool := !s.activeCsN && decide (s.active.rnw = x.f.rnw) &&
  decide (s.active.bank = x.f.bank) && decide (s.active.row = x.f.row)

def pending : Bool := s.hit x && !x.fEmpty

def fSelect : Bool := s.fPop && s.pending x

def csnDecode : Bool := if s.fSelect x then false else s.activeCsN

/-- The request whose column, bank and data go out. -/
def chosen : Request := if s.fSelect x then x.f else s.active

def casAddr : BitVec 13 := (0 : BitVec 3) ++ (s.chosen x).col

/-- Take the request shown by the FIFO, which leaves it at the next edge. -/
def take (s : MainFsm) : MainFsm := { s with fPop := true, activeCsN := false, active := x.f }

/-- One rising edge of `clk`. -/
def edge : MainFsm :=
  let s' := { s with fPop := false, oe := false }
  match s.state with
  | .idle =>
    if x.initDone then
      let s' := { s' with
        cmd := if x.refreshRequest then ⟨false, 7⟩ else ⟨true, 7⟩
        ackRefreshRequest := false }
      if x.refreshRequest then
        { s' with state := .precharge, next := .refresh, count := 0, activeCsN := true }
      else if !x.fEmpty then { take x s' with state := .activate }
      else s'
    else { s' with addr := x.iAddr, state := .idle, next := .idle, cmd := x.iCmd }
  | .activate =>
    { s' with
      state := .wait
      cmd := ⟨s.csnDecode x, 3⟩
      bank := s.active.bank
      addr := s.active.row
      data := s.active.data
      dqm := s.active.dqm
      count := 1
      next := if s.active.rnw then .read else .write }
  | .wait =>
    let s' := { s' with cmd := if s.next = MState.refresh then ⟨false, 7⟩ else ⟨s.csnDecode x, 7⟩ }
    if 1 < s.count then { s' with count := s.count - 1 } else { s' with state := s.next }
  | .read =>
    let s' := { s' with
      cmd := ⟨s.csnDecode x, 5⟩
      bank := (s.chosen x).bank
      dqm := (s.chosen x).dqm
      addr := s.casAddr x }
    if s.pending x then
      if x.refreshRequest then { s' with state := .wait, next := .idle, count := 2 } else take x s'
    else { s' with cmd := if s.fPop then ⟨s.csnDecode x, 7⟩ else s'.cmd, state := .spin }
  | .write =>
    let s' := { s' with
      cmd := ⟨s.csnDecode x, 4⟩
      oe := true
      data := (s.chosen x).data
      dqm := (s.chosen x).dqm
      bank := (s.chosen x).bank
      addr := s.casAddr x }
    if s.pending x then
      if x.refreshRequest then { s' with state := .wait, next := .idle, count := 1 } else take x s'
    else
      { s' with
        cmd := if s.fPop then ⟨s.csnDecode x, 7⟩ else s'.cmd
        oe := !s.fPop
        state := .spin }
  | .recover =>
    let s' := { s' with cmd := ⟨s.csnDecode x, 7⟩ }
    if 1 < s.count then { s' with count := s.count - 1 }
    else { s' with state := .precharge, count := 0 }
  | .precharge =>
    { s' with
      state := .wait
      addr := BitVec.allOnes 13
      cmd := if x.refreshRequest then ⟨false, 2⟩ else ⟨s.csnDecode x, 2⟩ }
  | .refresh =>
    { s' with
      ackRefreshRequest := true
      state := .wait
      cmd := ⟨false, 1⟩
      count := 3
      next := .idle }
  | .spin =>
    let s' := { s' with cmd := ⟨s.csnDecode x, 7⟩ }
    if x.refreshRequest then { s' with state := .wait, next := .idle, count := 1 }
    else if !x.fEmpty then
      if s.hit x then { take x s' with state := if x.f.rnw then .read else .write }
      else { s' with state := .recover, next := .idle, count := 1 }
    else s'

/-! What an edge can do after the power-up sequence. Reads and writes are served alike: `rd` says
which. -/

/-- The state in which requests of the kind `rd` are served. -/
def serving (rd : Bool) : MState := if rd then .read else .write

/-- The request goes out: its column, its mask, and its data if it is a write. -/
def serve (rd : Bool) : MainFsm :=
  { s with
    fPop := false
    oe := !rd
    cmd := ⟨s.csnDecode x, if rd then 5 else 4⟩
    bank := (s.chosen x).bank
    addr := s.casAddr x
    data := if rd then s.data else (s.chosen x).data
    dqm := (s.chosen x).dqm }

inductive Move : MainFsm → Prop
  | rest (hs : s.state = .idle) (hr : x.refreshRequest = false) (he : x.fEmpty = true) :
    Move { s with fPop := false, oe := false, cmd := ⟨true, 7⟩, ackRefreshRequest := false }
  | close (hs : s.state = .idle) (hr : x.refreshRequest = true) :
    Move { s with
      fPop := false, oe := false, cmd := ⟨false, 7⟩, ackRefreshRequest := false
      state := .precharge, next := .refresh, count := 0, activeCsN := true }
  | start (hs : s.state = .idle) (hr : x.refreshRequest = false) (he : x.fEmpty = false) :
    Move { s with
      fPop := true, oe := false, cmd := ⟨true, 7⟩, ackRefreshRequest := false
      state := .activate, activeCsN := false, active := x.f }
  | activate (hs : s.state = .activate) :
    Move { s with
      fPop := false, oe := false, cmd := ⟨s.csnDecode x, 3⟩, bank := s.active.bank
      addr := s.active.row, data := s.active.data, dqm := s.active.dqm
      state := .wait, count := 1, next := serving s.active.rnw }
  | pause (b : Bool) (hs : s.state = .wait) (hc : 1 < s.count) :
    Move { s with fPop := false, oe := false, cmd := ⟨b, 7⟩, count := s.count - 1 }
  | resume (b : Bool) (hs : s.state = .wait) (hc : ¬ 1 < s.count) :
    Move { s with fPop := false, oe := false, cmd := ⟨b, 7⟩, state := s.next }
  | serveLast (rd : Bool) (hs : s.state = serving rd) (hp : s.pending x = true)
      (hr : x.refreshRequest = true) :
    Move { s.serve x rd with state := .wait, next := .idle, count := if rd then 2 else 1 }
  | serveNext (rd : Bool) (hs : s.state = serving rd) (hp : s.pending x = true)
      (hr : x.refreshRequest = false) :
    Move { s.serve x rd with fPop := true, activeCsN := false, active := x.f }
  | serveOne (rd : Bool) (hs : s.state = serving rd) (hp : s.pending x = false)
      (hf : s.fPop = false) : Move { s.serve x rd with state := .spin }
  | serveNone (rd : Bool) (hs : s.state = serving rd) (hp : s.pending x = false)
      (hf : s.fPop = true) :
    Move { s.serve x rd with oe := false, cmd := ⟨s.csnDecode x, 7⟩, state := .spin }
  | recovering (hs : s.state = .recover) (hc : 1 < s.count) :
    Move { s with fPop := false, oe := false, cmd := ⟨s.csnDecode x, 7⟩, count := s.count - 1 }
  | recovered (hs : s.state = .recover) (hc : ¬ 1 < s.count) :
    Move { s with
      fPop := false, oe := false, cmd := ⟨s.csnDecode x, 7⟩, state := .precharge, count := 0 }
  | precharge (hs : s.state = .precharge) :
    Move { s with
      fPop := false, oe := false, state := .wait, addr := BitVec.allOnes 13
      cmd := if x.refreshRequest then ⟨false, 2⟩ else ⟨s.csnDecode x, 2⟩ }
  | refresh (hs : s.state = .refresh) :
    Move { s with
      fPop := false, oe := false, cmd := ⟨false, 1⟩, ackRefreshRequest := true
      state := .wait, next := .idle, count := 3 }
  | leave (hs : s.state = .spin) (hr : x.refreshRequest = true) :
    Move { s with
      fPop := false, oe := false, cmd := ⟨s.csnDecode x, 7⟩
      state := .wait, next := .idle, count := 1 }
  | again (hs : s.state = .spin) (hr : x.refreshRequest = false) (hp : s.pending x = true) :
    Move { s with
      fPop := true, oe := false, cmd := ⟨s.csnDecode x, 7⟩
      state := serving x.f.rnw, activeCsN := false, active := x.f }
  | other (hs : s.state = .spin) (hr : x.refreshRequest = false) (he : x.fEmpty = false)
      (hp : s.pending x = false) :
    Move { s with
      fPop := false, oe := false, cmd := ⟨s.csnDecode x, 7⟩
      state := .recover, next := .idle, count := 1 }
  | stay (hs : s.state = .spin) (hr : x.refreshRequest = false) (he : x.fEmpty = true) :
    Move { s with fPop := false, oe := false, cmd := ⟨s.csnDecode x, 7⟩ }

variable {s x}

/-- **What an edge can do**, once the power-up sequence is over. -/
theorem moves (hx : x.initDone = true) : Move s x (s.edge x) := by
  unfold edge
  split
  next hs =>
    cases hr : x.refreshRequest with
    | true =>
      simp only [hx, if_true]
      exact .close hs hr
    | false =>
      cases he : x.fEmpty with
      | true =>
        simp only [hx, if_true, Bool.false_eq_true, if_false, Bool.not_true]
        exact .rest hs hr he
      | false =>
        simp only [hx, if_true, Bool.false_eq_true, if_false, Bool.not_false]
        exact .start hs hr he
  next hs => exact .activate hs
  next hs =>
    have hnop : ∃ b, (if s.next = MState.refresh then (⟨false, 7⟩ : Cmd)
        else ⟨s.csnDecode x, 7⟩) = ⟨b, 7⟩ := by
      split_ifs
      exacts [⟨_, rfl⟩, ⟨_, rfl⟩]
    obtain ⟨b, hb⟩ := hnop
    by_cases hc : 1 < s.count
    · simp only [if_pos hc, hb]
      exact .pause b hs hc
    · simp only [if_neg hc, hb]
      exact .resume b hs hc
  next hs =>
    cases hp : s.pending x with
    | true =>
      cases hr : x.refreshRequest with
      | true => exact .serveLast true hs hp hr
      | false => exact .serveNext true hs hp hr
    | false =>
      cases hf : s.fPop with
      | true => exact .serveNone true hs hp hf
      | false => exact .serveOne true hs hp hf
  next hs =>
    cases hp : s.pending x with
    | true =>
      cases hr : x.refreshRequest with
      | true => exact .serveLast false hs hp hr
      | false => exact .serveNext false hs hp hr
    | false =>
      cases hf : s.fPop with
      | true => exact .serveNone false hs hp hf
      | false => exact .serveOne false hs hp hf
  next hs =>
    by_cases hc : 1 < s.count
    · simp only [if_pos hc]
      exact .recovering hs hc
    · simp only [if_neg hc]
      exact .recovered hs hc
  next hs => exact .precharge hs
  next hs => exact .refresh hs
  next hs =>
    cases hr : x.refreshRequest with
    | true => exact .leave hs hr
    | false =>
      cases he : x.fEmpty with
      | true => exact .stay hs hr he
      | false =>
        have hp : s.pending x = s.hit x := by rw [pending, he, Bool.not_false, Bool.and_true]
        cases hh : s.hit x with
        | true => exact .again hs hr (hp.trans hh)
        | false => exact .other hs hr he (hp.trans hh)

lemma serving_ne_idle {rd : Bool} : serving rd ≠ .idle := by cases rd <;> decide

lemma serving_ne_wait {rd : Bool} : serving rd ≠ .wait := by cases rd <;> decide

lemma serving_ne_spin {rd : Bool} : serving rd ≠ .spin := by cases rd <;> decide

namespace Move

variable {s' : MainFsm}

/-- An edge of a wait. -/
lemma of_wait (hm : Move s x s') (hs : s.state = .wait) : ∃ b,
    1 < s.count ∧ s' = { s with
      fPop := false, oe := false, cmd := ⟨b, 7⟩, count := s.count - 1 } ∨
    ¬ 1 < s.count ∧ s' = { s with
      fPop := false, oe := false, cmd := ⟨b, 7⟩, state := s.next } := by
  cases hm with
  | pause b _ hc => exact ⟨b, Or.inl ⟨hc, rfl⟩⟩
  | resume b _ hc => exact ⟨b, Or.inr ⟨hc, rfl⟩⟩
  | serveLast _ h | serveNext _ h | serveOne _ h | serveNone _ h =>
    exact absurd (h.symm.trans hs) serving_ne_wait
  | rest h | close h | start h | activate h | recovering h | recovered h | precharge h
  | refresh h | leave h | again h | other h | stay h => exact absurd (h.symm.trans hs) (by decide)

/-- At rest nothing is acknowledged any more. -/
lemma of_idle (hm : Move s x s') (hs : s.state = .idle) : s'.ackRefreshRequest = false := by
  cases hm with
  | rest | close | start => rfl
  | serveLast _ h | serveNext _ h | serveOne _ h | serveNone _ h =>
    exact absurd (h.symm.trans hs) serving_ne_idle
  | activate h | pause _ h | resume _ h | recovering h | recovered h | precharge h | refresh h
  | leave h | again h | other h | stay h => exact absurd (h.symm.trans hs) (by decide)

end Move

end MainFsm

/-! ### The controller -/

structure SdramController where
  fifo : Efifo
  refreshCounter : BitVec 13
  refreshRequest : Bool
  zaCannotrefresh : Bool
  initDone : Bool
  init : InitFsm
  main : MainFsm
  rdValid : BitVec 3
  zaData : BitVec 16
  zaValid : Bool
deriving DecidableEq, Repr

/-- What the registers hold that reset leaves alone. -/
structure PowerUp where
  entry0 : Request
  entry1 : Request
  refs : BitVec 3
  activeCsN : Bool
  active : Request
deriving DecidableEq, Repr

/-- What the Avalon slave reads in one cycle. -/
structure SlaveIn where
  azAddr : BitVec 25
  azBeN : BitVec 2
  azData : BitVec 16
  azRdN : Bool
  azWrN : Bool
deriving DecidableEq, Repr

namespace SdramController

/-- What `reset_n = 0` sets. -/
def reset (p : PowerUp) : SdramController where
  fifo := ⟨0, p.entry0, p.entry1, false, false⟩
  refreshCounter := 5000
  refreshRequest := false
  zaCannotrefresh := false
  initDone := false
  init := ⟨.hold, .hold, ⟨true, 7⟩, BitVec.allOnes 13, 0, p.refs⟩
  main := ⟨.idle, .idle, ⟨true, 7⟩, 0, 0, 0, 0, 0, false, false, false, p.activeCsN, p.active⟩
  rdValid := 0
  zaData := 0
  zaValid := false

variable (s : SdramController) (i : SlaveIn)

def zaWaitrequest : Bool := s.fifo.full

/-- The request at the slave. -/
def request : Request := ⟨i.azWrN, i.azAddr, if i.azWrN then 0 else i.azBeN, i.azData⟩

/-- A request is accepted. -/
def accepts : Bool := (!i.azWrN || !i.azRdN) && !s.zaWaitrequest

def mainIn : MainIn :=
  ⟨s.initDone, s.refreshRequest, s.fifo.empty, s.fifo.rdData, s.init.cmd, s.init.addr⟩

def rdStrobe : Bool := decide (s.main.cmd.code = 5)

/-- One rising edge of `clk`, with `zs_dq` at the edge. -/
def edge (zsDq : BitVec 16) : SdramController where
  fifo := s.fifo.edge (s.main.fSelect s.mainIn) (s.accepts i) (request i)
  refreshCounter := if s.refreshCounter = 0 then 781 else s.refreshCounter - 1
  refreshRequest := (decide (s.refreshCounter = 0) || s.refreshRequest) &&
    !s.main.ackRefreshRequest && s.initDone
  zaCannotrefresh := decide (s.refreshCounter = 0) && s.refreshRequest
  initDone := s.initDone || decide (s.init.state = .done)
  init := s.init.edge (decide (s.refreshCounter = 0))
  main := s.main.edge s.mainIn
  rdValid := s.rdValid.shiftConcat s.rdStrobe
  zaData := zsDq
  zaValid := s.rdValid.getLsbD 2

end SdramController

end VideoPipeline.Sdram

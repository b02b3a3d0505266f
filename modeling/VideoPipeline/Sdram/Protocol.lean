import VideoPipeline.Sdram.Chip

/-!
The commands keep the rules of the chip. The registers drive the chip one clock after the state
machine has chosen a command, so the invariant of each state is about the chip as it will be when
the command on the wires has arrived: which row is open then, and how long it is busy.
-/

namespace VideoPipeline.Sdram

open VideoPipeline.Lib

/-! ### Single commands -/

/-- Neither a read nor a write. -/
def Cmd.Quiet (c : Cmd) : Prop := c.code ≠ 4 ∧ c.code ≠ 5

lemma Cmd.quiet_nop {b : Bool} : (⟨b, 7⟩ : Cmd).Quiet := ⟨by simp, by simp⟩

lemma command_nop (b : Bool) : (⟨b, 7⟩ : Cmd).command = .nop := by cases b <;> rfl

namespace Chip

variable {c c' : Chip} {p : Pins} {q : Request}

lemma Closed.congr (h : c.Closed) (hrow : c'.openRow = c.openRow) : c'.Closed := by
  unfold Closed
  rw [hrow]
  exact h

lemma Opened.congr (h : c.Opened q) (hrow : c'.openRow = c.openRow) : c'.Opened q := by
  unfold Opened
  rw [hrow]
  exact h

lemma openRow_edge (h : p.cmd.command ≠ .activate) (h' : p.cmd.command ≠ .precharge) :
    (c.edge p).openRow = c.openRow := by
  change c.rows p = c.openRow
  unfold rows
  cases hp : p.cmd.command <;> first | rfl | exact absurd hp h | exact absurd hp h'

/-- A precharge with `A10` closes all rows. -/
lemma closed_precharge (h : p.cmd.command = .precharge) (h10 : p.addr.getLsbD 10 = true) :
    (c.edge p).Closed := by
  intro b
  change c.rows p b = none
  unfold rows
  rw [h, if_pos h10]

lemma busy_edge (h : p.cmd.command ≠ .autoRefresh) (h' : p.cmd.command ≠ .loadMode) :
    (c.edge p).busy = c.busy - 1 := by
  change (if _ then _ else if _ then _ else _) = _
  rw [if_neg h, if_neg h']

lemma ready_edge (h : p.cmd.command ≠ .loadMode) : (c.edge p).Ready ↔ c.Ready := by
  unfold Ready edge
  rw [if_neg h]

lemma le_refreshes (c : Chip) (p : Pins) : c.refreshes ≤ (c.edge p).refreshes :=
  Nat.le_add_right _ _

lemma refreshes_edge (h : p.cmd.command = .autoRefresh) :
    (c.edge p).refreshes = c.refreshes + 1 := by
  change c.refreshes + (if _ then 1 else 0) = _
  rw [if_pos h]

/-- What a clock without a command does. -/
structure Idles (c : Chip) (p : Pins) : Prop where
  allows : c.Allows p
  openRow : (c.edge p).openRow = c.openRow
  busy : (c.edge p).busy = c.busy - 1
  ready : (c.edge p).Ready ↔ c.Ready

lemma idles (h : p.cmd.command = .nop) : c.Idles p := by
  refine ⟨?_, openRow_edge (by simp [h]) (by simp [h]), busy_edge (by simp [h]) (by simp [h]),
    ready_edge (by simp [h])⟩
  unfold Allows
  rw [h]
  trivial

end Chip

/-! ### The power-up sequence -/

/-- The phases of the power-up sequence, for the chip to which all commands given so far have
come. -/
def PowerPhase (s : InitFsm) (counter : BitVec 13) (c : Chip) : Prop :=
  match s.state with
  | .hold => c.busy ≤ counter.toNat
  | .precharge => c.busy = 0 ∧ s.refs = 0
  | .refresh => c.busy = 0 ∧ c.Closed ∧ s.refs.toNat ≤ 1 ∧ s.refs.toNat ≤ c.refreshes
  | .wait =>
    c.busy ≤ s.count.toNat ∧ c.Closed ∧
      match s.next with
      | .refresh => s.refs.toNat ≤ 1 ∧ s.refs.toNat ≤ c.refreshes
      | .loadMode => 2 ≤ c.refreshes
      | .done => 2 ≤ c.refreshes ∧ c.Ready
      | _ => False
  | .loadMode => c.busy = 0 ∧ c.Closed ∧ 2 ≤ c.refreshes
  | .done => c.busy = 0 ∧ c.Closed ∧ 2 ≤ c.refreshes ∧ c.Ready ∧ s.cmd = ⟨false, 7⟩

lemma one_lt_iff (k : BitVec 3) : 1 < k ↔ 1 < k.toNat := Iff.rfl

lemma toNat_sub_one {k : BitVec 3} (h : 1 < k) : (k - 1).toNat = k.toNat - 1 := by
  rw [one_lt_iff] at h
  bv_omega

/-- One clock of the power-up sequence. -/
theorem PowerPhase.edge {s : InitFsm} {counter : BitVec 13} {c : Chip} {p : Pins}
    (h : PowerPhase s counter c) (hcmd : p.cmd = (s.edge (decide (counter = 0))).cmd)
    (haddr : p.addr = (s.edge (decide (counter = 0))).addr) :
    c.Allows p ∧ PowerPhase (s.edge (decide (counter = 0)))
      (if counter = 0 then 781 else counter - 1) (c.edge p) := by
  obtain ⟨state, next, cmd, addr, count, refs⟩ := s
  cases state with
  | hold =>
    have hidle : c.Idles p := Chip.idles (by rw [hcmd]; rfl)
    change c.busy ≤ counter.toNat at h
    refine ⟨hidle.allows, ?_⟩
    by_cases h0 : counter = 0
    · subst h0
      exact ⟨by rw [hidle.busy, Nat.le_zero.1 h], rfl⟩
    · rw [decide_eq_false h0, if_neg h0]
      change (c.edge p).busy ≤ _
      rw [hidle.busy]
      bv_omega
  | precharge =>
    obtain ⟨hbusy, hrefs⟩ := h
    change refs = 0 at hrefs
    have hp : p.cmd.command = .precharge := by rw [hcmd]; rfl
    have h10 : p.addr.getLsbD 10 = true := by
      rw [haddr]
      exact (by decide : (BitVec.allOnes 13).getLsbD 10 = true)
    refine ⟨?_, ?_, Chip.closed_precharge hp h10, ?_⟩
    · unfold Chip.Allows
      rw [hp]
      exact hbusy
    · rw [Chip.busy_edge (by simp [hp]) (by simp [hp]), hbusy]
      exact Nat.zero_le _
    · change refs.toNat ≤ 1 ∧ refs.toNat ≤ _
      rw [hrefs]
      exact ⟨Nat.zero_le _, Nat.zero_le _⟩
  | refresh =>
    obtain ⟨hbusy, hclosed, hrefs, hcount⟩ := h
    have hp : p.cmd.command = .autoRefresh := by rw [hcmd]; rfl
    have hsame : (c.edge p).openRow = c.openRow := Chip.openRow_edge (by simp [hp]) (by simp [hp])
    have hnext := Chip.refreshes_edge (c := c) hp
    refine ⟨?_, ?_, ?_, ?_⟩
    · unfold Chip.Allows
      rw [hp]
      exact ⟨hbusy, hclosed⟩
    · change (if _ then _ else _) ≤ 3
      rw [if_pos hp]
    · exact hclosed.congr hsame
    · change refs.toNat ≤ 1 at hrefs
      change refs.toNat ≤ _ at hcount
      change match (if refs = 1 then IState.loadMode else .refresh) with
        | .refresh => (refs + 1).toNat ≤ 1 ∧ (refs + 1).toNat ≤ (c.edge p).refreshes
        | .loadMode => 2 ≤ (c.edge p).refreshes
        | .done => 2 ≤ (c.edge p).refreshes ∧ (c.edge p).Ready
        | _ => False
      by_cases h1 : refs = 1
      · subst h1
        change 1 ≤ _ at hcount
        rw [if_pos rfl]
        change 2 ≤ _
        omega
      · rw [if_neg h1]
        change (refs + 1).toNat ≤ 1 ∧ (refs + 1).toNat ≤ _
        bv_omega
  | wait =>
    obtain ⟨hbusy, hclosed, hnext⟩ := h
    change c.busy ≤ count.toNat at hbusy
    have hp : p.cmd = ⟨false, 7⟩ := by
      rw [hcmd]
      unfold InitFsm.edge
      split_ifs <;> rfl
    have hidle : c.Idles p := Chip.idles (by rw [hp]; rfl)
    have hmono := c.le_refreshes p
    refine ⟨hidle.allows, ?_⟩
    have hbusy' := hidle.busy
    have hclosed' := hclosed.congr hidle.openRow
    by_cases h1 : 1 < count
    · have hsub := toNat_sub_one h1
      have hedge : (InitFsm.mk .wait next cmd addr count refs).edge (decide (counter = 0)) =
          ⟨.wait, next, ⟨false, 7⟩, BitVec.allOnes 13, count - 1, refs⟩ := if_pos h1
      rw [hedge]
      refine ⟨?_, hclosed', ?_⟩
      · change _ ≤ (count - 1).toNat
        omega
      · cases next with
        | refresh => exact ⟨hnext.1, hnext.2.trans hmono⟩
        | loadMode => exact hnext.trans hmono
        | done => exact ⟨hnext.1.trans hmono, hidle.ready.2 hnext.2⟩
        | _ => exact hnext
    · have hedge : (InitFsm.mk .wait next cmd addr count refs).edge (decide (counter = 0)) =
          ⟨next, next, ⟨false, 7⟩, BitVec.allOnes 13, count, refs⟩ := if_neg h1
      rw [one_lt_iff] at h1
      have hzero : (c.edge p).busy = 0 := by omega
      rw [hedge]
      cases next with
      | refresh => exact ⟨hzero, hclosed', hnext.1, hnext.2.trans hmono⟩
      | loadMode => exact ⟨hzero, hclosed', hnext.trans hmono⟩
      | done => exact ⟨hzero, hclosed', hnext.1.trans hmono, hidle.ready.2 hnext.2, rfl⟩
      | hold => exact hnext.elim
      | precharge => exact hnext.elim
      | wait => exact hnext.elim
  | done =>
    obtain ⟨hbusy, hclosed, hcount, hready, hnop⟩ := h
    change cmd = _ at hnop
    have hidle : c.Idles p := Chip.idles (by rw [hcmd]; change cmd.command = _; rw [hnop]; rfl)
    refine ⟨hidle.allows, ?_, hclosed.congr hidle.openRow, hcount.trans (c.le_refreshes p),
      hidle.ready.2 hready, hnop⟩
    rw [hidle.busy, hbusy]
  | loadMode =>
    obtain ⟨hbusy, hclosed, hrefs⟩ := h
    have hp : p.cmd.command = .loadMode := by rw [hcmd]; rfl
    have hsame : (c.edge p).openRow = c.openRow := Chip.openRow_edge (by simp [hp]) (by simp [hp])
    refine ⟨?_, ?_, ?_, hrefs.trans (c.le_refreshes p), ?_⟩
    · unfold Chip.Allows
      rw [hp]
      exact ⟨hbusy, hclosed, hrefs⟩
    · change (if _ then _ else if _ then _ else _) ≤ 4
      rw [if_neg (by simp [hp]), if_pos hp]
      omega
    · exact hclosed.congr hsame
    · change (if _ then _ else _) = _
      rw [if_pos hp, haddr]
      rfl

/-! ### The main state machine -/

/-- `refresh_request` after an edge. -/
def MainIn.nextRefresh (x : MainIn) (s : MainFsm) (zero : Bool) : Bool :=
  (zero || x.refreshRequest) && !s.ackRefreshRequest && x.initDone

/-- What holds in each state, for the chip to which the command on the wires has come. -/
def Stage (s : MainFsm) (refresh : Bool) (c : Chip) : Prop :=
  match s.state with
  | .idle => c.busy = 0 ∧ (s.ackRefreshRequest = true → refresh = false) ∧
    (refresh = false → c.Closed)
  | .activate => s.activeCsN = false ∧ c.busy = 0 ∧ c.Closed
  | .wait =>
    match s.next with
    | .idle => c.busy ≤ s.count.toNat ∧ s.count.toNat ≤ 3 ∧
      (s.ackRefreshRequest = true ∨ refresh = false → c.Closed)
    | .read => s.activeCsN = false ∧ s.active.rnw = true ∧ c.busy = 0 ∧ c.Opened s.active ∧
      s.count = 1
    | .write => s.activeCsN = false ∧ s.active.rnw = false ∧ c.busy = 0 ∧ c.Opened s.active ∧
      s.count = 1
    | .refresh => c.busy = 0 ∧ c.Closed ∧ s.count = 0 ∧ refresh = true
    | _ => False
  | .read => s.activeCsN = false ∧ s.active.rnw = true ∧ c.busy = 0 ∧ c.Opened s.active
  | .write => s.activeCsN = false ∧ s.active.rnw = false ∧ c.busy = 0 ∧ c.Opened s.active
  | .recover => s.activeCsN = false ∧ s.next = .idle ∧ c.busy = 0 ∧ s.count = 1
  | .precharge => c.busy = 0 ∧ s.count = 0 ∧
    (s.next = .idle ∧ s.activeCsN = false ∨ s.next = .refresh ∧ refresh = true)
  | .refresh => c.busy = 0 ∧ c.Closed ∧ refresh = true
  | .spin => s.activeCsN = false ∧ c.busy = 0 ∧ c.Opened s.active

/-- The main state machine once the power-up sequence is over. -/
structure Phase (s : MainFsm) (refresh : Bool) (c : Chip) : Prop where
  ready : c.Ready
  /-- the acknowledgement stays up until the state machine is idle again -/
  acked : s.ackRefreshRequest = true → s.state = .idle ∨ s.state = .wait ∧ s.next = .idle
  stage : Stage s refresh c

section Phases

variable {s s' : MainFsm} {x : MainIn} {c : Chip} {refresh z : Bool}

/-- A request to refresh that has not been acknowledged stays up. -/
lemma MainIn.nextRefresh_of_up (hx : x.initDone = true) (hr : x.refreshRequest = true)
    (hack : s.ackRefreshRequest = false) : x.nextRefresh s z = true := by
  simp [nextRefresh, hx, hr, hack]

/-- One that has been acknowledged is taken back. -/
lemma MainIn.nextRefresh_of_acked (hack : s.ackRefreshRequest = true) :
    x.nextRefresh s z = false := by
  simp [nextRefresh, hack]

/-- While one is up and not acknowledged, it is so after the edge. -/
lemma MainIn.nextRefresh_not_down (hx : x.initDone = true) (hr : x.refreshRequest = true)
    (hack : s.ackRefreshRequest = false) :
    ¬ (s.ackRefreshRequest = true ∨ x.nextRefresh s z = false) := by
  rw [hack, nextRefresh_of_up hx hr hack]
  simp

/-- No request is up after an edge only if none was, or it was acknowledged. -/
lemma MainIn.of_nextRefresh (hx : x.initDone = true)
    (h : s.ackRefreshRequest = true ∨ x.nextRefresh s z = false) :
    s.ackRefreshRequest = true ∨ x.refreshRequest = false := by
  cases ha : s.ackRefreshRequest with
  | true => exact Or.inl rfl
  | false =>
    refine Or.inr (Bool.eq_false_iff.2 fun hr => ?_)
    rw [ha, MainIn.nextRefresh_of_up hx hr ha] at h
    exact h.elim (absurd · Bool.false_ne_true) (absurd ·.symm Bool.false_ne_true)

lemma MainFsm.acked_elim {P : Prop} (hack : s.ackRefreshRequest = false)
    (h : s.ackRefreshRequest = true) : P :=
  absurd (hack.symm.trans h) Bool.false_ne_true

/-! The stages one by one. -/

lemma stage_idle (hs : s.state = .idle) : Stage s refresh c ↔
    c.busy = 0 ∧ (s.ackRefreshRequest = true → refresh = false) ∧
      (refresh = false → c.Closed) := by
  unfold Stage
  rw [hs]

lemma stage_activate (hs : s.state = .activate) : Stage s refresh c ↔
    s.activeCsN = false ∧ c.busy = 0 ∧ c.Closed := by
  unfold Stage
  rw [hs]

/-- The wait before the state machine is idle. -/
lemma stage_wait_idle (hs : s.state = .wait) (hn : s.next = .idle) : Stage s refresh c ↔
    c.busy ≤ s.count.toNat ∧ s.count.toNat ≤ 3 ∧
      (s.ackRefreshRequest = true ∨ refresh = false → c.Closed) := by
  unfold Stage
  rw [hs, hn]

/-- The wait before requests are served. -/
lemma stage_wait_serving {r : Bool} (hs : s.state = .wait) (hn : s.next = MainFsm.serving r) :
    Stage s refresh c ↔ s.activeCsN = false ∧ s.active.rnw = r ∧ c.busy = 0 ∧
      c.Opened s.active ∧ s.count = 1 := by
  unfold Stage
  rw [hs, hn]
  cases r <;> rfl

/-- The stages in which requests are served. -/
lemma stage_serving {r : Bool} (hs : s.state = MainFsm.serving r) : Stage s refresh c ↔
    s.activeCsN = false ∧ s.active.rnw = r ∧ c.busy = 0 ∧ c.Opened s.active := by
  unfold Stage
  rw [hs]
  cases r <;> rfl

lemma stage_recover (hs : s.state = .recover) : Stage s refresh c ↔
    s.activeCsN = false ∧ s.next = .idle ∧ c.busy = 0 ∧ s.count = 1 := by
  unfold Stage
  rw [hs]

lemma stage_spin (hs : s.state = .spin) : Stage s refresh c ↔
    s.activeCsN = false ∧ c.busy = 0 ∧ c.Opened s.active := by
  unfold Stage
  rw [hs]

/-! Where a phase leads. -/

/-- While requests are served nothing is acknowledged. -/
lemma Phase.not_acked (h : Phase s refresh c) (hs : s.state ≠ .idle) (hw : s.state ≠ .wait) :
    s.ackRefreshRequest = false :=
  Bool.eq_false_iff.2 fun ha => (h.acked ha).elim hs fun h => hw h.1

/-- A wait leads to service, to a refresh or to rest. -/
lemma Phase.next_of_wait (h : Phase s refresh c) (hs : s.state = .wait) :
    s.next = .idle ∨ s.next = .read ∨ s.next = .write ∨ s.next = .refresh := by
  have hstage := h.stage
  unfold Stage at hstage
  rw [hs] at hstage
  cases hn : s.next with
  | idle | read | write | refresh => simp
  | activate | wait | recover | precharge | spin =>
    rw [hn] at hstage
    exact hstage.elim

/-- The rows are closed for a request to another row or for a refresh. -/
lemma Phase.next_of_precharge (h : Phase s refresh c) (hs : s.state = .precharge) :
    s.next = .idle ∨ s.next = .refresh := by
  have hstage := h.stage
  unfold Stage at hstage
  rw [hs] at hstage
  exact hstage.2.2.imp And.left And.left

/-- A wait that goes on is one before the state machine is idle. -/
lemma Phase.next_of_pause (h : Phase s refresh c) (hs : s.state = .wait) (hc : 1 < s.count) :
    s.next = .idle := by
  have hstage := h.stage
  unfold Stage at hstage
  rw [hs] at hstage
  have hone : ¬ (1 : BitVec 3) < 1 := by decide
  have hzero : ¬ (1 : BitVec 3) < 0 := by decide
  rcases h.next_of_wait hs with hn | hn | hn | hn
  · exact hn
  · rw [hn] at hstage
    exact absurd (hstage.2.2.2.2 ▸ hc) hone
  · rw [hn] at hstage
    exact absurd (hstage.2.2.2.2 ▸ hc) hone
  · rw [hn] at hstage
    exact absurd (hstage.2.2.1 ▸ hc) hzero

/-! The request that goes out. -/

/-- What a request matches that is pending. -/
lemma MainFsm.pending_iff : s.pending x = true ↔ s.activeCsN = false ∧ s.active.rnw = x.f.rnw ∧
    s.active.bank = x.f.bank ∧ s.active.row = x.f.row ∧ x.fEmpty = false := by
  unfold pending hit
  simp [and_assoc]

lemma MainFsm.csnDecode_of_selected (hcs : s.activeCsN = false) : s.csnDecode x = false := by
  unfold csnDecode
  rw [hcs, ite_self]

lemma Chip.Opened.of_pending (h : c.Opened s.active) (hp : s.pending x = true) : c.Opened x.f := by
  obtain ⟨-, -, hbank, hrow, -⟩ := MainFsm.pending_iff.1 hp
  unfold Opened
  rw [← hbank, ← hrow]
  exact h

/-- The row of what goes out next is open. -/
lemma Chip.Opened.chosen (h : c.Opened s.active) : c.Opened (s.chosen x) := by
  unfold MainFsm.chosen MainFsm.fSelect
  split_ifs with hsel
  · exact h.of_pending (Bool.and_eq_true_iff.1 hsel).2
  · exact h

/-! The commands. -/

/-- The command on the wires is allowed, and the state machine fits the chip after it. -/
def Goes (c : Chip) (s : MainFsm) (refresh : Bool) : Prop :=
  c.Allows s.pins ∧ Phase s refresh (c.edge s.pins)

/-- The edges without a command. -/
lemma goes_of_nop (hnop : s.cmd.command = .nop) (hr : c.Ready)
    (hacked : s.ackRefreshRequest = true → s.state = .idle ∨ s.state = .wait ∧ s.next = .idle)
    (hstage : ∀ c', c'.openRow = c.openRow → c'.busy = c.busy - 1 → Stage s refresh c') :
    Goes c s refresh := by
  have hidle : c.Idles s.pins := Chip.idles hnop
  exact ⟨hidle.allows, hidle.ready.2 hr, hacked, hstage _ hidle.openRow hidle.busy⟩

/-- The row is opened. -/
lemma goes_of_activate (hcmd : s.cmd = ⟨false, 3⟩) (haddr : s.addr = s.active.row)
    (hbank : s.bank = s.active.bank) (hclosed : c.Closed) (hbusy : c.busy = 0) (hr : c.Ready)
    (hack : s.ackRefreshRequest = false)
    (hstage : ∀ c', c'.Opened s.active → c'.busy = 0 → Stage s refresh c') : Goes c s refresh := by
  have hp : s.pins.cmd.command = .activate := by
    change s.cmd.command = _
    rw [hcmd]
    rfl
  have hopened : (c.edge s.pins).Opened s.active := by
    intro b
    change c.rows _ b = _
    unfold Chip.rows
    rw [hp]
    change Function.update c.openRow s.bank (some s.addr) b = _
    rw [hbank, haddr, Function.update_apply]
    split_ifs
    · rfl
    · exact hclosed b
  have hb : (c.edge s.pins).busy = 0 := by
    rw [Chip.busy_edge (by simp [hp]) (by simp [hp]), hbusy]
  refine ⟨?_, (Chip.ready_edge (by simp [hp])).2 hr,
    MainFsm.acked_elim hack, hstage _ hopened hb⟩
  unfold Chip.Allows
  rw [hp]
  exact ⟨hbusy, hr, hclosed _⟩

/-- The edges that serve a request of the open row. -/
lemma goes_of_access (hcmd : s.cmd.command = .read ∨ s.cmd.command = .write)
    (ho : c.openRow s.bank ≠ none) (h10 : s.addr.getLsbD 10 = false) (hbusy : c.busy = 0)
    (hr : c.Ready)
    (hacked : s.ackRefreshRequest = true → s.state = .idle ∨ s.state = .wait ∧ s.next = .idle)
    (hstage : ∀ c', c'.openRow = c.openRow → c'.busy = 0 → Stage s refresh c') :
    Goes c s refresh := by
  have hne : ∀ d, s.pins.cmd.command = d → d = .read ∨ d = .write := by
    rintro d rfl
    exact hcmd
  have hrow : (c.edge s.pins).openRow = c.openRow :=
    Chip.openRow_edge (fun h => by simpa using hne _ h) (fun h => by simpa using hne _ h)
  have hb : (c.edge s.pins).busy = 0 := by
    rw [Chip.busy_edge (fun h => by simpa using hne _ h) (fun h => by simpa using hne _ h), hbusy]
  refine ⟨?_, (Chip.ready_edge fun h => by simpa using hne _ h).2 hr, hacked, hstage _ hrow hb⟩
  unfold Chip.Allows
  rcases hcmd with h | h
  · rw [show s.pins.cmd.command = _ from h]
    exact ⟨hbusy, hr, ho, h10⟩
  · rw [show s.pins.cmd.command = _ from h]
    exact ⟨hbusy, hr, ho, h10⟩

/-- What a request that is served does on the wires. -/
lemma goes_of_serve {rd : Bool} (hcs : s.activeCsN = false) (ho : c.Opened s.active)
    (hbusy : c.busy = 0) (hr : c.Ready) (hcmd : s'.cmd = (s.serve x rd).cmd)
    (hbank : s'.bank = (s.serve x rd).bank) (haddr : s'.addr = (s.serve x rd).addr)
    (hack : s'.ackRefreshRequest = false)
    (hstage : ∀ c', c'.openRow = c.openRow → c'.busy = 0 → Stage s' refresh c') :
    Goes c s' refresh := by
  refine goes_of_access ?_ ?_ ?_ hbusy hr (MainFsm.acked_elim hack)
    hstage
  · rw [hcmd, MainFsm.serve, MainFsm.csnDecode_of_selected hcs]
    cases rd
    · exact Or.inr rfl
    · exact Or.inl rfl
  · rw [hbank]
    change c.openRow (s.chosen x).bank ≠ none
    rw [ho.chosen (s.chosen x).bank, if_pos rfl]
    exact Option.some_ne_none _
  · rw [haddr]
    change (s.casAddr x).getLsbD 10 = false
    unfold MainFsm.casAddr
    rw [BitVec.getLsbD_append, if_neg (by omega)]
    exact BitVec.getLsbD_zero

/-- All rows are closed. -/
lemma goes_of_precharge (hcmd : s.cmd = ⟨false, 2⟩) (haddr : s.addr = BitVec.allOnes 13)
    (hbusy : c.busy = 0) (hr : c.Ready) (hack : s.ackRefreshRequest = false)
    (hstage : ∀ c', c'.Closed → c'.busy = 0 → Stage s refresh c') : Goes c s refresh := by
  have hp : s.pins.cmd.command = .precharge := by
    change s.cmd.command = _
    rw [hcmd]
    rfl
  have h10 : s.pins.addr.getLsbD 10 = true := by
    change s.addr.getLsbD 10 = true
    rw [haddr]
    decide
  have hb : (c.edge s.pins).busy = 0 := by
    rw [Chip.busy_edge (by simp [hp]) (by simp [hp]), hbusy]
  refine ⟨?_, (Chip.ready_edge (by simp [hp])).2 hr,
    MainFsm.acked_elim hack,
    hstage _ (Chip.closed_precharge hp h10) hb⟩
  unfold Chip.Allows
  rw [hp]
  exact hbusy

/-- The rows are refreshed. -/
lemma goes_of_refresh (hcmd : s.cmd = ⟨false, 1⟩) (hclosed : c.Closed) (hbusy : c.busy = 0)
    (hr : c.Ready) (hs : s.state = .wait) (hn : s.next = .idle)
    (hstage : ∀ c', c'.Closed → c'.busy = 3 → Stage s refresh c') : Goes c s refresh := by
  have hp : s.pins.cmd.command = .autoRefresh := by
    change s.cmd.command = _
    rw [hcmd]
    rfl
  have hb : (c.edge s.pins).busy = 3 := by
    change (if _ then _ else _) = _
    rw [if_pos hp]
  refine ⟨?_, (Chip.ready_edge (by simp [hp])).2 hr, fun _ => Or.inr ⟨hs, hn⟩,
    hstage _ (hclosed.congr (Chip.openRow_edge (by simp [hp]) (by simp [hp]))) hb⟩
  unfold Chip.Allows
  rw [hp]
  exact ⟨hbusy, hclosed⟩

/-- The end of a wait. -/
lemma Phase.resume {b : Bool} (h : Phase s x.refreshRequest c) (hx : x.initDone = true)
    (hs : s.state = .wait) (hc : ¬ 1 < s.count) :
    Goes c { s with fPop := false, oe := false, cmd := ⟨b, 7⟩, state := s.next }
      (x.nextRefresh s z) := by
  have hstage := h.stage
  have hback : s.ackRefreshRequest = true → x.nextRefresh s z = false :=
    MainIn.nextRefresh_of_acked
  refine goes_of_nop (command_nop _) h.ready (fun ha => ?_) fun c' hrow hb => ?_
  · exact (h.acked ha).elim (fun h => absurd (hs.symm.trans h) (by decide)) fun h => Or.inl h.2
  rcases h.next_of_wait hs with hn | hn | hn | hn
  · obtain ⟨hbusy, -, hclosed⟩ := (stage_wait_idle hs hn).1 hstage
    refine (stage_idle (by exact hn)).2
      ⟨?_, hback, fun hr => (hclosed (MainIn.of_nextRefresh hx (Or.inr hr))).congr hrow⟩
    rw [one_lt_iff] at hc
    omega
  · obtain ⟨hcs, hrd, hbusy, hopen, -⟩ := (stage_wait_serving (r := true) hs hn).1 hstage
    exact (stage_serving (r := true) (by exact hn)).2
      ⟨hcs, hrd, by rw [hb, hbusy], hopen.congr hrow⟩
  · obtain ⟨hcs, hrd, hbusy, hopen, -⟩ := (stage_wait_serving (r := false) hs hn).1 hstage
    exact (stage_serving (r := false) (by exact hn)).2
      ⟨hcs, hrd, by rw [hb, hbusy], hopen.congr hrow⟩
  · unfold Stage at hstage
    rw [hs, hn] at hstage
    obtain ⟨hbusy, hclosed, -, hr⟩ := hstage
    have hack : s.ackRefreshRequest = false := Bool.eq_false_iff.2 fun ha => by
      simpa [hs, hn] using h.acked ha
    rw [hn]
    exact ⟨by rw [hb, hbusy], hclosed.congr hrow, MainIn.nextRefresh_of_up hx hr hack⟩

/-- **One edge of the main state machine.** -/
theorem Phase.move (h : Phase s x.refreshRequest c) (hx : x.initDone = true)
    (hm : MainFsm.Move s x s') : Goes c s' (x.nextRefresh s z) := by
  have hready := h.ready
  have hstage := h.stage
  cases hm with
  | rest hs hr he =>
    obtain ⟨hbusy, -, hclosed⟩ := (stage_idle hs).1 hstage
    refine goes_of_nop (command_nop _) hready (fun h => by cases h) fun c' hrow hb => ?_
    exact (stage_idle (by exact hs)).2 ⟨by rw [hb, hbusy], (fun ha => by cases ha),
      fun _ => (hclosed hr).congr hrow⟩
  | close hs hr =>
    obtain ⟨hbusy, hack, -⟩ := (stage_idle hs).1 hstage
    have hack' : s.ackRefreshRequest = false :=
      Bool.eq_false_iff.2 fun ha => Bool.false_ne_true ((hack ha).symm.trans hr)
    refine goes_of_nop (command_nop _) hready (fun h => by cases h) fun c' hrow hb => ?_
    exact ⟨by rw [hb, hbusy], rfl, Or.inr ⟨rfl, MainIn.nextRefresh_of_up hx hr hack'⟩⟩
  | start hs hr he =>
    obtain ⟨hbusy, -, hclosed⟩ := (stage_idle hs).1 hstage
    refine goes_of_nop (command_nop _) hready (fun h => by cases h) fun c' hrow hb => ?_
    exact ⟨rfl, by rw [hb, hbusy], (hclosed hr).congr hrow⟩
  | activate hs =>
    obtain ⟨hcs, hbusy, hclosed⟩ := (stage_activate hs).1 hstage
    refine goes_of_activate (by rw [MainFsm.csnDecode_of_selected hcs]) rfl rfl hclosed hbusy
      hready (h.not_acked (by simp [hs]) (by simp [hs])) fun c' hopen hb => ?_
    exact (stage_wait_serving rfl rfl).2 ⟨hcs, rfl, hb, hopen, rfl⟩
  | pause b hs hc =>
    have hn := h.next_of_pause hs hc
    obtain ⟨hbusy, hle, hclosed⟩ := (stage_wait_idle hs hn).1 hstage
    refine goes_of_nop (command_nop _) hready (fun _ => Or.inr ⟨hs, hn⟩) fun c' hrow hb => ?_
    refine (stage_wait_idle (by exact hs) (by exact hn)).2
      ⟨?_, ?_, fun hr => (hclosed (MainIn.of_nextRefresh hx hr)).congr hrow⟩
    · rw [hb, toNat_sub_one hc]
      omega
    · rw [toNat_sub_one hc]
      omega
  | resume b hs hc => exact h.resume hx hs hc
  | serveLast rd hs hp hr =>
    obtain ⟨hcs, hrd, hbusy, hopen⟩ := (stage_serving hs).1 hstage
    have hack := h.not_acked (hs ▸ MainFsm.serving_ne_idle) (hs ▸ MainFsm.serving_ne_wait)
    refine goes_of_serve hcs hopen hbusy hready rfl rfl rfl hack fun c' hrow hb => ?_
    refine (stage_wait_idle rfl rfl).2
      ⟨by rw [hb]; exact Nat.zero_le _, (by cases rd <;> simp),
        fun h => (MainIn.nextRefresh_not_down hx hr hack h).elim⟩
  | serveNext rd hs hp hr =>
    obtain ⟨hcs, hrd, hbusy, hopen⟩ := (stage_serving hs).1 hstage
    have hack := h.not_acked (hs ▸ MainFsm.serving_ne_idle) (hs ▸ MainFsm.serving_ne_wait)
    refine goes_of_serve hcs hopen hbusy hready rfl rfl rfl hack fun c' hrow hb => ?_
    exact (stage_serving (by exact hs)).2
      ⟨rfl, (MainFsm.pending_iff.1 hp).2.1.symm.trans hrd, hb, (hopen.of_pending hp).congr hrow⟩
  | serveOne rd hs hp hf =>
    obtain ⟨hcs, -, hbusy, hopen⟩ := (stage_serving hs).1 hstage
    have hack := h.not_acked (hs ▸ MainFsm.serving_ne_idle) (hs ▸ MainFsm.serving_ne_wait)
    refine goes_of_serve hcs hopen hbusy hready rfl rfl rfl hack fun c' hrow hb => ?_
    exact (stage_spin rfl).2 ⟨hcs, hb, hopen.congr hrow⟩
  | serveNone rd hs hp hf =>
    obtain ⟨hcs, -, hbusy, hopen⟩ := (stage_serving hs).1 hstage
    have hack := h.not_acked (hs ▸ MainFsm.serving_ne_idle) (hs ▸ MainFsm.serving_ne_wait)
    refine goes_of_nop (command_nop _) hready (MainFsm.acked_elim hack) fun c' hrow hb => ?_
    exact (stage_spin rfl).2 ⟨hcs, by rw [hb, hbusy], hopen.congr hrow⟩
  | recovering hs hc =>
    obtain ⟨-, -, -, hcount⟩ := (stage_recover hs).1 hstage
    rw [hcount] at hc
    exact absurd hc (by decide)
  | recovered hs hc =>
    obtain ⟨hcs, hn, hbusy, -⟩ := (stage_recover hs).1 hstage
    have hack := h.not_acked (by simp [hs]) (by simp [hs])
    refine goes_of_nop (command_nop _) hready (MainFsm.acked_elim hack) fun c' hrow hb => ?_
    exact ⟨by rw [hb, hbusy], rfl, Or.inl ⟨hn, hcs⟩⟩
  | precharge hs =>
    have hack := h.not_acked (by simp [hs]) (by simp [hs])
    unfold Stage at hstage
    rw [hs] at hstage
    obtain ⟨hbusy, hcount, hwhy⟩ := hstage
    have hcmd : (if x.refreshRequest then (⟨false, 2⟩ : Cmd) else ⟨s.csnDecode x, 2⟩) =
        ⟨false, 2⟩ := by
      rcases hwhy with ⟨-, hcs⟩ | ⟨-, hr⟩
      · rw [MainFsm.csnDecode_of_selected hcs, ite_self]
      · rw [if_pos hr]
    refine goes_of_precharge hcmd rfl hbusy hready hack fun c' hclosed hb => ?_
    rcases hwhy with ⟨hn, -⟩ | ⟨hn, hr⟩
    · exact (stage_wait_idle rfl (by exact hn)).2
        ⟨by rw [hb]; exact Nat.zero_le _, by rw [hcount]; decide, fun _ => hclosed⟩
    · unfold Stage
      rw [hn]
      exact ⟨hb, hclosed, hcount, MainIn.nextRefresh_of_up hx hr hack⟩
  | refresh hs =>
    unfold Stage at hstage
    rw [hs] at hstage
    obtain ⟨hbusy, hclosed, -⟩ := hstage
    refine goes_of_refresh rfl hclosed hbusy hready rfl rfl fun c' hclosed' hb => ?_
    exact (stage_wait_idle rfl rfl).2 ⟨by rw [hb]; rfl, by simp, fun _ => hclosed'⟩
  | leave hs hr =>
    obtain ⟨-, hbusy, -⟩ := (stage_spin hs).1 hstage
    have hack := h.not_acked (by simp [hs]) (by simp [hs])
    refine goes_of_nop (command_nop _) hready (MainFsm.acked_elim hack) fun c' hrow hb => ?_
    refine (stage_wait_idle rfl rfl).2 ⟨by rw [hb, hbusy]; exact Nat.zero_le _, by simp,
        fun h => (MainIn.nextRefresh_not_down hx hr hack h).elim⟩
  | again hs hr hp =>
    obtain ⟨-, hbusy, hopen⟩ := (stage_spin hs).1 hstage
    have hack := h.not_acked (by simp [hs]) (by simp [hs])
    refine goes_of_nop (command_nop _) hready (MainFsm.acked_elim hack) fun c' hrow hb => ?_
    exact (stage_serving rfl).2 ⟨rfl, rfl, by rw [hb, hbusy], (hopen.of_pending hp).congr hrow⟩
  | other hs hr he hp =>
    obtain ⟨hcs, hbusy, -⟩ := (stage_spin hs).1 hstage
    have hack := h.not_acked (by simp [hs]) (by simp [hs])
    refine goes_of_nop (command_nop _) hready (MainFsm.acked_elim hack) fun c' hrow hb => ?_
    exact ⟨hcs, rfl, by rw [hb, hbusy], rfl⟩
  | stay hs hr he =>
    obtain ⟨hcs, hbusy, hopen⟩ := (stage_spin hs).1 hstage
    have hack := h.not_acked (by simp [hs]) (by simp [hs])
    refine goes_of_nop (command_nop _) hready (MainFsm.acked_elim hack) fun c' hrow hb => ?_
    exact (stage_spin (by exact hs)).2 ⟨hcs, by rw [hb, hbusy], hopen.congr hrow⟩

end Phases

/-! ### The board -/

/-- What the wires show at the next edge of the power-up sequence. -/
def SdramController.nextPins (s : SdramController) : Pins :=
  ⟨s.init.cmd, s.main.bank, s.init.addr, s.main.data, s.main.dqm⟩

/-- The power-up sequence neither reads nor writes. -/
lemma Cmd.Quiet.edge {s : InitFsm} {zero : Bool} (h : s.cmd.Quiet) : (s.edge zero).cmd.Quiet := by
  unfold InitFsm.edge
  cases s.state with
  | wait =>
    change (if _ then _ else _ : InitFsm).cmd.Quiet
    split_ifs
    · exact Cmd.quiet_nop
    · exact Cmd.quiet_nop
  | done => exact h
  | hold => exact Cmd.quiet_nop
  | precharge | refresh | loadMode => exact ⟨by simp, by simp⟩

/-- The controller during the power-up sequence. -/
structure PoweringUp (s : SdramController) (c : Chip) : Prop where
  idle : s.main.state = .idle
  ack : s.main.ackRefreshRequest = false
  refresh : s.refreshRequest = false
  quiet : s.init.cmd.Quiet
  allows : c.Allows s.nextPins
  phase : PowerPhase s.init s.refreshCounter (c.edge s.nextPins)

/-- The controller fits the chip to which the command on the wires has come. -/
def Fits (s : SdramController) (c : Chip) : Prop :=
  if s.initDone then Phase s.main s.refreshRequest c else PoweringUp s c

section Board

variable {s : SdramController} {i : SlaveIn} {c : Chip} {w : BitVec 16}

lemma Fits.phase (h : Fits s c) (hd : s.initDone = true) : Phase s.main s.refreshRequest c := by
  unfold Fits at h
  rwa [hd, if_pos rfl] at h

lemma Fits.poweringUp (h : Fits s c) (hd : s.initDone = false) : PoweringUp s c := by
  unfold Fits at h
  rwa [hd, if_neg Bool.false_ne_true] at h

/-- What the power-up sequence does to the main state machine. -/
lemma MainFsm.edge_of_idle {x : MainIn} {s : MainFsm} (hx : x.initDone = false)
    (hs : s.state = .idle) : s.edge x = { s with
      fPop := false, oe := false, addr := x.iAddr, state := .idle, next := .idle, cmd := x.iCmd } := by
  unfold edge
  rw [hs]
  exact if_neg (by simp [hx])

/-- One clock of the power-up sequence in the controller. -/
lemma PoweringUp.edge_main (h : PoweringUp s c) (hd : s.initDone = false) :
    (s.edge i w).main.pins = s.nextPins ∧ (s.edge i w).main.state = .idle ∧
      (s.edge i w).main.ackRefreshRequest = false ∧ (s.edge i w).refreshRequest = false := by
  have hmain : (s.edge i w).main = _ := MainFsm.edge_of_idle (x := s.mainIn) hd h.idle
  refine ⟨?_, ?_, ?_, ?_⟩
  · rw [hmain]
    rfl
  · rw [hmain]
  · rw [hmain]
    exact h.ack
  · change (_ && s.initDone) = false
    rw [hd, Bool.and_false]

/-- **One clock** of the board. -/
theorem Fits.edge (h : Fits s c) : c.Allows (s.edge i w).main.pins ∧
    Fits (s.edge i w) (c.edge (s.edge i w).main.pins) := by
  cases hd : s.initDone with
  | true =>
    have hdone : (s.edge i w).initDone = true := by
      change (s.initDone || _) = true
      rw [hd, Bool.true_or]
    have hm := (h.phase hd).move (x := s.mainIn) (z := decide (s.refreshCounter = 0)) hd
      (MainFsm.moves hd)
    unfold Fits
    rw [hdone, if_pos rfl]
    exact hm
  | false =>
    replace h := h.poweringUp hd
    obtain ⟨hpins, hstate, hack, hrefresh⟩ := h.edge_main (i := i) (w := w) hd
    have hdone : (s.edge i w).initDone = decide (s.init.state = .done) := by
      change (s.initDone || _) = _
      rw [hd, Bool.false_or]
    unfold Fits
    rw [hpins, hdone]
    refine ⟨h.allows, ?_⟩
    split_ifs with hlast
    · have hphase := h.phase
      unfold PowerPhase at hphase
      rw [of_decide_eq_true hlast] at hphase
      obtain ⟨hbusy, hclosed, -, hready, -⟩ := hphase
      exact ⟨hready, fun _ => Or.inl hstate,
        (stage_idle hstate).2 ⟨hbusy, fun _ => hrefresh, fun _ => hclosed⟩⟩
    · have hnext := h.phase.edge (p := (s.edge i w).nextPins) rfl rfl
      exact ⟨hstate, hack, hrefresh, h.quiet.edge, hnext.1, hnext.2⟩

lemma fits_reset (p : PowerUp) (openRow : BitVec 2 → Option (BitVec 13))
    (cells : BitVec 25 → BitVec 16) :
    Fits (.reset p) ((Chip.powerUp openRow cells).edge (SdramController.reset p).main.pins) := by
  have hidle (c : Chip) : c.Idles (SdramController.reset p).nextPins := Chip.idles rfl
  refine ⟨rfl, rfl, rfl, Cmd.quiet_nop, (hidle _).allows, ?_⟩
  change Chip.busy _ ≤ 5000
  rw [(hidle _).busy]
  exact (Nat.sub_le _ _).trans (Nat.sub_le _ _)

end Board

end VideoPipeline.Sdram

import VideoPipeline.Sdram.Refresh

/-!
The controller with a memory device of which only the data sheet is known: how it keeps, writes
and shows its words as long as the rules are kept and the refreshes come. The rules are those of
`Chip`, whatever its words are. The device then drives the data pins as the chip does whenever
the controller reads them, so the controller has the states that it has with the chip, and the
two together are a memory.
-/

namespace VideoPipeline.Sdram

open VideoPipeline.Lib

variable {δ : Type}

/-! ### Data sheets -/

/-- A memory device: what a clock does to it, and what it drives the data pins with. -/
structure Device (δ : Type) where
  edge : δ → Pins → δ
  drives : δ → Option (BitVec 16)

/-- The rows, the mode, the refreshes and the times after the first `n` clocks. -/
def rulesAt (openRow : BitVec 2 → Option (BitVec 13)) (pins : ℕ → Pins) : ℕ → Chip :=
  run Chip.edge (.powerUp openRow fun _ => 0) pins

/-- Every command up to clock `n` is allowed, and the refreshes come at the rate of
`system.qsys`. -/
def Proper (openRow : BitVec 2 → Option (BitVec 13)) (pins : ℕ → Pins) (n : ℕ) : Prop :=
  ∀ m ≤ n, (rulesAt openRow pins m).Allows (pins m) ∧
    (5018 ≤ m → 1 + (m - 5002) / 782 ≤ (rulesAt openRow pins m).refreshes)

/-- The address of a read or a write, while `row` is open in its bank. -/
def Pins.cell (p : Pins) (row : BitVec 13) : BitVec 25 :=
  cellOf p.bank row (p.addr.extractLsb' 0 10)

/-- **The data sheet.** In proper use a word stays as it is until it is written, a write replaces
the bytes that are not masked, and the word of a read is on the data pins three clocks later, if
it is not masked in the clock after the read and no write comes in between. -/
structure Device.Datasheet (d : Device δ) (start : δ) (openRow : BitVec 2 → Option (BitVec 13))
    (word : δ → BitVec 25 → BitVec 16) : Prop where
  keeps : ∀ pins n, Proper openRow pins n → (pins n).cmd.command ≠ .write →
    word (run d.edge start pins (n + 1)) = word (run d.edge start pins n)
  writes : ∀ pins n row, Proper openRow pins n → (pins n).cmd.command = .write →
    (rulesAt openRow pins n).openRow (pins n).bank = some row →
      word (run d.edge start pins (n + 1)) =
        Function.update (word (run d.edge start pins n)) ((pins n).cell row)
          (masked (pins n).dqm (pins n).data (word (run d.edge start pins n) ((pins n).cell row)))
  shows : ∀ pins n row, Proper openRow pins (n + 3) → (pins n).cmd.command = .read →
    (rulesAt openRow pins n).openRow (pins n).bank = some row → (pins (n + 1)).dqm = 0 →
      (∀ m, n < m → m ≤ n + 3 → (pins m).cmd.command ≠ .write) →
        d.drives (run d.edge start pins (n + 3)) =
          some (word (run d.edge start pins n) ((pins n).cell row))

/-! ### The controller with a device -/

structure Assembly (δ : Type) where
  ctl : SdramController
  dev : δ

namespace Assembly

variable (s : Assembly δ) (d : Device δ)

/-- `zs_dq`, which shows `float` when neither side drives it. -/
def zsDq (float : BitVec 16) : BitVec 16 :=
  if s.ctl.main.oe then s.ctl.main.data else (d.drives s.dev).getD float

/-- One rising edge of `clk`. -/
def edge (i : BoardIn) : Assembly δ :=
  ⟨s.ctl.edge i.slave (s.zsDq d i.float), d.edge s.dev s.ctl.main.pins⟩

end Assembly

section Assembly

variable (d : Device δ) (p : PowerUp) (start : δ) (inp : ℕ → BoardIn)

/-- The controller and the device after `n` clocks from reset. -/
def assemblyAt : ℕ → Assembly δ := run (fun s i => s.edge d i) ⟨.reset p, start⟩ inp

/-- The requests accepted in the first `n` clocks. -/
def acceptedWith (n : ℕ) : List Request :=
  history (fun m => (assemblyAt d p start inp m).ctl.accepting (inp m).slave) n

/-- The words shown in the first `n` clocks. -/
def shownWith (n : ℕ) : List (BitVec 16) :=
  history (fun m => (assemblyAt d p start inp m).ctl.giving) n

/-- The inputs, with what the device drives the data pins with. -/
def seenWith (n : ℕ) : BoardIn :=
  ⟨(inp n).slave, (d.drives (assemblyAt d p start inp n).dev).getD (inp n).float⟩

end Assembly

/-! ### The rules and the words -/

/-- Two chips that differ in their words at most. -/
structure Chip.SameRules (c c' : Chip) : Prop where
  openRow : c.openRow = c'.openRow
  mode : c.mode = c'.mode
  refreshes : c.refreshes = c'.refreshes
  busy : c.busy = c'.busy

section Rules

variable {c c' : Chip} {p : Pins} {openRow : BitVec 2 → Option (BitVec 13)} {pins : ℕ → Pins}

lemma Chip.SameRules.edge (h : c.SameRules c') : (c.edge p).SameRules (c'.edge p) := by
  obtain ⟨hrow, hmode, hrefs, hbusy⟩ := h
  refine ⟨?_, ?_, ?_, ?_⟩
  · simp only [Chip.edge, Chip.rows, hrow]
  · simp only [Chip.edge, hmode]
  · simp only [Chip.edge, hrefs]
  · simp only [Chip.edge, hbusy]

lemma Chip.SameRules.allows (h : c.SameRules c') (ha : c.Allows p) : c'.Allows p := by
  unfold Chip.Allows Chip.Closed Chip.Ready at *
  rwa [← h.openRow, ← h.mode, ← h.refreshes, ← h.busy]

/-- The rules do not depend on the words. -/
lemma sameRules_rulesAt (cells : BitVec 25 → BitVec 16) (n : ℕ) :
    (run Chip.edge (.powerUp openRow cells) pins n).SameRules (rulesAt openRow pins n) := by
  induction n with
  | zero => exact ⟨rfl, rfl, rfl, rfl⟩
  | succ n ih => exact ih.edge

/-- The words of a chip change with a write only. -/
lemma Chip.cells_edge (hw : p.cmd.command ≠ .write) : (c.edge p).cells = c.cells := by
  change (c.access p).foldl Op.act c.cells = c.cells
  unfold access
  split
  · rfl
  · next h _ => exact absurd h hw
  · rfl

lemma Chip.cells_write {row : BitVec 13} (hw : p.cmd.command = .write)
    (hrow : c.openRow p.bank = some row) : (c.edge p).cells =
      Function.update c.cells (p.cell row) (masked p.dqm p.data (c.cells (p.cell row))) := by
  change (c.access p).foldl Op.act c.cells = _
  rw [access_of_write hw hrow]
  rfl

lemma Chip.q0_read {row : BitVec 13} (hr : p.cmd.command = .read)
    (hrow : c.openRow p.bank = some row) :
    (c.edge p).q0 = some (c.cells (p.cell row)) := by
  change (replies Op.act Op.reply c.cells (c.access p)).head? = _
  rw [access_of_read hr hrow]
  rfl

/-- Only a read brings a word on its way. -/
lemma Chip.read_of_q0 {w : BitVec 16} (h : (c.edge p).q0 = some w) :
    p.cmd.command = .read ∧ ∃ row, c.openRow p.bank = some row ∧ w = c.cells (p.cell row) := by
  change (replies Op.act Op.reply c.cells (c.access p)).head? = _ at h
  unfold access at h
  split at h
  · next row hr hrow => exact ⟨hr, row, hrow, (Option.some.inj h).symm⟩
  · cases h
  · cases h

/-- The words that a chip shows are those of the reads three clocks ago. -/
lemma Chip.read_of_q2 {cells : BitVec 25 → BitVec 16} {n : ℕ} {w : BitVec 16}
    (h : (run Chip.edge (.powerUp openRow cells) pins n).q2 = some w) : ∃ m row, n = m + 3 ∧
      (pins m).cmd.command = .read ∧ (pins (m + 1)).dqm = 0 ∧
        (run Chip.edge (.powerUp openRow cells) pins m).openRow (pins m).bank = some row ∧
          w = (run Chip.edge (.powerUp openRow cells) pins m).cells ((pins m).cell row) := by
  match n, h with
  | 0, h => cases h
  | 1, h => cases h
  | 2, h =>
    obtain ⟨-, h0⟩ := Option.ite_none_right_eq_some.1 h
    cases h0
  | m + 3, h =>
    obtain ⟨hdqm, h0⟩ := Option.ite_none_right_eq_some.1 h
    obtain ⟨hr, row, hrow, hw⟩ := Chip.read_of_q0 h0
    exact ⟨m, row, rfl, hr, hdqm, hrow, hw⟩

end Rules

/-! ### The device on the wires -/

/-- Only the state for writes puts a write on the wires. -/
lemma state_of_write {s : Board} {i : SlaveIn} {w : BitVec 16} (hfit : Fits s.ctl s.served)
    (hw : (s.edge i w).ctl.main.cmd.command = .write) : s.ctl.main.state = .write := by
  cases hd : s.ctl.initDone with
  | true =>
    have hm := MainFsm.moves (s := s.ctl.main) (x := s.ctl.mainIn) hd
    rcases hm.wires with ⟨-, hq⟩ | ⟨rd, hs, -, hpins⟩
    · exact absurd hw hq.command.2
    · have hcmd : (s.edge i w).ctl.main.cmd = (s.ctl.main.serve s.ctl.mainIn rd).cmd :=
        congrArg Pins.cmd hpins
      rw [hcmd] at hw
      cases rd with
      | false => exact hs
      | true =>
        change (⟨s.ctl.main.csnDecode s.ctl.mainIn, 5⟩ : Cmd).command = .write at hw
        cases hcs : s.ctl.main.csnDecode s.ctl.mainIn <;> rw [hcs] at hw <;> cases hw
  | false =>
    replace hfit := hfit.poweringUp hd
    have hmain : (s.edge i w).ctl.main = _ :=
      MainFsm.edge_of_idle (x := s.ctl.mainIn) hd hfit.idle
    rw [hmain] at hw
    exact absurd hw hfit.quiet.command.2

/-- No write is on the wires while a word is on its way. -/
lemma Sound.not_write {s : Board} {i : SlaveIn} {w : BitVec 16} (h : Sound s)
    (hq : s.served.q0.isSome = true ∨ s.served.q1.isSome = true ∨ s.served.q2.isSome = true) :
    (s.edge i w).ctl.main.cmd.command ≠ .write := by
  intro hw
  have hs := state_of_write h.fits hw
  have hread : ¬ s.ctl.main.Reading := by
    rintro (h | ⟨h, -⟩ | ⟨h, -⟩) <;> exact absurd (hs.symm.trans h) (by decide)
  rcases hq with hq | hq | hq
  · exact hread (h.lanes.out0 hq).2
  · rcases h.lanes.out1 hq with h | h | h
    · exact hread h
    · exact absurd (hs.symm.trans h) (by decide)
    · exact absurd (hs.symm.trans h) (by decide)
  · exact h.lanes.out2 hq hs

section Wires

variable (p : PowerUp) (openRow : BitVec 2 → Option (BitVec 13)) (cells : BitVec 25 → BitVec 16)
  (inp : ℕ → BoardIn)

/-- What the board has on the wires. -/
def wires (n : ℕ) : Pins := (boardAt p openRow cells inp n).ctl.main.pins

lemma chip_boardAt (n : ℕ) : (boardAt p openRow cells inp n).chip =
    run Chip.edge (.powerUp openRow cells) (wires p openRow cells inp) n := by
  induction n with
  | zero => rfl
  | succ n ih =>
    rw [run_succ, ← ih]
    rfl

lemma sameRules_wires (n : ℕ) : (boardAt p openRow cells inp n).chip.SameRules
    (rulesAt openRow (wires p openRow cells inp) n) := by
  rw [chip_boardAt]
  exact sameRules_rulesAt cells n

lemma proper_wires (n : ℕ) : Proper openRow (wires p openRow cells inp) n := by
  intro m _
  have hrules := sameRules_wires p openRow cells inp m
  refine ⟨hrules.allows (boardAt_sound p openRow cells inp m).allows, fun hm => ?_⟩
  rw [← hrules.refreshes]
  exact le_refreshes_boardAt p openRow cells inp hm

lemma openRow_wires {n : ℕ} {bank : BitVec 2} {row : BitVec 13}
    (h : (boardAt p openRow cells inp n).chip.openRow bank = some row) :
    (rulesAt openRow (wires p openRow cells inp) n).openRow bank = some row := by
  rw [← (sameRules_wires p openRow cells inp n).openRow, h]

end Wires

namespace Device.Datasheet

variable {d : Device δ} {start : δ} {openRow : BitVec 2 → Option (BitVec 13)}
  {word : δ → BitVec 25 → BitVec 16} (h : d.Datasheet start openRow word) (p : PowerUp)
  (inp : ℕ → BoardIn)

include h

/-- The device has the words of the chip. -/
lemma word_eq (n : ℕ) : word (run d.edge start (wires p openRow (word start) inp) n) =
    (boardAt p openRow (word start) inp n).chip.cells := by
  induction n with
  | zero => rfl
  | succ n ih =>
    have hproper := proper_wires p openRow (word start) inp n
    change _ = ((boardAt p openRow (word start) inp n).chip.edge
      (wires p openRow (word start) inp n)).cells
    by_cases hw : (wires p openRow (word start) inp n).cmd.command = .write
    · have hallows : (boardAt p openRow (word start) inp n).chip.Allows
          (wires p openRow (word start) inp n) :=
        (boardAt_sound p openRow (word start) inp n).allows
      unfold Chip.Allows at hallows
      rw [hw] at hallows
      obtain ⟨row, hrow⟩ := Option.ne_none_iff_exists'.1 hallows.2.2.1
      rw [h.writes _ n row hproper hw (openRow_wires p openRow (word start) inp hrow),
        Chip.cells_write hw hrow, ih]
    · rw [h.keeps _ n hproper hw, Chip.cells_edge hw, ih]

/-- Whenever the chip shows a word, the device does. -/
lemma drives_eq {n : ℕ} {w : BitVec 16}
    (hq : (boardAt p openRow (word start) inp n).chip.q2 = some w) :
    d.drives (run d.edge start (wires p openRow (word start) inp) n) = some w := by
  have hsound := boardAt_sound p openRow (word start) inp
  have hchip := chip_boardAt p openRow (word start) inp
  rw [hchip] at hq
  obtain ⟨m, row, rfl, hr, hdqm, hrow, rfl⟩ := Chip.read_of_q2 hq
  rw [← hchip] at hrow
  -- the word is on its way in the chip, so no write is on the wires
  have hq1 : (boardAt p openRow (word start) inp (m + 1)).chip.q0.isSome = true := by
    rw [hchip, run_succ, Chip.q0_read hr (by rw [← hchip, hrow])]
    rfl
  have hq2 : (boardAt p openRow (word start) inp (m + 2)).chip.q1.isSome = true := by
    change (if (wires p openRow (word start) inp (m + 1)).dqm = 0 then
      (boardAt p openRow (word start) inp (m + 1)).chip.q0 else none).isSome = true
    rwa [if_pos hdqm]
  rw [← hchip, ← h.word_eq p inp m]
  refine h.shows _ m row (proper_wires p openRow (word start) inp (m + 3)) hr
    (openRow_wires p openRow (word start) inp hrow) hdqm fun k h1 h2 => ?_
  obtain rfl | rfl | rfl : k = m + 1 ∨ k = m + 2 ∨ k = m + 3 := by omega
  · exact (hsound m).not_write (Or.inl hq1)
  · exact (hsound (m + 1)).not_write (Or.inr (Or.inl hq2))
  · exact (hsound (m + 2)).not_write (Or.inr (Or.inr hq2))

/-- **With the device the controller has the states that it has with the chip**, when what the
device drives the pins with besides the words of reads is taken as coming in. -/
theorem follows (n : ℕ) : (assemblyAt d p start inp n).ctl =
      (boardAt p openRow (word start) (seenWith d p start inp) n).ctl ∧
    (assemblyAt d p start inp n).dev =
      run d.edge start (wires p openRow (word start) (seenWith d p start inp)) n := by
  induction n with
  | zero => exact ⟨rfl, rfl⟩
  | succ n ih =>
    obtain ⟨hctl, hdev⟩ := ih
    have hdq : (assemblyAt d p start inp n).zsDq d (inp n).float =
        (boardAt p openRow (word start) (seenWith d p start inp) n).zsDq
          (seenWith d p start inp n).float := by
      unfold Assembly.zsDq Board.zsDq
      rw [hctl]
      cases hq : (boardAt p openRow (word start) (seenWith d p start inp) n).chip.q2 with
      | none => rfl
      | some w => rw [hdev, h.drives_eq p _ hq, Option.getD_some, Option.getD_some]
    constructor
    · change (assemblyAt d p start inp n).ctl.edge (inp n).slave
        ((assemblyAt d p start inp n).zsDq d (inp n).float) = _
      rw [hdq, hctl]
      rfl
    · change d.edge (assemblyAt d p start inp n).dev (assemblyAt d p start inp n).ctl.main.pins = _
      rw [hdev, hctl]
      rfl

end Device.Datasheet

/-! ### A device -/

/-- The chip of the rules, with its words. -/
def chipDevice : Device Chip := ⟨Chip.edge, Chip.q2⟩

lemma datasheet_chipDevice (openRow : BitVec 2 → Option (BitVec 13))
    (cells : BitVec 25 → BitVec 16) :
    chipDevice.Datasheet (.powerUp openRow cells) openRow Chip.cells where
  keeps _ _ _ hw := Chip.cells_edge hw
  writes _ n _ _ hw hrow := Chip.cells_write hw ((sameRules_rulesAt cells n).openRow ▸ hrow)
  shows pins n row _ hr hrow hdqm _ := by
    rw [← (sameRules_rulesAt cells n).openRow] at hrow
    change (if (pins (n + 1)).dqm = 0 then
      (run Chip.edge (.powerUp openRow cells) pins (n + 1)).q0 else none) = _
    rw [if_pos hdqm, run_succ, Chip.q0_read hr hrow]
    rfl

/-- The low byte of a word is written, and the word is read. -/
def writeThenRead (n : ℕ) : BoardIn :=
  if n = 0 then ⟨⟨5, 0b10, 0xBEEF, true, false⟩, 0⟩
  else if n = 1 then ⟨⟨5, 0, 0, false, true⟩, 0⟩
  else ⟨⟨0, 0, 0, true, true⟩, 0⟩

/-- All words are zero, and so are the registers. -/
def zeroChip : Chip := .powerUp (fun _ => none) fun _ => 0

def zeroPowerUp : PowerUp := ⟨⟨false, 0, 0, 0⟩, ⟨false, 0, 0, 0⟩, 0, false, ⟨false, 0, 0, 0⟩⟩

lemma accepted_writeThenRead {n : ℕ} (hn : 2 ≤ n) :
    acceptedWith chipDevice zeroPowerUp zeroChip writeThenRead n =
      [⟨false, 5, 0b10, 0xBEEF⟩, ⟨true, 5, 0, 0⟩] := by
  induction n, hn using Nat.le_induction with
  | base => decide
  | succ n hn ih =>
    unfold acceptedWith at ih ⊢
    have hidle : writeThenRead n = ⟨⟨0, 0, 0, true, true⟩, 0⟩ := by
      unfold writeThenRead
      rw [if_neg (by omega), if_neg (by omega)]
    rw [history_succ, ih, hidle]
    rfl

lemma datasheet_zeroChip : chipDevice.Datasheet zeroChip (fun _ => none) Chip.cells :=
  datasheet_chipDevice _ _

end VideoPipeline.Sdram

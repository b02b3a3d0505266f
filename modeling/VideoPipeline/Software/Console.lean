import VideoPipeline.Lib.Bits
import VideoPipeline.Software.Program

/-!
The devices of the program (`system_jtag_uart_0.v`, `system_pio_img_load.v`, `system_pio_sw.v`).
The UART keeps the keys typed until the program reads them, one a turn, and the register of the
PIO shows what the program wrote last. So the display is as the last key asked for that has been
read, and no key is read twice, left out or overtaken.
-/

namespace VideoPipeline.Software

open VideoPipeline.Lib

/-! ### The devices -/

/-- What a read of the data register of the UART shows beside the key. -/
structure UartStatus where
  rfifoFull : Bool
  rfifoUsed : BitVec 6
  woverflow : Bool
  fifoFF : Bool
  fifoEF : Bool
  ac : Bool
  ipenAE : Bool
  ipenAF : Bool
  /-- what `fifo_rdata` shows when no key was there -/
  fifoRdata : BitVec 8
deriving DecidableEq, Repr

/-- `av_readdata` in a read of register 0 that finds the keys `rfifo`. -/
def avReaddata (u : UartStatus) (rfifo : List (BitVec 8)) : BitVec 32 :=
  0#9 ++ BitVec.ofBool u.rfifoFull ++ u.rfifoUsed ++ BitVec.ofBool (!rfifo.isEmpty) ++
    BitVec.ofBool u.woverflow ++ BitVec.ofBool (!u.fifoFF) ++ BitVec.ofBool (!u.fifoEF) ++ 0#1 ++
      BitVec.ofBool u.ac ++ BitVec.ofBool u.ipenAE ++ BitVec.ofBool u.ipenAF ++
        rfifo.headD u.fifoRdata

/-- `readdata` of the PIO of the switches. -/
def pioSw (inPort : BitVec 10) : BitVec 32 := inPort.setWidth 32

/-- `data_out` of the PIO of the display, after an action of the program. -/
def pioImgLoad (dataOut : Bool) : Action → Bool
  | .imgLoad writedata => writedata.getLsbD 0
  | .printf _ _ => dataOut

/-- `img_load_export` after the actions `as`. -/
def imgLoaded (as : List Action) : Bool := as.foldl pioImgLoad false

/-- What comes in for one turn of the loop: the keys typed since the last one, what else the UART
shows, and the switches. -/
structure TurnIn where
  typed : List (BitVec 8)
  uart : UartStatus
  sw : BitVec 10

/-- What the turns read when the keys `rfifo` wait at first, and the keys that wait at last. -/
def polls (rfifo : List (BitVec 8)) : List TurnIn → List Poll × List (BitVec 8)
  | [] => ([], rfifo)
  | i :: is =>
    let next := polls (rfifo ++ i.typed).tail is
    (⟨avReaddata i.uart (rfifo ++ i.typed), pioSw i.sw⟩ :: next.1, next.2)

/-! ### The keys -/

/-- `rvalid` is bit 15 of the register, and the key its low byte. -/
lemma command_avReaddata (u : UartStatus) (rfifo : List (BitVec 8)) (sw : BitVec 32) :
    Poll.command ⟨avReaddata u rfifo, sw⟩ = rfifo.head?.bind command := by
  have hvalid : (avReaddata u rfifo).getLsbD 15 = !rfifo.isEmpty := by
    refine (getLsbD_append_high _ _ 7).trans ((getLsbD_append_high _ _ 6).trans
      ((getLsbD_append_high _ _ 5).trans ((getLsbD_append_high _ _ 4).trans
        ((getLsbD_append_high _ _ 3).trans ((getLsbD_append_high _ _ 2).trans
          ((getLsbD_append_high _ _ 1).trans ((getLsbD_append_high _ _ 0).trans
            ((getLsbD_append_low _ _ Nat.zero_lt_one).trans ?_))))))))
    cases rfifo.isEmpty <;> rfl
  have hkey : (avReaddata u rfifo).setWidth 8 = rfifo.headD u.fifoRdata :=
    BitVec.setWidth_append_eq_right
  rw [Poll.command, hvalid, hkey]
  cases rfifo <;> rfl

/-- What the keys read and the keys that wait ask for is what the keys typed asked for. -/
theorem commands_polls (rfifo : List (BitVec 8)) (is : List TurnIn) :
    (polls rfifo is).1.filterMap Poll.command ++ (polls rfifo is).2.filterMap command =
      (rfifo ++ is.flatMap TurnIn.typed).filterMap command := by
  induction is generalizing rfifo with
  | nil => simp [polls]
  | cons i is ih =>
    have hhead := command_avReaddata i.uart (rfifo ++ i.typed) (pioSw i.sw)
    rw [polls, List.filterMap_cons, hhead, List.flatMap_cons, ← List.append_assoc]
    have := ih (rfifo ++ i.typed).tail
    cases hq : rfifo ++ i.typed with
    | nil =>
      rw [hq] at this
      exact this
    | cons c cs =>
      rw [hq, List.tail_cons] at this
      rw [List.cons_append, List.filterMap_cons, ← this, List.tail_cons, List.head?_cons]
      cases hc : command c <;> simp [hc]

/-! ### The display -/

lemma foldl_executed (b on : Bool) : (executed on).foldl pioImgLoad b = on := by
  cases on <;> rfl

lemma foldl_announced (b : Bool) (m : BitVec 2) : (announced m).foldl pioImgLoad b = b := by
  revert b m
  decide

lemma foldl_loop (b : Bool) (m : BitVec 2) (ps : List Poll) :
    (loop (m.setWidth 32) ps).foldl pioImgLoad b = (ps.filterMap Poll.command).getLastD b := by
  induction ps generalizing b m with
  | nil => rfl
  | cons p ps ih =>
    have hkey : (p.command.toList.flatMap executed).foldl pioImgLoad b = p.command.getD b := by
      cases p.command with
      | none => rfl
      | some on => simpa using foldl_executed b on
    have hsw (b : Bool) : (if m ≠ mode p.sw then announced (mode p.sw) else []).foldl pioImgLoad b =
        b := by
      split_ifs
      · exact foldl_announced _ _
      · rfl
    rw [loop_cons, List.foldl_append, List.foldl_append, hkey, hsw, ih, List.filterMap_cons]
    cases p.command with
    | none => rfl
    | some on => rw [Option.getD_some, List.getLastD_cons]

/-- **The display is as asked last**; it is off when nothing has been asked. -/
theorem imgLoaded_main (sw : BitVec 32) (ps : List Poll) :
    imgLoaded (main sw ps) = (ps.filterMap Poll.command).getLastD false := by
  have hfirst (b : Bool) (m : BitVec 2) : [modeLine m].foldl pioImgLoad b = b := by
    revert b m
    decide
  rw [imgLoaded, main, and_three, printMode_eq, List.foldl_append, List.foldl_append,
    List.foldl_append, hfirst, foldl_loop]
  rfl

/-! ### The display from turn to turn -/

section Loaded

variable {sw : BitVec 32} {ps : ℕ → Poll} {a b n : ℕ}

/-- `img_load_export` after `n` turns. -/
def loaded (sw : BitVec 32) (ps : ℕ → Poll) (n : ℕ) : Bool :=
  imgLoaded (main sw ((List.range n).map ps))

lemma loaded_succ (n : ℕ) : loaded sw ps (n + 1) = (ps n).command.getD (loaded sw ps n) := by
  rw [loaded, loaded, imgLoaded_main, imgLoaded_main, List.range_succ, List.map_append,
    List.filterMap_append]
  cases h : (ps n).command <;> simp [h]

/-- Between a key for off and the next one for on the display is off. -/
lemma loaded_of_off (ha : (ps a).command = some false)
    (hno : ∀ n, a < n → n < b → (ps n).command ≠ some true) (han : a < n) (hnb : n ≤ b) :
    loaded sw ps n = false := by
  induction n, han using Nat.le_induction with
  | base => rw [loaded_succ, ha, Option.getD_some]
  | succ n han ih =>
    rw [loaded_succ, ih (by omega)]
    cases h : (ps n).command with
    | none => rfl
    | some on =>
      cases on with
      | false => rfl
      | true => exact absurd h (hno n han (by omega))

/-- After a key for on, if none for off comes, it is on. -/
lemma loaded_of_on (hb : (ps b).command = some true) (hno : ∀ n > b, (ps n).command ≠ some false)
    (hbn : b < n) : loaded sw ps n = true := by
  induction n, hbn using Nat.le_induction with
  | base => rw [loaded_succ, hb, Option.getD_some]
  | succ n hbn ih =>
    rw [loaded_succ, ih]
    cases h : (ps n).command with
    | none => rfl
    | some on =>
      cases on with
      | false => exact absurd h (hno n hbn)
      | true => rfl

end Loaded

/-- **Every key is obeyed once**, in the order typed: at any time the program has executed and
reported a part of what was asked for, the rest waits in the UART, and the display is as the last
command of that part asks. -/
theorem console (sw : BitVec 10) (is : List TurnIn) : ∃ done : List Bool,
    done ++ (polls [] is).2.filterMap command = (is.flatMap TurnIn.typed).filterMap command ∧
      (main (pioSw sw) (polls [] is).1).filter (OfDisplay ·) = .imgLoad 0 :: done.flatMap executed ∧
        imgLoaded (main (pioSw sw) (polls [] is).1) = done.getLastD false :=
  ⟨_, commands_polls [] is, filter_ofDisplay _ _, imgLoaded_main _ _⟩

end VideoPipeline.Software

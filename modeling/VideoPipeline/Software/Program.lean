import Mathlib.Data.BitVec
import Mathlib.Data.List.Destutter

/-!
`source.c`: the program of the processor. It prints its instructions, switches the display off,
and then polls the keyboard and the switches for ever: a key turns the display on or off, and a
new position of the switches is announced. What it has done after some turns of the loop is the
list of its writes and lines, in order.
-/

namespace VideoPipeline.Software

/-! ### The program -/

/-- What the program does to the outside. -/
inductive Action
  /-- `IOWR_ALTERA_AVALON_PIO_DATA(PIO_IMG_LOAD_BASE, data)` -/
  | imgLoad (data : BitVec 32)
  | printf (format : String) (args : List (BitVec 32))
deriving DecidableEq, Repr

open VideoPipeline.Software.Action

def printMode (swVal : BitVec 32) : List Action :=
  match swVal &&& 0x3 with
  | 0 => [printf "[MODE] SW[1:0]=00 -> RGB goc\n" []]
  | 1 => [printf "[MODE] SW[1:0]=01 -> Grayscale\n" []]
  | 2 => [printf "[MODE] SW[1:0]=10 -> Sobel Edge Detection\n" []]
  | 3 => [printf "[MODE] SW[1:0]=11 -> Sharpen (Unsharp Mask)\n" []]
  | _ => []

/-- What the program prints when it starts. -/
def banner : List Action :=
  [printf "\n=============================================\n" [],
    printf "   DE1-SoC IMAGE DISPLAY CONTROLLER (UART)  \n" [],
    printf "=============================================\n" [],
    printf "[SYSTEM] You can now load image by TCL at 0x02000000.\n" [],
    printf "\n=== KEYBOARD CONTROL INSTRUCTIONS ===\n" [],
    printf " -> Press '1' + Enter: ENABLE  VGA display\n" [],
    printf " -> Press '0' + Enter: DISABLE VGA (safe for JTAG re-download)\n" [],
    printf "---------------------------------------------\n" [],
    printf "  SW[1:0] chon mode xu ly anh:\n" [],
    printf "    00 : RGB goc\n" [],
    printf "    01 : Grayscale\n" [],
    printf "    10 : Sobel Edge Detection\n" [],
    printf "    11 : Sharpen (Unsharp Mask)\n" [],
    printf "---------------------------------------------\n" []]

/-- The character constant `c`. -/
def char (c : Char) : BitVec 8 := BitVec.ofNat 8 c.toNat

/-- What one turn of the loop reads: the data register of the UART, and the switches. -/
structure Poll where
  jtagReg : BitVec 32
  sw : BitVec 32
deriving DecidableEq, Repr

/-- The first half of a turn. -/
def onKey (jtagReg : BitVec 32) : List Action :=
  if jtagReg &&& 0x00008000 ≠ 0 then
    let key := (jtagReg &&& 0x000000FF).setWidth 8
    if key = char '1' then
      [imgLoad 1,
        printf "[MENU] VGA ENABLED  (SW[1:0]: 00=RGB | 01=Grayscale | 10=Sobel | 11=Sharpen)\n" []]
    else if key = char '0' then
      [imgLoad 0, printf "[MENU] VGA DISABLED. SDRAM bus free for JTAG.\n" []]
    else []
  else []

/-- The second half, which keeps the switches for the next turn. -/
def onSwitch (swPrev swNow : BitVec 32) : List Action × BitVec 32 :=
  if swNow ≠ swPrev then
    (printf "[SWITCH] SW[1:0] = %u%u\n" [(swNow >>> 1) &&& 0x1, swNow &&& 0x1] :: printMode swNow,
      swNow)
  else ([], swPrev)

/-- The loop, from the switches seen last. -/
def loop (swPrev : BitVec 32) : List Poll → List Action
  | [] => []
  | p :: ps =>
    let next := onSwitch swPrev (p.sw &&& 0x3)
    onKey p.jtagReg ++ next.1 ++ loop next.2 ps

/-- `main`, when it first finds the switches at `sw` and has made the turns `ps`. -/
def main (sw : BitVec 32) (ps : List Poll) : List Action :=
  let swPrev := sw &&& 0x3
  banner ++ [imgLoad 0] ++ printMode swPrev ++ loop swPrev ps

/-! ### What it is to do -/

/-- What a key asks for: the display on, or off. -/
def command (key : BitVec 8) : Option Bool :=
  if key = char '1' then some true else if key = char '0' then some false else none

/-- What the key of a turn asks for, if there is one. -/
def Poll.command (p : Poll) : Option Bool :=
  if p.jtagReg.getLsbD 15 then Software.command (p.jtagReg.setWidth 8) else none

/-- The position of the switches. -/
def mode (sw : BitVec 32) : BitVec 2 := sw.setWidth 2

/-- The line for a command. -/
def menuLine : Bool → Action
  | true =>
    printf "[MENU] VGA ENABLED  (SW[1:0]: 00=RGB | 01=Grayscale | 10=Sobel | 11=Sharpen)\n" []
  | false => printf "[MENU] VGA DISABLED. SDRAM bus free for JTAG.\n" []

/-- A command is executed and then reported. -/
def executed (on : Bool) : List Action := [imgLoad (if on then 1 else 0), menuLine on]

/-- The line for a mode. -/
def modeLine (m : BitVec 2) : Action :=
  match m with
  | 0 => printf "[MODE] SW[1:0]=00 -> RGB goc\n" []
  | 1 => printf "[MODE] SW[1:0]=01 -> Grayscale\n" []
  | 2 => printf "[MODE] SW[1:0]=10 -> Sobel Edge Detection\n" []
  | 3 => printf "[MODE] SW[1:0]=11 -> Sharpen (Unsharp Mask)\n" []

/-- The line for a new position of the switches. -/
def switchLine (m : BitVec 2) : Action :=
  printf "[SWITCH] SW[1:0] = %u%u\n" [(m >>> 1).setWidth 32, (m &&& 1).setWidth 32]

/-- A new position of the switches is announced with the line of its mode. -/
def announced (m : BitVec 2) : List Action := [switchLine m, modeLine m]

/-- The actions that belong to the display: the writes and their reports. -/
def OfDisplay (a : Action) : Prop := (∃ data, a = imgLoad data) ∨ ∃ on, a = menuLine on

/-- The actions that belong to the switches. -/
def OfSwitches (a : Action) : Prop := ∃ m, a = modeLine m ∨ a = switchLine m

instance : DecidablePred OfDisplay := fun a =>
  match a with
  | imgLoad data => .isTrue (.inl ⟨data, rfl⟩)
  | printf f l => decidable_of_iff (∃ on, printf f l = menuLine on) (by simp [OfDisplay])

instance : DecidablePred OfSwitches := fun a => by unfold OfSwitches; infer_instance

/-! ### One turn of the loop -/

section Turn

variable {sw : BitVec 32} {m : BitVec 2} {p : Poll} {ps : List Poll}

lemma and_three (sw : BitVec 32) : sw &&& 0x3 = (mode sw).setWidth 32 := by
  apply BitVec.eq_of_toNat_eq
  rw [BitVec.toNat_and, BitVec.toNat_setWidth, mode, BitVec.toNat_setWidth]
  have h3 : (0x3 : BitVec 32).toNat = 2 ^ 2 - 1 := rfl
  rw [h3, Nat.and_two_pow_sub_one_eq_mod]
  omega

lemma printMode_eq (m : BitVec 2) : printMode (m.setWidth 32) = [modeLine m] := by
  revert m
  decide

lemma onKey_eq (p : Poll) : onKey p.jtagReg = p.command.toList.flatMap executed := by
  have hvalid : p.jtagReg &&& 0x00008000 ≠ 0 ↔ p.jtagReg.getLsbD 15 = true := by
    have hbit : (0x00008000 : BitVec 32) = BitVec.twoPow 32 15 := rfl
    rw [hbit, BitVec.and_twoPow]
    split_ifs with h
    · exact iff_of_true (by decide) h
    · exact iff_of_false (fun hne => hne rfl) h
  have hkey : (p.jtagReg &&& 0x000000FF).setWidth 8 = p.jtagReg.setWidth 8 := by
    rw [BitVec.setWidth_and, show (0x000000FF : BitVec 32).setWidth 8 = BitVec.allOnes 8 from rfl,
      BitVec.and_allOnes]
  unfold onKey Poll.command Software.command
  simp only [hvalid, hkey]
  split_ifs <;> simp [executed, menuLine]

lemma onSwitch_eq (m m' : BitVec 2) : onSwitch (m.setWidth 32) (m'.setWidth 32) =
    (if m ≠ m' then announced m' else [], m'.setWidth 32) := by
  revert m m'
  decide

/-- What a turn does, and the switches it leaves to the next. -/
lemma loop_cons (m : BitVec 2) (p : Poll) (ps : List Poll) : loop (m.setWidth 32) (p :: ps) =
    p.command.toList.flatMap executed ++
      (if m ≠ mode p.sw then announced (mode p.sw) else []) ++
        loop ((mode p.sw).setWidth 32) ps := by
  rw [loop, onKey_eq, and_three, onSwitch_eq]

end Turn

/-! ### The loop -/

/-- The positions that a list of readings changes to, after the position `m`. -/
def changes (m : BitVec 2) (l : List (BitVec 2)) : List (BitVec 2) := (l.destutter' (· ≠ ·) m).tail

lemma changes_cons (m m' : BitVec 2) (l : List (BitVec 2)) :
    changes m (m' :: l) = if m ≠ m' then m' :: changes m' l else changes m' l := by
  have hhead : l.destutter' (· ≠ ·) m' = m' :: changes m' l := by
    induction l with
    | nil => rfl
    | cons b l ih =>
      by_cases hb : m' ≠ b
      · rw [changes, List.destutter'_cons_pos _ hb, List.tail_cons]
      · rw [changes, List.destutter'_cons_neg _ hb]
        exact ih
  by_cases h : m ≠ m'
  · rw [if_pos h, changes, List.destutter'_cons_pos _ h, List.tail_cons, hhead]
  · rw [if_neg h, changes, List.destutter'_cons_neg _ h, not_not.1 h]
    rfl

lemma filter_executed (on : Bool) : (executed on).filter (OfDisplay ·) = executed on ∧
    (executed on).filter (OfSwitches ·) = [] := by
  revert on
  decide

lemma filter_announced (m : BitVec 2) : (announced m).filter (OfDisplay ·) = [] ∧
    (announced m).filter (OfSwitches ·) = announced m := by
  revert m
  decide

lemma filter_modeLine (m : BitVec 2) : [modeLine m].filter (OfDisplay ·) = [] ∧
    [modeLine m].filter (OfSwitches ·) = [modeLine m] := by
  revert m
  decide

lemma filter_banner : banner.filter (OfDisplay ·) = [] ∧ banner.filter (OfSwitches ·) = [] := by
  decide

lemma filter_loop (m : BitVec 2) (ps : List Poll) :
    (loop (m.setWidth 32) ps).filter (OfDisplay ·) = (ps.filterMap Poll.command).flatMap executed ∧
      (loop (m.setWidth 32) ps).filter (OfSwitches ·) =
        (changes m (ps.map fun p => mode p.sw)).flatMap announced := by
  induction ps generalizing m with
  | nil => exact ⟨rfl, rfl⟩
  | cons p ps ih =>
    obtain ⟨ih₁, ih₂⟩ := ih (mode p.sw)
    have hkey : (p.command.toList.flatMap executed).filter (OfDisplay ·) =
        p.command.toList.flatMap executed ∧
          (p.command.toList.flatMap executed).filter (OfSwitches ·) = [] := by
      cases p.command with
      | none => exact ⟨rfl, rfl⟩
      | some on => simpa using filter_executed on
    rw [loop_cons, List.filter_append, List.filter_append, List.filter_append, List.filter_append,
      hkey.1, hkey.2, ih₁, ih₂, List.map_cons, changes_cons, List.filterMap_cons]
    constructor
    · have hnone : (if m ≠ mode p.sw then announced (mode p.sw) else []).filter (OfDisplay ·) =
          [] := by
        split_ifs
        · exact (filter_announced _).1
        · rfl
      rw [hnone]
      cases p.command <;> simp
    · by_cases h : m ≠ mode p.sw
      · rw [if_pos h, if_pos h, (filter_announced _).2, List.flatMap_cons, List.nil_append]
      · rw [if_neg h, if_neg h]
        rfl

/-- **The keys.** What the program does for the display is to switch it off, and then what each
key typed asks for, with its report, in order. -/
theorem filter_ofDisplay (sw : BitVec 32) (ps : List Poll) : (main sw ps).filter (OfDisplay ·) =
    imgLoad 0 :: (ps.filterMap Poll.command).flatMap executed := by
  rw [main]
  rw [and_three, printMode_eq, List.filter_append, List.filter_append, List.filter_append,
    filter_banner.1, (filter_modeLine _).1, (filter_loop _ _).1]
  rfl

/-- The last line about the switches is that of the mode read last. -/
lemma getLast?_changes (m : BitVec 2) (l : List (BitVec 2)) :
    (modeLine m :: (changes m l).flatMap announced).getLast? = some (modeLine (l.getLastD m)) := by
  induction l generalizing m with
  | nil => rfl
  | cons m' l ih =>
    rw [changes_cons, List.getLastD_cons]
    by_cases h : m ≠ m'
    · rw [if_pos h, List.flatMap_cons]
      exact ih m'
    · rw [if_neg h, not_not.1 h]
      exact ih m'

/-- **The switches.** Every new position is announced, once and in order, with the line of its
mode, and the last line about them is that of the position read last. -/
theorem filter_ofSwitches (sw : BitVec 32) (ps : List Poll) :
    (main sw ps).filter (OfSwitches ·) =
        modeLine (mode sw) :: (changes (mode sw) (ps.map fun p => mode p.sw)).flatMap announced ∧
      ((main sw ps).filter (OfSwitches ·)).getLast? =
        some (modeLine ((ps.map fun p => mode p.sw).getLastD (mode sw))) := by
  have hlines : (main sw ps).filter (OfSwitches ·) =
      modeLine (mode sw) :: (changes (mode sw) (ps.map fun p => mode p.sw)).flatMap announced := by
    rw [main, and_three, printMode_eq, List.filter_append, List.filter_append, List.filter_append,
      filter_banner.2, (filter_modeLine _).2, (filter_loop _ _).2]
    rfl
  exact ⟨hlines, by rw [hlines, getLast?_changes]⟩

end VideoPipeline.Software

import VideoPipeline.Read.Commands

/-!
Disabling the display releases the bus. The enable passes three registers before it gates the
commands, so at most three are placed after it fell; the last of them may still be waiting to be
taken, and when it is, the bus stays idle.
-/

namespace VideoPipeline.Read

open VideoPipeline.Lib SdramReadController

variable {inp : ℕ → CtlIn} {e : ℕ}

/-! ### The command on the bus -/

/-- A command on the bus was placed there and has been held ever since. -/
theorem exists_issues_of_avmRead {n : ℕ} (h : (ctlAt inp n).avmRead = true) :
    ∃ q < n, Issues inp q ∧ (∀ m, q < m → m < n → Stalled inp m) ∧
      address inp n = address inp (q + 1) := by
  induction n with
  | zero => cases h
  | succ n ih =>
    by_cases hi : Issues inp n
    · exact ⟨n, by omega, hi, fun m h1 h2 => by omega, rfl⟩
    · have hst : Stalled inp n := by
        rw [ctlAt_succ, avmRead_edge, Bool.or_eq_true] at h
        exact h.resolve_right hi
      obtain ⟨q, hq, hiq, hheld, haddr⟩ := ih (avmRead_of_stalled hst)
      refine ⟨q, by omega, hiq, ?_, ?_⟩
      · intro m h1 h2
        rcases Nat.lt_succ_iff_lt_or_eq.1 h2 with hm | rfl
        · exact hheld m h1 hm
        · exact hst
      · have hi' : ¬ (ctlAt inp n).issues (inp n) = true := hi
        rw [← haddr, address, address, ctlAt_succ, avmAddress_edge, if_neg hi']

/-- A bus on which nothing is placed falls idle for good. -/
lemma avmRead_of_no_issues {n m : ℕ} (hno : ∀ q ≥ n, ¬ Issues inp q)
    (h : (ctlAt inp n).avmRead = false) (hm : n ≤ m) : (ctlAt inp m).avmRead = false := by
  induction m, hm using Nat.le_induction with
  | base => exact h
  | succ m hm ih =>
    rw [ctlAt_succ, avmRead_edge, stalled, ih, Bool.eq_false_iff.2 (hno m hm)]
    rfl

/-! ### The enable -/

/-- `frame_ready` is the enable of three cycles ago. -/
lemma frameReady_ctlAt (n : ℕ) : (ctlAt inp (n + 3)).frameReady = (inp n).camFrameDone :=
  shift_bit (p := fun n => (ctlAt inp n).camDoneSync) (fun n => camDoneSync_edge _ _)
    (by omega : 2 < 3) n

lemma not_issues_of_disabled (h : ∀ n ≥ e, (inp n).camFrameDone = false) {n : ℕ}
    (hn : e + 3 ≤ n) : ¬ Issues inp n := by
  intro hi
  obtain ⟨m, rfl⟩ := Nat.exists_eq_add_of_le' (show 3 ≤ n by omega)
  have hready := (issues_iff.1 hi).ready
  rw [frameReady_ctlAt, h m (by omega)] at hready
  cases hready

/-! ### The release -/

/-- **The bus is released** by a display that is off from edge `e` on. -/
structure Released (inp : ℕ → CtlIn) (e : ℕ) : Prop where
  /-- At most three commands are placed from edge `e` on. -/
  few : ∀ N, Nat.count (Issues inp) N ≤ Nat.count (Issues inp) e + 3
  none : ∀ n ≥ e + 3, ¬ Issues inp n
  /-- A command on the bus was placed at one of these edges or before, and not taken since. -/
  held : ∀ n ≥ e + 3, (ctlAt inp n).avmRead = true →
    ∃ q ≤ e + 2, Issues inp q ∧ (∀ m, q < m → m < n → Stalled inp m) ∧
      address inp n = address inp (q + 1)
  /-- With its acceptance the bus falls idle. -/
  taken : ∀ n ≥ e + 3, Accepted inp n → ∀ m > n, (ctlAt inp m).avmRead = false
  idle : ∀ n ≥ e + 3, (ctlAt inp n).avmRead = false → ∀ m ≥ n, (ctlAt inp m).avmRead = false

theorem released (h : ∀ n ≥ e, (inp n).camFrameDone = false) : Released inp e := by
  have hno (n : ℕ) (hn : e + 3 ≤ n) : ¬ Issues inp n := not_issues_of_disabled h hn
  refine ⟨?_, hno, ?_, ?_, ?_⟩
  · intro N
    have hlast : Nat.count (Issues inp) N ≤ Nat.count (Issues inp) (e + 3) := by
      by_contra hlt
      obtain ⟨q, hq, hi⟩ := Nat.exists_of_count_lt_count (not_le.1 hlt)
      exact hno q hq.1 hi
    have hthree : Nat.count (fun k => Issues inp (e + k)) 3 ≤ 3 := Nat.count_le _
    have := Nat.count_add (Issues inp) e 3
    omega
  · intro n hn hrd
    obtain ⟨q, hq, hi, hheld, haddr⟩ := exists_issues_of_avmRead hrd
    refine ⟨q, ?_, hi, hheld, haddr⟩
    by_contra hlt
    exact hno q (by omega) hi
  · intro n hn ha m hm
    have hrd : (ctlAt inp (n + 1)).avmRead = false := by
      rw [ctlAt_succ, avmRead_edge, not_stalled_of_accepts ha, Bool.eq_false_iff.2 (hno n hn)]
      rfl
    exact avmRead_of_no_issues (fun q hq => hno q (by omega)) hrd hm
  · intro n hn hrd m hm
    exact avmRead_of_no_issues (fun q hq => hno q (by omega)) hrd hm

/-- A display that is switched off in cycle 20 while the bus holds its command up. -/
def switchedOff (n : ℕ) : CtlIn where
  camFrameDone := decide (n < 20)
  vgaFrameDone := false
  avmWaitrequest := decide (10 ≤ n ∧ n < 40)
  avmReaddata := 0
  avmReaddatavalid := false
  fifoWrusedw := 0

theorem released_switchedOff : Released switchedOff 20 :=
  released fun _ hn => decide_eq_false (not_lt.2 hn)

end VideoPipeline.Read

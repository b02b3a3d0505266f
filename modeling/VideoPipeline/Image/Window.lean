import VideoPipeline.Image.LineBuffer

/-!
What the nine taps of `line_buffer3x3` hold. When the addresses of the valid cycles rotate
through the line memories, each row of the window is a tape: the reset registers, the output
register of its memory, the contents of the memory, and then the stream of valid pixels. The
three tapes run 2, 643 and 1284 places ahead of the stream, so that the rows end with the pixels
`k`, `k - 641` and `k - 1282` of the stream, and not with pixels above one another.
-/

namespace VideoPipeline.Image

open VideoPipeline.Lib

/-! ### The stream of valid cycles -/

section Stream

variable {W : ℕ}

/-- A valid cycle of the input `inp`. -/
def Valid (inp : ℕ → LineIn W) (n : ℕ) : Prop := (inp n).iValid = true

instance (inp : ℕ → LineIn W) : DecidablePred (Valid inp) := fun n => by
  unfold Valid; infer_instance

/-- The number of valid cycles before cycle `n`. -/
def validBefore (inp : ℕ → LineIn W) (n : ℕ) : ℕ := Nat.count (Valid inp) n

lemma validBefore_succ (inp : ℕ → LineIn W) (n : ℕ) :
    validBefore inp (n + 1) = validBefore inp n + if Valid inp n then 1 else 0 :=
  Nat.count_succ _ _

/-- The `k`-th valid cycle presents the pixel `d k` at the address `a k`, whatever the gaps. -/
structure Carries (inp : ℕ → LineIn W) (a : ℕ → BitVec 10) (d : ℕ → BitVec W) : Prop where
  addr : ∀ n, Valid inp n → (inp n).addrX = a (validBefore inp n)
  data : ∀ n, Valid inp n → (inp n).iData = d (validBefore inp n)

end Stream

/-! ### Tapes -/

section Tapes

variable {W : ℕ}

/-- A row of the window in time: two registers reset to zero, the register `q` before them, and
what flows into it. -/
def tape (q : BitVec W) (f : ℕ → BitVec W) : ℕ → BitVec W
  | 0 => 0
  | 1 => 0
  | 2 => q
  | j + 3 => f j

variable (N : ℕ) (m : LineInit W) (a : ℕ → BitVec 10) (d : ℕ → BitVec W)

/-- The bottom row: the stream itself. -/
def tape0 : ℕ → BitVec W := tape (d 0) fun j => d (j + 1)

/-- The middle row: the stream through the first line memory. -/
def tape1 : ℕ → BitVec W := tape m.lb0Q (delayed m.lb0Mem a d N)

/-- The top row: the stream through both line memories. -/
def tape2 : ℕ → BitVec W := tape m.lb1Q (delayed m.lb1Mem a (fun j => tape1 N m a d (j + 2)) N)

variable {N m a d}

lemma tape0_add (j : ℕ) : tape0 d (j + 2) = d j := by
  cases j <;> rfl

lemma tape1_add (j : ℕ) : tape1 N m a d (j + N + 3) = d j := by
  change delayed m.lb0Mem a d N (j + N) = d j
  rw [delayed_of_le (by omega), Nat.add_sub_cancel]

lemma tape2_add (j : ℕ) : tape2 N m a d (j + 2 * N + 4) = d j := by
  rw [show j + 2 * N + 4 = (j + N + 1) + N + 3 by omega]
  change delayed m.lb1Mem a (fun j => tape1 N m a d (j + 2)) N (j + N + 1 + N) = d j
  rw [delayed_of_le (by omega), Nat.add_sub_cancel]
  exact tape1_add j

variable (N m a d) in
/-- **The window leans.** When the stream has reached the top row, the rows are three pixels each
of the stream, those of a row `N + 1` places after those of the row above it. -/
theorem tapes_eq (k c : ℕ) :
    tape2 N m a d (k + (2 * N + 4) + c) = d (k + c) ∧
      tape1 N m a d (k + (2 * N + 4) + c) = d (k + (N + 1) + c) ∧
      tape0 d (k + (2 * N + 4) + c) = d (k + (2 * N + 2) + c) := by
  refine ⟨?_, ?_, ?_⟩
  · rw [show k + (2 * N + 4) + c = k + c + 2 * N + 4 by omega]
    exact tape2_add _
  · rw [show k + (2 * N + 4) + c = k + (N + 1) + c + N + 3 by omega]
    exact tape1_add _
  · rw [show k + (2 * N + 4) + c = k + (2 * N + 2) + c + 2 by omega]
    exact tape0_add _

end Tapes

/-! ### What the registers hold -/

section Registers

variable {W N : ℕ} {m : LineInit W} {a : ℕ → BitVec 10} {d : ℕ → BitVec W}

/-- The part of the line buffer that moves on valid cycles only, after `k` of them. -/
structure Holds (N : ℕ) (m : LineInit W) (a : ℕ → BitVec 10) (d : ℕ → BitVec W) (k : ℕ)
    (s : LineBuffer W) : Prop where
  lb0Mem : s.lb0Mem = writes m.lb0Mem a d k
  lb1Mem : s.lb1Mem = writes m.lb1Mem a (fun j => tape1 N m a d (j + 2)) k
  row0D2 : s.row0D2 = tape0 d k
  row0D1 : s.row0D1 = tape0 d (k + 1)
  row1D2 : s.row1D2 = tape1 N m a d k
  row1D1 : s.row1D1 = tape1 N m a d (k + 1)
  lb0Q : s.lb0Q = tape1 N m a d (k + 2)
  row2D2 : s.row2D2 = tape2 N m a d k
  row2D1 : s.row2D1 = tape2 N m a d (k + 1)
  lb1Q : s.lb1Q = tape2 N m a d (k + 2)

lemma holds_reset : Holds N m a d 0 (.reset m) :=
  ⟨rfl, rfl, rfl, rfl, rfl, rfl, rfl, rfl, rfl, rfl⟩

/-- An invalid cycle moves none of it. -/
lemma Holds.idle {k : ℕ} {s : LineBuffer W} {i : LineIn W} (h : Holds N m a d k s)
    (hi : i.iValid = false) : Holds N m a d k (s.edge N i) := by
  constructor <;> simp only [LineBuffer.edge, hi, Bool.false_eq_true, if_false]
  exacts [h.lb0Mem, h.lb1Mem, h.row0D2, h.row0D1, h.row1D2, h.row1D1, h.lb0Q, h.row2D2, h.row2D1,
    h.lb1Q]

/-- A valid cycle moves each row one place along its tape. -/
lemma Holds.valid {k : ℕ} {s : LineBuffer W} {i : LineIn W} (hrot : Rotates a N)
    (hlt : (a k).toNat < N) (h : Holds N m a d k s) (hi : i.iValid = true) (ha : i.addrX = a k)
    (hd : i.iData = d k) : Holds N m a d (k + 1) (s.edge N i) := by
  constructor <;> simp only [LineBuffer.edge, hi, if_true, ha, hd, store, hlt]
  · rw [h.lb0Mem]; rfl
  · rw [h.lb1Mem, h.lb0Q]; rfl
  · exact h.row0D1
  · exact (tape0_add k).symm
  · exact h.row1D1
  · exact h.lb0Q
  · rw [h.lb0Mem]; exact writes_rotates hrot k
  · exact h.row2D1
  · exact h.lb1Q
  · rw [h.lb1Mem]; exact writes_rotates hrot k

/-- **The rows are tapes.** After any cycle, however the valid cycles are spread, the registers
hold the tapes at the number of valid cycles so far. -/
theorem holds_bufferAt {inp : ℕ → LineIn W} (hc : Carries inp a d) (hrot : Rotates a N)
    (hlt : ∀ k, (a k).toNat < N) (n : ℕ) :
    Holds N m a d (validBefore inp n) (bufferAt N m inp n) := by
  induction n with
  | zero => exact holds_reset
  | succ n ih =>
    rw [bufferAt_succ, validBefore_succ]
    by_cases hv : Valid inp n
    · rw [if_pos hv]
      exact ih.valid hrot (hlt _) hv (hc.addr n hv) (hc.data n hv)
    · rw [if_neg hv]
      exact ih.idle (by simpa [Valid] using hv)

/-- The taps in a valid cycle: three places of each tape. -/
theorem Holds.tap_eq {k : ℕ} {s : LineBuffer W} {i : LineIn W} (h : Holds N m a d k s)
    (hd : i.iData = d k) (c : Fin 3) :
    s.tap i 0 c = tape2 N m a d (k + c) ∧ s.tap i 1 c = tape1 N m a d (k + c) ∧
      s.tap i 2 c = tape0 d (k + c) := by
  match c with
  | 0 => exact ⟨h.row2D2, h.row1D2, h.row0D2⟩
  | 1 => exact ⟨h.row2D1, h.row1D1, h.row0D1⟩
  | 2 => exact ⟨h.lb1Q, h.lb0Q, hd.trans (tape0_add k).symm⟩

end Registers

/-! ### Lines of 640 pixels -/

/-- The address sequence that starts each line at the place `o` of the memory. -/
def lineAddr (o k : ℕ) : BitVec 10 := BitVec.ofNat 10 ((k + o) % 640)

lemma lineAddr_toNat (o k : ℕ) : (lineAddr o k).toNat = (k + o) % 640 := by
  rw [lineAddr, BitVec.toNat_ofNat]
  omega

lemma lineAddr_lt (o k : ℕ) : (lineAddr o k).toNat < 640 := by
  rw [lineAddr_toNat]
  omega

lemma lineAddr_rotates (o : ℕ) : Rotates (lineAddr o) 640 where
  pos := by omega
  period k := by
    apply BitVec.eq_of_toNat_eq
    rw [lineAddr_toNat, lineAddr_toNat]
    omega
  distinct i j h1 h2 h := by
    have := congrArg BitVec.toNat h
    rw [lineAddr_toNat, lineAddr_toNat] at this
    omega

/-- A stream of lines of 640 pixels: the column is the position in the line, and a line, once
begun, is presented in consecutive cycles. -/
structure LineFed {W : ℕ} (inp : ℕ → LineIn W) (P : ℕ → BitVec W) : Prop where
  x : ∀ n, Valid inp n → (inp n).iX.toNat = validBefore inp n % 640
  data : ∀ n, Valid inp n → (inp n).iData = P (validBefore inp n)
  burst : ∀ n, Valid inp n → validBefore inp n % 640 ≠ 639 → Valid inp (n + 1)

lemma LineFed.carries {W : ℕ} {inp : ℕ → LineIn W} {P : ℕ → BitVec W} (h : LineFed inp P) :
    Carries inp (lineAddr 0) P where
  addr n hv := by
    apply BitVec.eq_of_toNat_eq
    have := h.x n hv
    rw [lineAddr_toNat, LineIn.addrX, BitVec.toNat_setWidth]
    omega
  data := h.data

/-- The registers under a stream of lines. -/
theorem LineFed.holds {W : ℕ} {inp : ℕ → LineIn W} {P : ℕ → BitVec W} (h : LineFed inp P)
    (m : LineInit W) (n : ℕ) :
    Holds 640 m (lineAddr 0) P (validBefore inp n) (bufferAt 640 m inp n) :=
  holds_bufferAt h.carries (lineAddr_rotates 0) (lineAddr_lt 0) n

end VideoPipeline.Image

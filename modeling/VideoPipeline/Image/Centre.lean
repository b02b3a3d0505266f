import VideoPipeline.Image.Window

/-!
The centre tap seen through `o_valid`, which the original and the gray mode show. `o_valid` and
the coordinates move on every clock, the rows on valid clocks only, so the two clocks after the
last pixel of a line still count as output cycles while the window stands still.
-/

namespace VideoPipeline.Image

open VideoPipeline.Lib

/-! ### The output cycles -/

section Output

variable {W : ℕ} {m : LineInit W} {inp : ℕ → LineIn W}

/-- A cycle with `o_valid = 1`. -/
def OutValid (m : LineInit W) (inp : ℕ → LineIn W) (n : ℕ) : Prop :=
  (bufferAt 640 m inp n).oValid = true

instance (m : LineInit W) (inp : ℕ → LineIn W) : DecidablePred (OutValid m inp) := fun n => by
  unfold OutValid; infer_instance

/-- The number of output cycles before cycle `n`. -/
def outBefore (m : LineInit W) (inp : ℕ → LineIn W) (n : ℕ) : ℕ := Nat.count (OutValid m inp) n

lemma outBefore_succ (n : ℕ) :
    outBefore m inp (n + 1) = outBefore m inp n + if OutValid m inp n then 1 else 0 :=
  Nat.count_succ _ _

lemma outValid_iff (n : ℕ) : OutValid m inp (n + 2) ↔ Valid inp n := by
  rw [OutValid, oValid_bufferAt, Valid]

lemma not_outValid_of_lt {n : ℕ} (h : n < 2) : ¬ OutValid m inp n := by
  rw [OutValid, oValid_bufferAt_init h]
  exact Bool.false_ne_true

lemma exists_of_outValid {n : ℕ} (h : OutValid m inp n) : ∃ n', n = n' + 2 ∧ Valid inp n' := by
  by_cases hn : n < 2
  · exact absurd h (not_outValid_of_lt hn)
  · obtain ⟨n', rfl⟩ := Nat.exists_eq_add_of_le' (not_lt.1 hn)
    exact ⟨n', rfl, (outValid_iff n').1 h⟩

lemma outBefore_add (n : ℕ) : outBefore m inp (n + 2) = validBefore inp n := by
  induction n with
  | zero => exact Nat.count_of_forall_not fun n hn => not_outValid_of_lt hn
  | succ n ih =>
    rw [show n + 1 + 2 = n + 2 + 1 by omega, outBefore_succ, ih, validBefore_succ]
    simp only [outValid_iff]

end Output

/-! ### The centre tap -/

section Centre

variable {W : ℕ} {m : LineInit W} {inp : ℕ → LineIn W} {P : ℕ → BitVec W}

/-- The centre tap `p11` in cycle `n`. -/
def centre (m : LineInit W) (inp : ℕ → LineIn W) (n : ℕ) : BitVec W :=
  (bufferAt 640 m inp n).tap (inp n) 1 1

/-- In the `k`-th output cycle, from `k = d` on, the centre tap is the `(k - d)`-th valid pixel. -/
def CentreDelayed (d : ℕ) (m : LineInit W) (inp : ℕ → LineIn W) (P : ℕ → BitVec W) : Prop :=
  ∀ n, OutValid m inp n → d ≤ outBefore m inp n → centre m inp n = P (outBefore m inp n - d)

/-- At least two invalid cycles follow the last pixel of a line. -/
def Gapped (inp : ℕ → LineIn W) : Prop :=
  ∀ n, Valid inp n → validBefore inp n % 640 = 639 → ¬ Valid inp (n + 1) ∧ ¬ Valid inp (n + 2)

lemma centre_eq_tape (hf : LineFed inp P) (n : ℕ) :
    centre m inp n = tape1 640 m (lineAddr 0) P (validBefore inp n + 1) :=
  (hf.holds m n).row1D1

/-- Two clocks after a pixel that is not the last of its line, the next one was presented too. -/
lemma validBefore_add_two (hf : LineFed inp P) {n : ℕ} (hv : Valid inp n)
    (h : validBefore inp n % 640 ≠ 639) : validBefore inp (n + 2) = validBefore inp n + 2 := by
  have h1 := hf.burst n hv h
  rw [validBefore_succ, validBefore_succ, if_pos hv, if_pos h1]

lemma validBefore_add_two_of_last (hg : Gapped inp) {n : ℕ} (hv : Valid inp n)
    (h : validBefore inp n % 640 = 639) : validBefore inp (n + 2) = validBefore inp n + 1 := by
  rw [validBefore_succ, validBefore_succ, if_pos hv, if_neg (hg n hv h).1]

/-- Inside a line the centre tap is the pixel above, one line of 640 pixels ago. -/
theorem centre_of_inner (hf : LineFed inp P) {n : ℕ} (hv : Valid inp n)
    (h : validBefore inp n % 640 ≠ 639) (hk : 640 ≤ validBefore inp n) :
    centre m inp (n + 2) = P (validBefore inp n - 640) := by
  rw [centre_eq_tape hf, validBefore_add_two hf hv h,
    show validBefore inp n + 2 + 1 = validBefore inp n - 640 + 640 + 3 by omega]
  exact tape1_add _

/-- At the end of a line it is the pixel before that one, for the second time. -/
theorem centre_of_last (hf : LineFed inp P) (hg : Gapped inp) {n : ℕ} (hv : Valid inp n)
    (h : validBefore inp n % 640 = 639) (hk : 640 ≤ validBefore inp n) :
    centre m inp (n + 2) = P (validBefore inp n - 641) := by
  rw [centre_eq_tape hf, validBefore_add_two_of_last hg hv h,
    show validBefore inp n + 1 + 1 = validBefore inp n - 641 + 640 + 3 by omega]
  exact tape1_add _

/-- The last two pixels of every line that is followed by another complete line are equal. -/
def LineEndsAlike (inp : ℕ → LineIn W) (P : ℕ → BitVec W) : Prop :=
  ∀ L n, Valid inp n → validBefore inp n = 640 * (L + 1) + 639 →
    P (640 * L + 639) = P (640 * L + 638)

/-- **The centre tap through `o_valid`.** It is the stream of valid pixels, 640 places late, for
exactly the streams whose lines end with two equal pixels: the last column is replaced by the
one before it. -/
theorem centreDelayed_iff (hf : LineFed inp P) (hg : Gapped inp) :
    CentreDelayed 640 m inp P ↔ LineEndsAlike inp P := by
  constructor
  · intro h L n hv hn
    have hlast : validBefore inp n % 640 = 639 := by omega
    have h1 := h (n + 2) ((outValid_iff n).2 hv)
    rw [outBefore_add, centre_of_last hf hg hv hlast (by omega)] at h1
    have h2 := h1 (by omega)
    rw [hn, show 640 * (L + 1) + 639 - 640 = 640 * L + 639 by omega,
      show 640 * (L + 1) + 639 - 641 = 640 * L + 638 by omega] at h2
    exact h2.symm
  · intro h n hn hd
    obtain ⟨n, rfl, hv⟩ := exists_of_outValid hn
    rw [outBefore_add] at hd ⊢
    by_cases hlast : validBefore inp n % 640 = 639
    · rw [centre_of_last hf hg hv hlast hd]
      have h1 := h (validBefore inp n / 640 - 1) n hv (by omega)
      rw [show 640 * (validBefore inp n / 640 - 1) + 639 = validBefore inp n - 640 by omega,
        show 640 * (validBefore inp n / 640 - 1) + 638 = validBefore inp n - 641 by omega] at h1
      exact h1.symm
    · exact centre_of_inner hf hv hlast hd

end Centre

/-! ### A regular feed -/

section Feed

variable {W : ℕ} (P : ℕ → BitVec W)

/-- The stream `P` in lines of 640 consecutive valid cycles, with two invalid ones after each. -/
def feed (n : ℕ) : LineIn W where
  iValid := decide (n % 642 < 640)
  iX := BitVec.ofNat 11 (n % 642)
  iY := BitVec.ofNat 11 (n / 642 % 480)
  iData := P (640 * (n / 642) + n % 642)

variable {P}

lemma valid_feed (n : ℕ) : Valid (feed P) n ↔ n % 642 < 640 := by
  simp [Valid, feed]

lemma validBefore_feed (n : ℕ) : validBefore (feed P) n = 640 * (n / 642) + min (n % 642) 640 := by
  refine count_eq_of_step (f := fun n => 640 * (n / 642) + min (n % 642) 640) rfl ?_ n
  intro n
  simp only [valid_feed]
  split <;> omega

lemma lineFed_feed : LineFed (feed P) P where
  x n h := by
    rw [valid_feed] at h
    rw [validBefore_feed, feed, BitVec.toNat_ofNat]
    omega
  data n h := by
    rw [valid_feed] at h
    rw [validBefore_feed, min_eq_left (by omega), feed]
  burst n h hl := by
    rw [valid_feed] at h ⊢
    rw [validBefore_feed] at hl
    omega

lemma gapped_feed : Gapped (feed P) := by
  intro n h hl
  rw [valid_feed] at h
  rw [validBefore_feed] at hl
  rw [valid_feed, valid_feed]
  omega

end Feed

/-- Pixels that alternate between black and white. -/
def stripes (k : ℕ) : BitVec 1 := BitVec.ofNat 1 k

lemma stripes_succ_ne (k : ℕ) : stripes (k + 1) ≠ stripes k := by
  intro h
  have := congrArg BitVec.toNat h
  rw [stripes, stripes, BitVec.toNat_ofNat, BitVec.toNat_ofNat] at this
  omega

lemma not_lineEndsAlike_stripes : ¬ LineEndsAlike (feed stripes) stripes := by
  intro h
  have hv : Valid (feed stripes) (642 + 639) := (valid_feed _).2 (by omega)
  exact stripes_succ_ne 638 (h 0 _ hv (validBefore_feed _))

/-- Pixels that alternate in pairs. -/
def pairs (k : ℕ) : BitVec 1 := BitVec.ofNat 1 (k / 2)

lemma lineEndsAlike_pairs : LineEndsAlike (feed pairs) pairs := by
  intro L n _ _
  exact congrArg (BitVec.ofNat 1) (by omega)

theorem centreDelayed_iff_pairs : CentreDelayed 640 (blankInit 1) (feed pairs) pairs ∧
    ¬ CentreDelayed 640 (blankInit 1) (feed stripes) stripes :=
  ⟨(centreDelayed_iff lineFed_feed gapped_feed).2 lineEndsAlike_pairs,
    mt (centreDelayed_iff lineFed_feed gapped_feed).1 not_lineEndsAlike_stripes⟩

/-- No constant delay serves every stream: at the end of a line of stripes the centre tap shows
the same pixel twice. -/
theorem no_centre_delay : ¬ ∃ d, ∀ (W : ℕ) (m : LineInit W) (inp : ℕ → LineIn W)
    (P : ℕ → BitVec W), LineFed inp P → Gapped inp → CentreDelayed d m inp P := by
  rintro ⟨d, h⟩
  have hf : LineFed (feed stripes) stripes := lineFed_feed
  have hg : Gapped (feed stripes) := gapped_feed
  have hd := h 1 (blankInit 1) (feed stripes) stripes hf hg
  -- the last two pixels of line `d + 1`
  obtain ⟨n, hn⟩ : ∃ n, n = 642 * (d + 1) + 638 := ⟨_, rfl⟩
  have hv1 : Valid (feed stripes) n := (valid_feed n).2 (by omega)
  have hv2 : Valid (feed stripes) (n + 1) := (valid_feed _).2 (by omega)
  have hc1 : validBefore (feed stripes) n = 640 * d + 1278 := by
    rw [validBefore_feed]; omega
  have hc2 : validBefore (feed stripes) (n + 1) = 640 * d + 1279 := by
    rw [validBefore_feed]; omega
  have e1 := hd (n + 2) ((outValid_iff n).2 hv1)
  have e2 := hd (n + 1 + 2) ((outValid_iff (n + 1)).2 hv2)
  rw [outBefore_add, hc1, centre_of_inner hf hv1 (by omega) (by omega), hc1] at e1
  rw [outBefore_add, hc2, centre_of_last hf hg hv2 (by omega) (by omega), hc2] at e2
  refine stripes_succ_ne (640 * d + 1278 - d) ?_
  rw [show 640 * d + 1278 - d + 1 = 640 * d + 1279 - d by omega, ← e1 (by omega), ← e2 (by omega),
    show 640 * d + 1279 - 641 = 640 * d + 1278 - 640 by omega]

end VideoPipeline.Image

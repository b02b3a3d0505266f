import VideoPipeline.Lib.Machine

/-!
`vga_fifo_test_generator.v`: eight colour bars written to the FIFO as YUV 4:2:2, restarted while
the synchronised vertical sync is low and interrupted while the FIFO is full. What was written
since the last restart is always a beginning of one fixed sequence, as far as the pixel counter
says.
-/

namespace VideoPipeline.Pattern

open VideoPipeline.Lib

/-! ### The generator -/

/-- A colour of the table. -/
structure Sample where
  y : BitVec 8
  cb : BitVec 8
  cr : BitVec 8
deriving DecidableEq, Repr

/-- The colour table, addressed by `x_cnt`. -/
def sample (xCnt : BitVec 10) : Sample :=
  if xCnt < 80 then ⟨235, 128, 128⟩
  else if xCnt < 160 then ⟨210, 16, 146⟩
  else if xCnt < 240 then ⟨170, 166, 16⟩
  else if xCnt < 320 then ⟨145, 54, 34⟩
  else if xCnt < 400 then ⟨106, 202, 222⟩
  else if xCnt < 480 then ⟨81, 90, 240⟩
  else if xCnt < 560 then ⟨41, 240, 110⟩
  else ⟨16, 128, 128⟩

/-- `MAX_PIXELS`. -/
def maxPixels : BitVec 19 := 307200

/-- The registers of `vga_fifo_test_generator`. -/
structure Generator where
  pixelCnt : BitVec 19
  xCnt : BitVec 10
  fifoWrreq : Bool
  fifoWrdata : BitVec 16
  vsyncD1 : Bool
  vsyncD2 : Bool
deriving DecidableEq, Repr

/-- What it reads in one cycle. -/
structure GenIn where
  vgaVsync : Bool
  fifoWrusedw : BitVec 11
deriving DecidableEq, Repr

def GenIn.safeToWrite (i : GenIn) : Bool := decide (i.fifoWrusedw < 1536)

namespace Generator

/-- What `rst_n = 0` sets. -/
def reset : Generator where
  pixelCnt := 0
  xCnt := 0
  fifoWrreq := false
  fifoWrdata := 0
  vsyncD1 := true
  vsyncD2 := true

variable (s : Generator) (i : GenIn)

def needToWrite : Bool := decide (s.pixelCnt < maxPixels)

/-- The word of the present position: `Cb` with the luma at even positions, `Cr` at odd ones. -/
def word : BitVec 16 :=
  if !s.xCnt.getLsbD 0 then (sample s.xCnt).cb ++ (sample s.xCnt).y
  else (sample s.xCnt).cr ++ (sample s.xCnt).y

/-- One rising edge of `clk`. -/
def edge : Generator :=
  let s' := { s with vsyncD1 := i.vgaVsync, vsyncD2 := s.vsyncD1 }
  if !s.vsyncD2 then { s' with pixelCnt := 0, xCnt := 0, fifoWrreq := false }
  else if i.safeToWrite && s.needToWrite then
    { s' with
      fifoWrreq := true
      fifoWrdata := s.word
      pixelCnt := s.pixelCnt + 1
      xCnt := if s.xCnt = 639 then 0 else s.xCnt + 1 }
  else { s' with fifoWrreq := false }

end Generator

/-- The generator `n` edges after reset. -/
def generatorAt (inp : ℕ → GenIn) : ℕ → Generator := run (fun s i => s.edge i) .reset inp

lemma generatorAt_succ (inp : ℕ → GenIn) (n : ℕ) :
    generatorAt inp (n + 1) = (generatorAt inp n).edge (inp n) := rfl

/-! ### What an edge does -/

namespace Generator

variable (s : Generator) (i : GenIn)

/-- A word is written at the edge. -/
def writes : Bool := s.vsyncD2 && (i.safeToWrite && s.needToWrite)

/-- **The three things an edge does**: it clears the counters, writes a word or waits. -/
theorem edge_cases :
    (s.vsyncD2 = false ∧ (s.edge i).pixelCnt = 0 ∧ (s.edge i).xCnt = 0 ∧
      (s.edge i).fifoWrreq = false) ∨
    (s.writes i = true ∧ (s.edge i).pixelCnt = s.pixelCnt + 1 ∧
      (s.edge i).xCnt = (if s.xCnt = 639 then 0 else s.xCnt + 1) ∧
        (s.edge i).fifoWrreq = true ∧ (s.edge i).fifoWrdata = s.word) ∨
    (s.vsyncD2 = true ∧ s.writes i = false ∧ (s.edge i).pixelCnt = s.pixelCnt ∧
      (s.edge i).xCnt = s.xCnt ∧ (s.edge i).fifoWrreq = false) := by
  unfold writes edge
  cases hv : s.vsyncD2 with
  | false => exact Or.inl ⟨rfl, rfl, rfl, rfl⟩
  | true =>
    cases hw : i.safeToWrite && s.needToWrite with
    | true => exact Or.inr (Or.inl ⟨rfl, rfl, rfl, rfl, rfl⟩)
    | false => exact Or.inr (Or.inr ⟨rfl, rfl, rfl, rfl, rfl⟩)

variable {s i}

/-- A word is written while the picture is not complete and the FIFO has room. -/
lemma of_writes (h : s.writes i = true) :
    s.vsyncD2 = true ∧ s.pixelCnt.toNat < 307200 ∧ i.fifoWrusedw.toNat < 1536 := by
  unfold writes needToWrite GenIn.safeToWrite at h
  simp only [Bool.and_eq_true, decide_eq_true_eq, BitVec.lt_def] at h
  exact ⟨h.1, h.2.2, h.2.1⟩

/-! ### The counters -/

variable (s) in
/-- The counters are in step: the position in the line is that of the pixel. -/
structure InStep : Prop where
  le : s.pixelCnt.toNat ≤ 307200
  x : s.xCnt.toNat = s.pixelCnt.toNat % 640

lemma inStep_reset : InStep .reset := ⟨Nat.zero_le _, rfl⟩

/-- The position in the line after a word. -/
lemma toNat_next {x : BitVec 10} {k : ℕ} (h : x.toNat = k % 640) :
    (if x = 639 then 0 else x + 1).toNat = (k + 1) % 640 := by
  have h639 : (639 : BitVec 10).toNat = 639 := rfl
  have h1 : (1 : BitVec 10).toNat = 1 := rfl
  by_cases hx : x = 639
  · have hk : x.toNat = 639 := by rw [hx, h639]
    have h0 : (0 : BitVec 10).toNat = 0 := rfl
    rw [if_pos hx, h0]
    omega
  · have hk : x.toNat ≠ 639 := fun hk => hx (BitVec.eq_of_toNat_eq (hk.trans h639.symm))
    rw [if_neg hx, BitVec.toNat_add_of_lt (by omega), h1]
    omega

lemma pixelCnt_of_writes (h : s.writes i = true) :
    (s.pixelCnt + 1).toNat = s.pixelCnt.toNat + 1 := by
  have hlt := (of_writes h).2.1
  have h1 : (1 : BitVec 19).toNat = 1 := rfl
  rw [BitVec.toNat_add_of_lt (by omega), h1]

theorem InStep.edge (h : s.InStep) (i : GenIn) : (s.edge i).InStep := by
  obtain ⟨-, hp, hx, -⟩ | ⟨hw, hp, hx, -, -⟩ | ⟨-, -, hp, hx, -⟩ := edge_cases s i
  · exact ⟨by rw [hp]; exact Nat.zero_le _, by rw [hp, hx]; rfl⟩
  · have hlt := (of_writes hw).2.1
    constructor
    · rw [hp, pixelCnt_of_writes hw]
      omega
    · rw [hp, hx, pixelCnt_of_writes hw]
      exact toNat_next h.x
  · exact ⟨by rw [hp]; exact h.le, by rw [hp, hx]; exact h.x⟩

end Generator

lemma inStep_generatorAt (inp : ℕ → GenIn) (n : ℕ) : (generatorAt inp n).InStep :=
  run_invariant (P := fun _ (s : Generator) => s.InStep) Generator.inStep_reset (fun _ h => h.edge _) n

/-! ### The sequence -/

/-- The colour bars from left to right. -/
def bar : ℕ → Sample
  | 0 => ⟨235, 128, 128⟩
  | 1 => ⟨210, 16, 146⟩
  | 2 => ⟨170, 166, 16⟩
  | 3 => ⟨145, 54, 34⟩
  | 4 => ⟨106, 202, 222⟩
  | 5 => ⟨81, 90, 240⟩
  | 6 => ⟨41, 240, 110⟩
  | _ => ⟨16, 128, 128⟩

/-- Word `j` of the pattern. -/
def patternWord (j : ℕ) : BitVec 16 :=
  let c := bar (j % 640 / 80)
  if j % 2 = 0 then c.cb ++ c.y else c.cr ++ c.y

/-- The table is the bars, 80 columns each. -/
lemma sample_eq (x : BitVec 10) : sample x = bar (x.toNat / 80) := by
  have h80 (c : BitVec 10) (k : ℕ) (hc : c.toNat = 80 * (k + 1)) :
      x < c ↔ x.toNat / 80 ≤ k := by
    rw [BitVec.lt_def, hc]
    omega
  unfold sample
  simp only [h80 80 0 rfl, h80 160 1 rfl, h80 240 2 rfl, h80 320 3 rfl, h80 400 4 rfl,
    h80 480 5 rfl, h80 560 6 rfl]
  generalize x.toNat / 80 = k
  match k with
  | 0 | 1 | 2 | 3 | 4 | 5 | 6 => rfl
  | k + 7 => rfl

lemma word_eq {s : Generator} (h : s.InStep) : s.word = patternWord s.pixelCnt.toNat := by
  have hx := h.x
  have hbit : s.xCnt.getLsbD 0 = decide (s.pixelCnt.toNat % 2 = 1) := by
    rw [← BitVec.testBit_toNat, Nat.testBit_zero, hx, Nat.mod_mod_of_dvd _ (by omega)]
  unfold Generator.word patternWord
  rw [sample_eq, hbit, hx]
  rcases Nat.mod_two_eq_zero_or_one s.pixelCnt.toNat with h2 | h2 <;> simp [h2]

/-! ### What was written -/

section Written

variable (inp : ℕ → GenIn)

/-- The words in the cycles from `a` to `n` with `fifo_wrreq = 1`. -/
def written (a n : ℕ) : List (BitVec 16) :=
  ((List.range' a (n + 1 - a)).filter fun m => (generatorAt inp m).fifoWrreq).map fun m =>
    (generatorAt inp m).fifoWrdata

/-- The counters were cleared at the edge before cycle `a`, by reset or by `vsync_d2 = 0`, and not
since. -/
structure Since (a n : ℕ) : Prop where
  le : a ≤ n
  cleared : a = 0 ∨ ∃ b, a = b + 1 ∧ (generatorAt inp b).vsyncD2 = false
  kept : ∀ m, a ≤ m → m < n → (generatorAt inp m).vsyncD2 = true

variable {inp}

lemma written_succ {a n : ℕ} (h : a ≤ n + 1) : written inp a (n + 1) = written inp a n ++
    if (generatorAt inp (n + 1)).fifoWrreq then [(generatorAt inp (n + 1)).fifoWrdata] else [] := by
  have hlast : a + (n + 1 - a) = n + 1 := by omega
  unfold written
  rw [Nat.sub_add_comm h, List.range'_1_concat, List.filter_append, List.map_append, hlast]
  cases hw : (generatorAt inp (n + 1)).fifoWrreq <;> simp [hw]

/-- The first cycle after a clear carries no word, and nothing is counted. -/
lemma cleared_generatorAt {a : ℕ} (h : a = 0 ∨ ∃ b, a = b + 1 ∧ (generatorAt inp b).vsyncD2 = false) :
    (generatorAt inp a).pixelCnt = 0 ∧ (generatorAt inp a).fifoWrreq = false := by
  rcases h with rfl | ⟨b, rfl, hb⟩
  · exact ⟨rfl, rfl⟩
  · rw [generatorAt_succ]
    obtain ⟨-, hp, -, hw⟩ | ⟨hw, -⟩ | ⟨hv, -⟩ := (generatorAt inp b).edge_cases (inp b)
    · exact ⟨hp, hw⟩
    · have := (Generator.of_writes hw).1
      rw [hb] at this
      cases this
    · rw [hb] at hv
      cases hv

/-- **What was written since a clear** is the beginning of the sequence that was counted. -/
theorem written_eq {a n : ℕ} (h : Since inp a n) :
    written inp a n = (List.range (generatorAt inp n).pixelCnt.toNat).map patternWord := by
  obtain ⟨hle, hclear, hkept⟩ := h
  induction n, hle using Nat.le_induction with
  | base =>
    obtain ⟨hp, hw⟩ := cleared_generatorAt hclear
    unfold written
    simp [hp, hw]
  | succ n hn ih =>
    have hv := hkept n hn (by omega)
    have ih := ih fun m h1 h2 => hkept m h1 (by omega)
    rw [written_succ (by omega), ih, generatorAt_succ]
    obtain ⟨hlow, -⟩ | ⟨hw, hp, -, hreq, hdata⟩ | ⟨-, -, hp, -, hreq⟩ :=
      (generatorAt inp n).edge_cases (inp n)
    · rw [hlow] at hv
      cases hv
    · rw [hreq, hdata, hp, Generator.pixelCnt_of_writes hw, word_eq (inStep_generatorAt inp n),
        List.range_succ, List.map_append]
      rfl
    · rw [hreq, hp]
      exact List.append_nil _

end Written

/-! ### The stream -/

/-- **The pattern stream of a run.** -/
structure PatternStream (inp : ℕ → GenIn) : Prop where
  counted : ∀ n, (generatorAt inp n).pixelCnt.toNat ≤ 307200
  column : ∀ n, (generatorAt inp n).xCnt.toNat = (generatorAt inp n).pixelCnt.toNat % 640
  /-- There is a last clear in every cycle. -/
  since : ∀ n, ∃ a, Since inp a n
  words : ∀ a n, Since inp a n →
    written inp a n = (List.range (generatorAt inp n).pixelCnt.toNat).map patternWord
  /-- A command in a cycle found room in the cycle before. -/
  room : ∀ n, (generatorAt inp (n + 1)).fifoWrreq = true → (inp n).fifoWrusedw.toNat < 1536

/-- Every cycle has a last clear before it. -/
lemma exists_since (inp : ℕ → GenIn) (n : ℕ) : ∃ a, Since inp a n := by
  induction n with
  | zero => exact ⟨0, le_rfl, Or.inl rfl, fun m _ h2 => by omega⟩
  | succ n ih =>
    cases hv : (generatorAt inp n).vsyncD2 with
    | false => exact ⟨n + 1, le_rfl, Or.inr ⟨n, rfl, hv⟩, fun m h1 h2 => by omega⟩
    | true =>
      obtain ⟨a, hle, hclear, hkept⟩ := ih
      refine ⟨a, by omega, hclear, fun m h1 h2 => ?_⟩
      rcases Nat.lt_succ_iff_lt_or_eq.1 h2 with hm | rfl
      · exact hkept m h1 hm
      · exact hv

/-- **Every run streams the pattern**, whatever the FIFO and the vertical sync do. -/
theorem patternStream (inp : ℕ → GenIn) : PatternStream inp where
  counted n := (inStep_generatorAt inp n).le
  column n := (inStep_generatorAt inp n).x
  since := exists_since inp
  words _ _ h := written_eq h
  room n h := by
    rw [generatorAt_succ] at h
    obtain ⟨-, -, -, hreq⟩ | ⟨hw, -⟩ | ⟨-, -, -, -, hreq⟩ := (generatorAt inp n).edge_cases (inp n)
    · rw [hreq] at h
      cases h
    · exact (Generator.of_writes hw).2.2
    · rw [hreq] at h
      cases h

end VideoPipeline.Pattern

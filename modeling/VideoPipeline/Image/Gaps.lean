import VideoPipeline.Image.Window

/-!
The window does not depend on gaps. The memories, their output registers and the shift registers
of `line_buffer3x3` all move in valid cycles only, and of these they read the column and the
pixel; so two runs that carry the same pixels show the same windows, wherever the invalid cycles
fall and whatever is presented in them.
-/

namespace VideoPipeline.Image

open VideoPipeline.Lib

variable {W imgW : ℕ}

/-! ### The part that stands still -/

/-- The registers of the line buffer that move in valid cycles only. -/
structure Rows (W : ℕ) where
  lb0Mem : BitVec 10 → BitVec W
  lb0Q : BitVec W
  lb1Mem : BitVec 10 → BitVec W
  lb1Q : BitVec W
  row0D1 : BitVec W
  row0D2 : BitVec W
  row1D1 : BitVec W
  row1D2 : BitVec W
  row2D1 : BitVec W
  row2D2 : BitVec W

def LineBuffer.rows (s : LineBuffer W) : Rows W where
  lb0Mem := s.lb0Mem
  lb0Q := s.lb0Q
  lb1Mem := s.lb1Mem
  lb1Q := s.lb1Q
  row0D1 := s.row0D1
  row0D2 := s.row0D2
  row1D1 := s.row1D1
  row1D2 := s.row1D2
  row2D1 := s.row2D1
  row2D2 := s.row2D2

/-- What a valid cycle moves them to. -/
def Rows.next (imgW : ℕ) (r : Rows W) (a : BitVec 10) (d : BitVec W) : Rows W where
  lb0Mem := store imgW r.lb0Mem a d
  lb0Q := r.lb0Mem a
  lb1Mem := store imgW r.lb1Mem a r.lb0Q
  lb1Q := r.lb1Mem a
  row0D1 := d
  row0D2 := r.row0D1
  row1D1 := r.lb0Q
  row1D2 := r.row1D1
  row2D1 := r.lb1Q
  row2D2 := r.row2D1

lemma rows_edge (s : LineBuffer W) (i : LineIn W) : (s.edge imgW i).rows =
    if i.iValid then s.rows.next imgW i.addrX i.iData else s.rows := by
  cases hv : i.iValid <;> simp [LineBuffer.rows, LineBuffer.edge, Rows.next, hv]

/-- The window is read from them and the pixel presented. -/
lemma tap_of_rows {s s' : LineBuffer W} {i i' : LineIn W} (hs : s.rows = s'.rows)
    (hi : i.iData = i'.iData) (r c : Fin 3) : s.tap i r c = s'.tap i' r c := by
  have h (f : Rows W → BitVec W) : f s.rows = f s'.rows := congrArg f hs
  match r, c with
  | 0, 0 => exact h Rows.row2D2
  | 0, 1 => exact h Rows.row2D1
  | 0, 2 => exact h Rows.lb1Q
  | 1, 0 => exact h Rows.row1D2
  | 1, 1 => exact h Rows.row1D1
  | 1, 2 => exact h Rows.lb0Q
  | 2, 0 => exact h Rows.row0D2
  | 2, 1 => exact h Rows.row0D1
  | 2, 2 => exact hi

/-! ### Two runs -/

/-- The line buffer `n` edges after it was in the state `s₀`. -/
def bufferFrom (imgW : ℕ) (s₀ : LineBuffer W) (inp : ℕ → LineIn W) : ℕ → LineBuffer W :=
  run (fun s i => s.edge imgW i) s₀ inp

/-- The valid cycles of both inputs present the same columns and pixels in the same order. -/
def SamePixels (inp inp' : ℕ → LineIn W) : Prop :=
  ∀ t t', Valid inp t → Valid inp' t' → validBefore inp t = validBefore inp' t' →
    (inp t).iX = (inp' t').iX ∧ (inp t).iData = (inp' t').iData

variable {inp inp' : ℕ → LineIn W} {s₀ : LineBuffer W}

/-- After as many valid cycles the rows are the same. -/
theorem rows_of_samePixels (h : SamePixels inp inp') (s₀ : LineBuffer W) {t t' : ℕ}
    (hk : validBefore inp t = validBefore inp' t') :
    (bufferFrom imgW s₀ inp t).rows = (bufferFrom imgW s₀ inp' t').rows := by
  refine run_stutter (f := LineBuffer.rows) (v := fun i : LineIn W => i.iValid = true)
    (R := fun i i' => i.iX = i'.iX ∧ i.iData = i'.iData) ?_ ?_ rfl h t t' hk
  · intro s i hi
    rw [rows_edge, if_neg hi]
  · rintro s s' i i' hi hi' hs ⟨hx, hd⟩
    rw [rows_edge, rows_edge, if_pos hi, if_pos hi', hs, LineIn.addrX, LineIn.addrX, hx, hd]

/-- **The windows of a valid cycle** `t` of one run and `t'` of another, and the memories after
it, are the same. -/
structure SameWindow (imgW : ℕ) (s₀ : LineBuffer W) (inp inp' : ℕ → LineIn W) (t t' : ℕ) :
    Prop where
  tap : ∀ r c, (bufferFrom imgW s₀ inp t).tap (inp t) r c =
    (bufferFrom imgW s₀ inp' t').tap (inp' t') r c
  lb0Mem : (bufferFrom imgW s₀ inp (t + 1)).lb0Mem = (bufferFrom imgW s₀ inp' (t' + 1)).lb0Mem
  lb1Mem : (bufferFrom imgW s₀ inp (t + 1)).lb1Mem = (bufferFrom imgW s₀ inp' (t' + 1)).lb1Mem

theorem sameWindow (imgW : ℕ) (s₀ : LineBuffer W) (h : SamePixels inp inp') {t t' : ℕ}
    (ht : Valid inp t) (ht' : Valid inp' t') (hk : validBefore inp t = validBefore inp' t') :
    SameWindow imgW s₀ inp inp' t t' := by
  have hnext : validBefore inp (t + 1) = validBefore inp' (t' + 1) := by
    rw [validBefore_succ, validBefore_succ, if_pos ht, if_pos ht', hk]
  have hafter : (bufferFrom imgW s₀ inp (t + 1)).rows = (bufferFrom imgW s₀ inp' (t' + 1)).rows :=
    rows_of_samePixels h s₀ hnext
  refine ⟨?_, congrArg Rows.lb0Mem hafter, congrArg Rows.lb1Mem hafter⟩
  exact tap_of_rows (rows_of_samePixels h s₀ hk) (h t t' ht ht' hk).2

/-! ### A stream with and without gaps -/

/-- The pixel `k` in column `k`, with other coordinates beside it. -/
def numbered (iY : BitVec 11) (k : ℕ) : LineIn 30 := ⟨true, BitVec.ofNat 11 k, iY, BitVec.ofNat 30 k⟩

/-- A pixel in every cycle. -/
def dense (n : ℕ) : LineIn 30 := numbered 0 n

/-- A pixel in every third cycle, and noise in between. -/
def sparse (n : ℕ) : LineIn 30 :=
  if n % 3 = 2 then numbered 7 (n / 3) else ⟨false, BitVec.ofNat 11 (5 * n), 1, BitVec.ofNat 30 n⟩

lemma valid_sparse_iff (n : ℕ) : Valid sparse n ↔ n % 3 = 2 := by
  unfold Valid sparse
  split_ifs with h <;> simp [h, numbered]

lemma validBefore_dense (n : ℕ) : validBefore dense n = n := by
  refine count_eq_of_step (f := fun n => n) rfl (fun n => ?_) n
  rw [if_pos (show Valid dense n from rfl)]

lemma validBefore_sparse (n : ℕ) : validBefore sparse n = n / 3 := by
  refine count_eq_of_step (f := fun n => n / 3) rfl (fun n => ?_) n
  simp only [valid_sparse_iff]
  split_ifs <;> omega

lemma samePixels_dense_sparse : SamePixels dense sparse := by
  intro t t' _ ht' hk
  rw [validBefore_dense, validBefore_sparse] at hk
  rw [valid_sparse_iff] at ht'
  rw [sparse, if_pos ht', hk]
  exact ⟨rfl, rfl⟩

theorem sameWindow_dense_sparse :
    SameWindow 640 (.reset (blankInit 30)) dense sparse 700 2102 :=
  sameWindow 640 _ samePixels_dense_sparse rfl rfl (by rw [validBefore_dense, validBefore_sparse])

end VideoPipeline.Image

import VideoPipeline.Pixel.BorderMask

/-!
The first line memory in the assembled pixel path is a delay of exactly one line. The address is
taken from the live counters a clock after the request, so each line is stored one place further
than its columns, its last pixel at place zero; but every line visits the places in this one
order, whatever lies between two lines or two frames.
-/

namespace VideoPipeline.Pixel

open VideoPipeline.Lib VideoPipeline.Vga VideoPipeline.Image

variable {m : LineInit 30} {inp : ℕ → PipeIn}

/-- The place of a column: one further, the last one at zero. -/
def place : Equiv.Perm (Fin 640) where
  toFun c := ⟨(c + 1) % 640, by omega⟩
  invFun p := ⟨(p + 639) % 640, by omega⟩
  left_inv c := by
    apply Fin.ext
    have := c.isLt
    dsimp only
    omega
  right_inv p := by
    apply Fin.ext
    have := p.isLt
    dsimp only
    omega

/-- `addr_x` in cycle `t`. -/
def addrX (m : LineInit 30) (inp : ℕ → PipeIn) (t : ℕ) : BitVec 10 := (lineInput m inp t).addrX

/-- What the first line memory gives back in cycle `t`. -/
def lb0Read (m : LineInit 30) (inp : ℕ → PipeIn) (t : ℕ) : BitVec 30 :=
  (pipelineAt m inp t).uImageProcessor.uLineBuf.lb0Mem (addrX m inp t)

/-- The request `n` is presented to the line buffer in the next cycle, as the valid pixel that
has its column. -/
theorem rgbValid_of_requests (h : Supplied inp) {n : ℕ} (hr : Requests n) :
    RgbValid m inp (n + 1) ∧ newest m inp (n + 1) = Nat.count Requests n :=
  ⟨(valid_succ_iff h n).2 hr, validBefore_succ_eq h n⟩

/-- Every pixel is presented once. -/
theorem exists_newest (h : Supplied inp) (k : ℕ) : ∃ t, RgbValid m inp t ∧ newest m inp t = k := by
  obtain ⟨hv, hk⟩ := rgbValid_of_requests (m := m) h (requests_requestTime k)
  exact ⟨_, hv, by rw [hk, count_requestTime]⟩

lemma newest_injective {t t' : ℕ} (ht : RgbValid m inp t) (ht' : RgbValid m inp t')
    (hk : newest m inp t = newest m inp t') : t = t' :=
  Nat.count_injective (p := Valid (lineInput m inp)) ht ht' hk

lemma lt_of_newest_lt {t t' : ℕ} (h : newest m inp t' < newest m inp t) : t' < t :=
  Nat.lt_of_count_lt_count h

theorem addrX_eq (h : Supplied inp) {t : ℕ} (ht : RgbValid m inp t) :
    (addrX m inp t).toNat = (newest m inp t + 1) % 640 := by
  rw [addrX, (carries_lineInput h).addr t ht, lineAddr_toNat]
  rfl

/-- **A delay of one line.** -/
theorem lb0Read_eq (h : Supplied inp) {t : ℕ} (ht : RgbValid m inp t) (hk : 640 ≤ newest m inp t) :
    lb0Read m inp t = pixelIn inp (newest m inp t - 640) := by
  rw [lb0Read, (holds_pipeline h t).lb0Mem, addrX, (carries_lineInput h).addr t ht,
    writes_rotates (lineAddr_rotates 1)]
  exact delayed_of_le hk

/-- **The first line memory in the pipeline.** -/
structure LineDelay (m : LineInit 30) (inp : ℕ → PipeIn) : Prop where
  inside : ∀ t, RgbValid m inp t → (addrX m inp t).toNat < 640
  /-- The valid pixel in column `c` of any line goes to the place of `c`. -/
  order : ∀ t, RgbValid m inp t → ∀ c : Fin 640, newest m inp t % 640 = c →
    (addrX m inp t).toNat = place c
  /-- Every line visits every place exactly once. -/
  once : ∀ (l : ℕ) (p : Fin 640),
    ∃! t, RgbValid m inp t ∧ newest m inp t / 640 = l ∧ (addrX m inp t).toNat = p
  /-- A line of valid pixels is a line of the scan. -/
  column : ∀ n, Requests n → RgbValid m inp (n + 1) ∧
    newest m inp (n + 1) % 640 = ((pipelineAt m inp n).uVga.oCurrentX .std).toNat
  delay : ∀ t, RgbValid m inp t → 640 ≤ newest m inp t →
    ∃ t' < t, RgbValid m inp t' ∧ newest m inp t' + 640 = newest m inp t ∧
      lb0Read m inp t = (lineInput m inp t').iData

theorem lineDelay (m : LineInit 30) (h : Supplied inp) : LineDelay m inp := by
  refine ⟨?_, ?_, ?_, ?_, ?_⟩
  · intro t ht
    rw [addrX_eq h ht]
    omega
  · intro t ht c hc
    rw [addrX_eq h ht]
    change _ = (c.val + 1) % 640
    omega
  · intro l p
    have hp := p.isLt
    obtain ⟨t, ht, hk⟩ := exists_newest (m := m) h (640 * l + (p + 639) % 640)
    refine ⟨t, ⟨ht, by omega, by rw [addrX_eq h ht]; omega⟩, ?_⟩
    rintro t' ⟨ht', hl, ha⟩
    rw [addrX_eq h ht'] at ha
    exact newest_injective ht' ht (by omega)
  · intro n hr
    obtain ⟨hv, hk⟩ := rgbValid_of_requests (m := m) h hr
    rw [hk, uVga_pipelineAt, oCurrentX_std]
    exact ⟨hv, count_mod_of_requests hr⟩
  · intro t ht hk
    obtain ⟨j, hj⟩ := Nat.exists_eq_add_of_le' hk
    obtain ⟨t', ht', hj'⟩ := exists_newest (m := m) h j
    have hlt : newest m inp t' < newest m inp t := by omega
    refine ⟨t', lt_of_newest_lt hlt, ht', by omega, ?_⟩
    rw [lb0Read_eq h ht hk, (carries_lineInput h).data _ ht', hj, Nat.add_sub_cancel]
    exact congrArg (pixelIn inp) hj'.symm

theorem lineDelay_marked : LineDelay (blankInit 30) (marked 5) := lineDelay _ (supplied_marked 5)

end VideoPipeline.Pixel

import VideoPipeline.Vga.Controller

/-!
The waveform of `VGA_controller` for every choice of its parameters: the counters in closed form,
and every output as a function of the counters six edges ago.
-/

namespace VideoPipeline.Vga

open VideoPipeline.Lib

/-! ### The parameters as integers -/

namespace Params

variable (p : Params)

/-- The horizontal parameters added up as integers. -/
def hSum : ℕ := p.hFront.toNat + p.hSync.toNat + p.hBack.toNat + p.hAct.toNat

/-- The vertical parameters added up as integers. -/
def vSum : ℕ := p.vFront.toNat + p.vSync.toNat + p.vBack.toNat + p.vAct.toNat

/-- No sum of the parameters wraps. -/
structure Exact : Prop where
  hSyncEnd : (p.hFront + p.hSync).toNat = p.hFront.toNat + p.hSync.toNat
  hBlank : p.hBlank.toNat = p.hFront.toNat + p.hSync.toNat + p.hBack.toNat
  hTotal : p.hTotal.toNat = p.hSum
  vSyncEnd : (p.vFront + p.vSync).toNat = p.vFront.toNat + p.vSync.toNat
  vBlank : p.vBlank.toNat = p.vFront.toNat + p.vSync.toNat + p.vBack.toNat
  vTotal : p.vTotal.toNat = p.vSum

variable {p}

theorem exact_of_le (hH : p.hSum ≤ 2047) (hV : p.vSum ≤ 2047) : p.Exact := by
  unfold hSum at hH
  unfold vSum at hV
  constructor <;>
    simp only [hTotal, hBlank, vTotal, vBlank, hSum, vSum, BitVec.toNat_add] <;>
    omega

end Params

/-! ### The signals as functions of the counters -/

section Signals

variable (p : Params) (s : VgaController)

lemma cHs_eq_false_iff : s.cHs p = false ↔
    p.hFront.toNat ≤ s.hCont.toNat ∧ s.hCont.toNat < (p.hFront + p.hSync).toNat := by
  unfold VgaController.cHs
  simp only [Bool.not_eq_false', Bool.and_eq_true, decide_eq_true_eq, BitVec.le_def, BitVec.lt_def]

lemma cVs_eq_false_iff : s.cVs p = false ↔
    p.vFront.toNat ≤ s.vCont.toNat ∧ s.vCont.toNat < (p.vFront + p.vSync).toNat := by
  unfold VgaController.cVs
  simp only [Bool.not_eq_false', Bool.and_eq_true, decide_eq_true_eq, BitVec.le_def, BitVec.lt_def]

lemma cBlank_eq_true_iff : s.cBlank p = true ↔
    p.hBlank.toNat ≤ s.hCont.toNat ∧ p.vBlank.toNat ≤ s.vCont.toNat := by
  unfold VgaController.cBlank
  simp only [Bool.and_eq_true, decide_eq_true_eq, BitVec.le_def]

end Signals

/-! ### The waveform -/

/-- **The waveform** of a scan that is shown the colours `i`. -/
structure Waveform (p : Params) (i : ℕ → Rgb10) : Prop where
  hCont : ∀ n, (scan p i n).hCont.toNat = n % p.hTotal.toNat
  vCont : ∀ n, (scan p i n).vCont.toNat = n / p.hTotal.toNat % p.vTotal.toNat
  /-- Nothing has reached the outputs yet. -/
  early : ∀ n < 6, (scan p i n).oVgaHs = true ∧ (scan p i n).oVgaVs = true ∧
    (scan p i n).oVgaBlank = false
  hs : ∀ n, (scan p i (n + 6)).oVgaHs = false ↔
    p.hFront.toNat ≤ n % p.hTotal.toNat ∧ n % p.hTotal.toNat < (p.hFront + p.hSync).toNat
  vs : ∀ n, (scan p i (n + 6)).oVgaVs = false ↔
    p.vFront.toNat ≤ n / p.hTotal.toNat % p.vTotal.toNat ∧
      n / p.hTotal.toNat % p.vTotal.toNat < (p.vFront + p.vSync).toNat
  blank : ∀ n, (scan p i (n + 6)).oVgaBlank = true ↔
    p.hBlank.toNat ≤ n % p.hTotal.toNat ∧
      p.vBlank.toNat ≤ n / p.hTotal.toNat % p.vTotal.toNat
  /-- The colours shown are those sampled at the last edge. -/
  colour : ∀ n, (scan p i (n + 1)).oVgaBlank = true →
    (scan p i (n + 1)).oVgaR = (i n).red.extractLsb' 2 8 ∧
      (scan p i (n + 1)).oVgaG = (i n).green.extractLsb' 2 8 ∧
      (scan p i (n + 1)).oVgaB = (i n).blue.extractLsb' 2 8
  dark : ∀ n, (scan p i n).oVgaBlank = false →
    (scan p i n).oVgaR = 0 ∧ (scan p i n).oVgaG = 0 ∧ (scan p i n).oVgaB = 0

variable {p : Params} {i : ℕ → Rgb10}

/-- Outside the picture the output register is black. -/
theorem vgaRgb_scan_of_blank {n : ℕ} (h : (scan p i n).oVgaBlank = false) :
    (scan p i n).vgaRgb = .black := by
  cases n with
  | zero => rfl
  | succ n =>
    rw [scan_succ] at h ⊢
    exact if_neg (Bool.eq_false_iff.1 h)

/-- The channels are cut from the output register. -/
lemma channels_of_vgaRgb {s : VgaController} {c : Rgb10} (h : s.vgaRgb = c) :
    s.oVgaR = c.red.extractLsb' 2 8 ∧ s.oVgaG = c.green.extractLsb' 2 8 ∧
      s.oVgaB = c.blue.extractLsb' 2 8 := by
  subst h
  exact ⟨rfl, rfl, rfl⟩

/-- **Every scan has the waveform**, whatever the parameters and the colours. In eleven bits the
derived parameters are exact as long as the integers they are sums of stay below 2048. -/
theorem waveform (p : Params) (hH : 0 < p.hTotal.toNat) (hV : 0 < p.vTotal.toNat) (i : ℕ → Rgb10) :
    Waveform p i ∧ (p.hSum ≤ 2047 → p.vSum ≤ 2047 → p.Exact) := by
  refine ⟨?_, Params.exact_of_le⟩
  constructor
  · exact hCont_scan hH
  · exact vCont_scan hH hV
  · intro n hn
    exact ⟨oVgaHs_scan_init hn, oVgaVs_scan_init hn, oVgaBlank_scan_init hn⟩
  · intro n
    rw [oVgaHs_scan, cHs_eq_false_iff, hCont_scan hH]
  · intro n
    rw [oVgaVs_scan, cVs_eq_false_iff, vCont_scan hH hV]
  · intro n
    rw [oVgaBlank_scan, cBlank_eq_true_iff, hCont_scan hH, vCont_scan hH hV]
  · intro n h
    exact channels_of_vgaRgb (vgaRgb_scan h)
  · intro n h
    exact channels_of_vgaRgb (vgaRgb_scan_of_blank h)

/-- Colours that change from pixel to pixel. -/
def rainbow (n : ℕ) : Rgb10 := ⟨.ofNat 10 n, .ofNat 10 (3 * n), .ofNat 10 (n / 4)⟩

theorem waveform_std : Waveform .std rainbow ∧ Params.std.Exact :=
  have h := waveform .std (by decide) (by decide) rainbow
  ⟨h.1, h.2 (by decide) (by decide)⟩

end VideoPipeline.Vga

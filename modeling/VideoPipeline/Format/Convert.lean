import VideoPipeline.Lib.Bits
import VideoPipeline.Lib.DelayLine
import Mathlib.Data.List.GetD
import Mathlib.Data.List.OfFn

/-!
The way of an image into the memory: `convert.py` writes the RGB565 codes of its pixels row by
row, each as two bytes with the lower one first, and the bytes of the file are placed in the
memory from `0x02000000` on, the address of `download_sdram.tcl`.
-/

namespace VideoPipeline.Format

open VideoPipeline.Lib

/-! ### The codes -/

/-- A pixel of `arr_original`. -/
structure Rgb888 where
  red : BitVec 8
  green : BitVec 8
  blue : BitVec 8
deriving DecidableEq, Repr

/-- An image of `TARGET_H` rows of `TARGET_W` pixels. -/
def Image := Fin 480 → Fin 640 → Rgb888

def r5 (c : Rgb888) : BitVec 16 := (c.red.setWidth 16 >>> 3) &&& 0x1F
def g6 (c : Rgb888) : BitVec 16 := (c.green.setWidth 16 >>> 2) &&& 0x3F
def b5 (c : Rgb888) : BitVec 16 := (c.blue.setWidth 16 >>> 3) &&& 0x1F

/-- The code of a pixel, computed in `uint16`. -/
def rgb565 (c : Rgb888) : BitVec 16 := (r5 c <<< 11) ||| (g6 c <<< 5) ||| b5 c

/-- The integers of the decoding that `convert.py` ends with, before they are scaled. -/
def r10 (raw : BitVec 16) : BitVec 16 :=
  let r5d := (raw >>> 11) &&& 0x1F
  (r5d <<< 5) ||| r5d

def g10 (raw : BitVec 16) : BitVec 16 :=
  let g6d := (raw >>> 5) &&& 0x3F
  (g6d <<< 4) ||| (g6d >>> 2)

def b10 (raw : BitVec 16) : BitVec 16 :=
  let b5d := raw &&& 0x1F
  (b5d <<< 5) ||| b5d

/-! ### The file -/

/-- A word of the file, in the byte order `<u2`. -/
def leBytes (w : BitVec 16) : List (BitVec 8) := [w.extractLsb' 0 8, w.extractLsb' 8 8]

/-- `rgb565`, flattened row by row. -/
def codes (img : Image) : List (BitVec 16) :=
  (List.ofFn fun y => List.ofFn fun x => rgb565 (img y x)).flatten

/-- The file that `convert.py` writes. -/
def binFile (img : Image) : List (BitVec 8) := (codes img).flatMap leBytes

/-- The pixel `k` in raster order. -/
def Image.pixel (img : Image) (k : Fin (480 * 640)) : Rgb888 := img k.divNat k.modNat

/-! ### The memory -/

/-- `base_addr` of `load_image`, a byte address. -/
def baseAddr : BitVec 26 := 0x02000000

/-- The memory `mem` with the bytes of `file` at consecutive addresses from `base` on. -/
def loadAt (base : BitVec 26) (file : List (BitVec 8)) (mem : BitVec 26 → BitVec 8) :
    BitVec 26 → BitVec 8 :=
  writes mem (fun n => base + BitVec.ofNat 26 n) (fun n => file.getD n 0) file.length

/-- The memory `mem` with the bytes of `file` from `base_addr` on. -/
def load (file : List (BitVec 8)) (mem : BitVec 26 → BitVec 8) : BitVec 26 → BitVec 8 :=
  loadAt baseAddr file mem

/-- `sdram_read_bridge_address`: the byte address of a word. -/
def byteAddress (avmAddress : BitVec 25) : BitVec 26 := avmAddress ++ (0 : BitVec 1)

/-- The little-endian word at a word address. -/
def wordAt (mem : BitVec 26 → BitVec 8) (avmAddress : BitVec 25) : BitVec 16 :=
  mem (byteAddress avmAddress + 1) ++ mem (byteAddress avmAddress)

lemma toNat_byteAddress (a : BitVec 25) : (byteAddress a).toNat = 2 * a.toNat := by
  rw [byteAddress, BitVec.toNat_append, Nat.shiftLeft_eq]
  simp [Nat.mul_comm]

/-! ### What the memory holds -/

/-- Rows one after the other are the raster order. -/
lemma flatten_ofFn {α : Type*} {m n : ℕ} (f : Fin m → Fin n → α) :
    (List.ofFn fun y => List.ofFn fun x => f y x).flatten =
      List.ofFn fun k : Fin (m * n) => f k.divNat k.modNat := by
  rw [List.ofFn_mul]
  congr 1
  refine congrArg List.ofFn (funext fun y => congrArg List.ofFn (funext fun x => ?_))
  congr 1
  · apply Fin.ext
    have hx := x.isLt
    change (y : ℕ) = (y * n + x) / n
    rw [Nat.mul_comm, Nat.mul_add_div (by omega), Nat.div_eq_of_lt hx, Nat.add_zero]
  · apply Fin.ext
    change (x : ℕ) = (y * n + x) % n
    rw [Nat.mul_comm, Nat.mul_add_mod, Nat.mod_eq_of_lt x.isLt]

lemma getD_ofFn {α : Type*} {n : ℕ} (f : Fin n → α) (a : α) (k : Fin n) :
    (List.ofFn f).getD k a = f k := by
  rw [List.getD_eq_getElem _ _ (by rw [List.length_ofFn]; exact k.isLt), List.getElem_ofFn]

lemma codes_eq (img : Image) : codes img = List.ofFn fun k => rgb565 (img.pixel k) :=
  flatten_ofFn fun y x => rgb565 (img y x)

lemma length_leBytes_flatMap (l : List (BitVec 16)) :
    (l.flatMap leBytes).length = 2 * l.length := by
  induction l with
  | nil => rfl
  | cons w l ih =>
    rw [List.flatMap_cons, List.length_append, ih, List.length_cons, leBytes]
    simp
    omega

/-- The bytes `2 k` and `2 k + 1` are those of the word `k`. -/
lemma getD_leBytes_flatMap (l : List (BitVec 16)) (k : ℕ) :
    (l.flatMap leBytes).getD (2 * k) 0 = (l.getD k 0).extractLsb' 0 8 ∧
      (l.flatMap leBytes).getD (2 * k + 1) 0 = (l.getD k 0).extractLsb' 8 8 := by
  induction l generalizing k with
  | nil => simp
  | cons w l ih =>
    rw [List.flatMap_cons, leBytes]
    cases k with
    | zero => exact ⟨rfl, rfl⟩
    | succ k => exact ih k

lemma length_binFile (img : Image) : (binFile img).length = 614400 := by
  rw [binFile, length_leBytes_flatMap, codes_eq, List.length_ofFn]

section Memory

variable {base a : BitVec 26} {file : List (BitVec 8)} {mem : BitVec 26 → BitVec 8}

/-- **What is loaded, and what is not.** The bytes of the file are found in their order from the
base on, and everything else is as it was. -/
theorem loadAt_apply (hf : base.toNat + file.length ≤ 2 ^ 26) : loadAt base file mem a =
    if base.toNat ≤ a.toNat then file[a.toNat - base.toNat]?.getD (mem a) else mem a := by
  have hplace {n : ℕ} (hn : n < file.length) :
      (base + BitVec.ofNat 26 n).toNat = base.toNat + n := by
    rw [BitVec.toNat_add, BitVec.toNat_ofNat]
    omega
  by_cases h : base.toNat ≤ a.toNat ∧ a.toNat - base.toNat < file.length
  · obtain ⟨hle, hlt⟩ := h
    have ha : base + BitVec.ofNat 26 (a.toNat - base.toNat) = a := by
      apply BitVec.eq_of_toNat_eq
      rw [hplace hlt]
      omega
    have hlast := writes_of_last (m := mem) (a := fun n => base + BitVec.ofNat 26 n)
      (d := fun n => file.getD n 0) hlt fun i h1 h2 he => by
        have := congrArg BitVec.toNat he
        rw [hplace h2, hplace hlt] at this
        omega
    rw [ha] at hlast
    rw [if_pos hle, List.getElem?_eq_getElem hlt, Option.getD_some, loadAt, hlast,
      List.getD_eq_getElem _ _ hlt]
  · have hnone := writes_of_ne (m := mem) (a := fun n => base + BitVec.ofNat 26 n)
      (d := fun n => file.getD n 0) (b := a) (k := 0) (j := file.length) fun i _ h2 he => by
        have := congrArg BitVec.toNat he
        rw [hplace (by omega)] at this
        omega
    rw [Nat.zero_add] at hnone
    rw [loadAt, hnone]
    split_ifs with hle
    · rw [List.getElem?_eq_none (by omega)]
      rfl
    · rfl

/-- A word of the picture after a file of any size was loaded. -/
theorem wordAt_load {w : BitVec 25} {k : ℕ} (hf : file.length ≤ 0x2000000)
    (hw : w.toNat = 0x1000000 + k) : wordAt (load file mem) w =
      file[2 * k + 1]?.getD (mem (byteAddress w + 1)) ++ file[2 * k]?.getD (mem (byteAddress w)) := by
  have hb : baseAddr.toNat = 0x2000000 := rfl
  have hlow : (byteAddress w).toNat = 0x2000000 + 2 * k := by
    rw [toNat_byteAddress, hw]
    omega
  have hlt := w.isLt
  have hhigh : (byteAddress w + 1).toNat = 0x2000000 + (2 * k + 1) := by
    have h1 : (1 : BitVec 26).toNat = 1 := rfl
    rw [BitVec.toNat_add, hlow, h1]
    omega
  rw [wordAt, load, loadAt_apply (by omega), loadAt_apply (by omega), hlow, hhigh, hb,
    if_pos (Nat.le_add_right _ _), if_pos (Nat.le_add_right _ _), Nat.add_sub_cancel_left,
    Nat.add_sub_cancel_left]

/-- **The loaded picture.** Word `k` of the picture is the code of pixel `k`. -/
theorem wordAt_load_binFile (img : Image) (mem : BitVec 26 → BitVec 8) {w : BitVec 25}
    (k : Fin (480 * 640)) (hw : w.toNat = 0x1000000 + k) :
    wordAt (load (binFile img) mem) w = rgb565 (img.pixel k) := by
  have hk := k.isLt
  have hlen := length_binFile img
  have hbyte {n : ℕ} (hn : n < (binFile img).length) (d : BitVec 8) :
      (binFile img)[n]?.getD d = (binFile img).getD n 0 := by
    rw [List.getElem?_eq_getElem hn, Option.getD_some, List.getD_eq_getElem _ _ hn]
  have hcode : (codes img).getD k 0 = rgb565 (img.pixel k) := by
    rw [codes_eq, getD_ofFn]
  obtain ⟨h0, h1⟩ := getD_leBytes_flatMap (codes img) k
  rw [wordAt_load (by omega) hw, hbyte (by omega), hbyte (by omega)]
  rw [binFile, h0, h1, hcode]
  exact bytes_append _

end Memory

end VideoPipeline.Format

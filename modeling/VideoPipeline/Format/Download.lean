import VideoPipeline.Format.Convert
import VideoPipeline.Lib.Fallible

/-!
`download_sdram.tcl` over a system console of which only the documented behaviour is known. Each
of its commands may fail, and the procedure catches no error: so when it returns, the service it
claimed is closed again and its result says what happened, and when it fails, the service claimed
may be left.
-/

namespace VideoPipeline.Format

open VideoPipeline.Lib

/-! ### The procedure -/

/-- The commands that the script uses, which may change the state `σ` of the world and fail. -/
structure Console (σ : Type) where
  getServicePaths (type : String) : EStateM String σ (List String)
  claimService (type path library : String) : EStateM String σ String
  closeService (type path : String) : EStateM String σ PUnit
  masterWriteFromFile (path file address : String) : EStateM String σ PUnit
  fileExists (file : String) : EStateM String σ Bool
  fileSize (file : String) : EStateM String σ ℕ
  puts (text : String) : EStateM String σ PUnit

namespace Console

variable {σ : Type} (c : Console σ)

def rule : String := "==================================================="

/-- `load_image bin_file base_addr` -/
def loadImage (binFile baseAddr : String) : EStateM String σ ℤ := do
  let masterPaths ← c.getServicePaths "master"
  if masterPaths.length = 0 then
    c.puts "ERROR: No JTAG master found. Please check the USB-Blaster connection."
    return -1
  else
    let mPath := masterPaths.headD ""
    let claimPath ← c.claimService "master" mPath ""
    [rule, "  Loading RGB565 Image into SDRAM", "  File    : " ++ binFile,
      "  Address : " ++ baseAddr ++ "  (= VGA BUFFER_A_BASE)", rule].forM c.puts
    if !(← c.fileExists binFile) then
      c.puts ("ERROR: File '" ++ binFile ++ "' not found.")
      c.closeService "master" claimPath
      return -1
    else
      let fsize ← c.fileSize binFile
      (if fsize ≠ 614400 then
        ["WARNING: File size = " ++ toString fsize ++
            " bytes, expected 614400 bytes (640x480x2).",
          "         Continuing anyway..."]
      else []).forM c.puts
      c.masterWriteFromFile claimPath binFile baseAddr
      c.closeService "master" claimPath
      [rule, "  Image loading completed!", "  -> Press '1' + Enter in the JTAG UART terminal",
        "     to enable VGA display.", rule].forM c.puts
      return 0

/-- The file of the command line, or the one of the demonstration. -/
def fileOf (argv : List String) : String := argv.headD "tom_and_jerry.bin"

/-- The script itself. -/
def script (argv : List String) : EStateM String σ ℤ := c.loadImage (fileOf argv) "0x02000000"

end Console

/-! ### What the commands do -/

/-- What is seen of a state: the services that are claimed, and the memory behind them; and the
masters and the files, which stay as they are. -/
structure View (σ : Type) where
  held : σ → List String
  mem : σ → BitVec 26 → BitVec 8
  masters : List String
  files : String → Option (List (BitVec 8))

/-- The services claimed are `H`, and the memory holds `M`. -/
def View.At {σ : Type} (v : View σ) (H : List String) (M : BitVec 26 → BitVec 8) (s : σ) : Prop :=
  v.held s = H ∧ v.mem s = M

/-- The file is there, and if it fits, the memory is `M` with its bytes in place. -/
def View.Loaded {σ : Type} (v : View σ) (binFile : String) (M : BitVec 26 → BitVec 8) (s : σ) :
    Prop :=
  ∃ bytes, v.files binFile = some bytes ∧ (bytes.length ≤ 0x2000000 → v.mem s = load bytes M)

/-- What an error can leave: everything as it was, the service claimed, or a memory that is loaded
when only the last lines are missing. -/
def View.Failed {σ : Type} (v : View σ) (binFile : String) (H : List String)
    (M : BitVec 26 → BitVec 8) (s : σ) : Prop :=
  v.At H M s ∨ (∃ path, v.held s = path :: H) ∨ v.held s = H ∧ v.Loaded binFile M s

/-- **The documented behaviour of the commands.** A service is claimed, or closed, unless there is
an error; `master_write_from_file` places the bytes of the file in the memory, of which nothing is
known after an error; no other command changes the services or the memory. -/
structure Console.Documented {σ : Type} (c : Console σ) (v : View σ) : Prop where
  paths : ∀ H M, Triple (v.At H M) (c.getServicePaths "master")
    (fun l s => l = v.masters ∧ v.At H M s) (fun _ => v.At H M)
  claims : ∀ H M path, Triple (v.At H M) (c.claimService "master" path "")
    (fun claimPath => v.At (claimPath :: H) M) (fun _ => v.At H M)
  closes : ∀ H M claimPath, Triple (v.At (claimPath :: H) M) (c.closeService "master" claimPath)
    (fun _ => v.At H M) (fun _ s => v.At H M s ∨ v.At (claimPath :: H) M s)
  holds : ∀ H claimPath file address, claimPath ∈ H →
    Triple (fun s => v.held s = H) (c.masterWriteFromFile claimPath file address)
      (fun _ s => v.held s = H) (fun _ s => v.held s = H)
  writes : ∀ H M claimPath file bytes, claimPath ∈ H → v.files file = some bytes →
    bytes.length ≤ 0x2000000 →
      Triple (v.At H M) (c.masterWriteFromFile claimPath file "0x02000000")
        (fun _ => v.At H (load bytes M)) (fun _ s => v.held s = H)
  exist : ∀ H M file, Triple (v.At H M) (c.fileExists file)
    (fun b s => b = (v.files file).isSome ∧ v.At H M s) (fun _ => v.At H M)
  size : ∀ H M file, Triple (v.At H M) (c.fileSize file) (fun _ => v.At H M) (fun _ => v.At H M)
  prints : ∀ H M text, Triple (v.At H M) (c.puts text) (fun _ => v.At H M) (fun _ => v.At H M)

namespace Console.Documented

variable {σ : Type} {c : Console σ} {v : View σ} (h : c.Documented v) {H : List String}
  {M : BitVec 26 → BitVec 8} {binFile : String} {argv : List String}

include h

/-- The lines of a text. -/
lemma lines (l : List String) :
    Triple (v.At H M) (l.forM c.puts) (fun _ => v.At H M) (fun _ => v.At H M) :=
  Triple.forM (h.prints H M) l

/-- The write, for a file of any size. -/
lemma written {claimPath : String} {bytes : List (BitVec 8)} (hq : claimPath ∈ H)
    (hb : v.files binFile = some bytes) :
    Triple (v.At H M) (c.masterWriteFromFile claimPath binFile "0x02000000")
      (fun _ s => ∃ M', (bytes.length ≤ 0x2000000 → M' = load bytes M) ∧ v.At H M' s)
      (fun _ s => v.held s = H) := by
  by_cases hlen : bytes.length ≤ 0x2000000
  · exact (h.writes H M claimPath binFile bytes hq hb hlen).mono (fun _ hs => hs)
      (fun _ _ hs => ⟨_, fun _ => rfl, hs⟩) fun _ _ hs => hs
  · exact (h.holds H claimPath binFile "0x02000000" hq).mono (fun _ hs => hs.1)
      (fun _ s hs => ⟨v.mem s, fun hle => absurd hle hlen, hs, rfl⟩) fun _ _ hs => hs

/-- **One call of the procedure.** -/
theorem loadImage : Triple (v.At H M) (c.loadImage binFile "0x02000000")
    (fun code s => code = -1 ∧ v.At H M s ∧ (v.masters = [] ∨ v.files binFile = none) ∨
      code = 0 ∧ v.masters ≠ [] ∧ v.held s = H ∧ v.Loaded binFile M s)
    (fun _ => v.Failed binFile H M) := by
  unfold Console.loadImage
  have hbefore (_ : String) (s : σ) (hs : v.At H M s) : v.Failed binFile H M s := Or.inl hs
  -- an error between claim and close leaves the service claimed
  have hbetween (path _ : String) (s : σ) (hs : v.At (path :: H) M s) : v.Failed binFile H M s :=
    Or.inr (Or.inl ⟨path, hs.1⟩)
  refine ((h.paths H M).mono_error hbefore).bind fun masterPaths => Triple.and_elim fun hpaths => ?_
  rw [hpaths]
  refine Triple.ite (fun hm => ?_) fun hm => ?_
  · refine ((h.prints H M _).mono_error hbefore).bind fun _ => ?_
    exact Triple.pure fun s hs => Or.inl ⟨rfl, hs, Or.inl (List.length_eq_zero_iff.1 hm)⟩
  · refine ((h.claims H M _).mono_error hbefore).bind fun path => ?_
    refine ((h.lines _).mono_error (hbetween path)).bind fun _ => ?_
    refine ((h.exist _ M binFile).mono_error (hbetween path)).bind fun found =>
      Triple.and_elim fun hfound => ?_
    rw [hfound]
    refine Triple.ite (fun hf => ?_) fun hf => ?_
    · -- there is no file
      have hnone : v.files binFile = none := by simpa using hf
      refine ((h.prints _ M _).mono_error (hbetween path)).bind fun _ => ?_
      refine ((h.closes H M path).mono_error fun e s hs => ?_).bind fun _ => ?_
      · exact hs.elim (hbefore e s) (hbetween path e s)
      · exact Triple.pure fun s hs => Or.inl ⟨rfl, hs, Or.inr hnone⟩
    · obtain ⟨bytes, hbytes⟩ := Option.ne_none_iff_exists'.1 (show v.files binFile ≠ none by
        simpa using hf)
      refine ((h.size _ M binFile).mono_error (hbetween path)).bind fun fsize => ?_
      refine ((h.lines _).mono_error (hbetween path)).bind fun _ => ?_
      refine ((h.written List.mem_cons_self hbytes).mono_error fun _ _ hs =>
        Or.inr (Or.inl ⟨path, hs⟩)).bind fun _ => ?_
      refine Triple.exists_elim fun M' => Triple.and_elim fun hM' => ?_
      have hdone {s : σ} (hs : v.At H M' s) : v.held s = H ∧ v.Loaded binFile M s :=
        ⟨hs.1, bytes, hbytes, fun hlen => hs.2.trans (hM' hlen)⟩
      refine ((h.closes H M' path).mono_error fun _ s hs => ?_).bind fun _ => ?_
      · exact hs.elim (fun hs => Or.inr (Or.inr (hdone hs))) fun hs => Or.inr (Or.inl ⟨path, hs.1⟩)
      · refine ((h.lines _).mono_error fun _ _ hs => Or.inr (Or.inr (hdone hs))).bind fun _ => ?_
        exact Triple.pure fun s hs =>
          Or.inr ⟨rfl, fun hnil => hm (List.length_eq_zero_iff.2 hnil), hdone hs⟩

/-- **A download, with all that can go wrong.** If the script returns, the services claimed are as
before; it reports success just when there is a master and the file, and leaves the memory as it
was otherwise; and after a success with a file that fits, each byte of the picture is that of the
file, or the old one behind its end. If a command fails, the script ends there, with the service
claimed but not closed unless the error came before the claim or after the close. -/
theorem script_outcome (argv : List String) : Triple (v.At H M) (c.script argv)
    (fun code s => v.held s = H ∧ (code = 0 ∨ code = -1) ∧
      (code = 0 ↔ v.masters ≠ [] ∧ v.files (fileOf argv) ≠ none) ∧ (code ≠ 0 → v.mem s = M) ∧
        ∀ bytes, code = 0 → v.files (fileOf argv) = some bytes → bytes.length ≤ 0x2000000 →
          ∀ (w : BitVec 25) (k : ℕ), w.toNat = 0x1000000 + k → wordAt (v.mem s) w =
            bytes[2 * k + 1]?.getD (M (byteAddress w + 1)) ++
              bytes[2 * k]?.getD (M (byteAddress w)))
    (fun _ => v.Failed (fileOf argv) H M) := by
  refine h.loadImage.mono (fun _ hs => hs) ?_ fun _ _ hs => hs
  rintro code s (⟨rfl, hs, hnot⟩ | ⟨rfl, hm, hheld, bytes, hbytes, hload⟩)
  · refine ⟨hs.1, Or.inr rfl, ⟨fun h0 => absurd h0 (by decide), ?_⟩, fun _ => hs.2, ?_⟩
    · rintro ⟨hm, hf⟩
      exact absurd hnot (not_or.2 ⟨hm, hf⟩)
    · exact fun bytes h0 => absurd h0 (by decide)
  · refine ⟨hheld, Or.inl rfl, ⟨fun _ => ⟨hm, ?_⟩, fun _ => rfl⟩, fun h0 => absurd rfl h0, ?_⟩
    · rw [hbytes]
      exact Option.some_ne_none _
    · intro bytes' _ hb' hlen w k hw
      obtain rfl : bytes = bytes' := Option.some.inj (hbytes.symm.trans hb')
      rw [hload hlen]
      exact wordAt_load hlen hw

/-- After a success the memory holds the file. -/
lemma mem_of_script {argv : List String} {bytes : List (BitVec 8)} {s s' : σ}
    (hf : v.files (fileOf argv) = some bytes) (hlen : bytes.length ≤ 0x2000000)
    (hrun : c.script argv s = .ok 0 s') : v.mem s' = load bytes (v.mem s) := by
  have hok := h.loadImage.ok (show v.At (v.held s) (v.mem s) s from ⟨rfl, rfl⟩) hrun
  rcases hok with ⟨h0, -⟩ | ⟨-, -, -, bytes', hb', hload⟩
  · exact absurd h0 (by decide)
  · obtain rfl : bytes = bytes' := Option.some.inj (hf.symm.trans hb')
    exact hload hlen

end Console.Documented

/-! ### A desk -/

/-- The services claimed, and the memory behind the one master. -/
structure Desk where
  held : List String
  mem : BitVec 26 → BitVec 8

/-- A console over the files `files`, whose commands fail only when they are used wrongly. -/
def desk (files : String → Option (List (BitVec 8))) : Console Desk where
  getServicePaths _ := pure ["/devices/5CSE"]
  claimService _ path _ s := .ok (path ++ "/claim") { s with held := (path ++ "/claim") :: s.held }
  closeService _ path s :=
    if path ∈ s.held then .ok ⟨⟩ { s with held := s.held.erase path }
    else .error "not claimed" s
  masterWriteFromFile path file address s :=
    if path ∈ s.held ∧ address = "0x02000000" then
      match files file with
      | some bytes => .ok ⟨⟩ { s with mem := load bytes s.mem }
      | none => .error "no file" s
    else .error "no service" s
  fileExists file := pure (files file).isSome
  fileSize file s :=
    match files file with
    | some bytes => .ok bytes.length s
    | none => .error "no file" s
  puts _ := pure ⟨⟩

/-- What is seen of the desk. -/
def deskView (files : String → Option (List (BitVec 8))) : View Desk :=
  ⟨Desk.held, Desk.mem, ["/devices/5CSE"], files⟩

lemma documented_desk (files : String → Option (List (BitVec 8))) :
    (desk files).Documented (deskView files) where
  paths _ _ := Triple.pure fun _ hs => ⟨rfl, hs⟩
  claims _ _ path s hs := ⟨congrArg ((path ++ "/claim") :: ·) hs.1, hs.2⟩
  closes H M path s hs := by
    have hheld : s.held = path :: H := hs.1
    simp only [desk, hheld, List.mem_cons_self, if_true, List.erase_cons_head]
    exact ⟨rfl, hs.2⟩
  holds H path file address _ s hs := by
    simp only [desk]
    split_ifs
    · cases files file <;> exact hs
    · exact hs
  writes H M path file bytes hq hb _ s hs := by
    have hheld : s.held = H := hs.1
    have hfile : files file = some bytes := hb
    simp only [desk, hheld, hq, hfile, and_self, if_true]
    exact ⟨rfl, congrArg (load bytes) hs.2⟩
  exist _ _ _ := Triple.pure fun _ hs => ⟨rfl, hs⟩
  size _ _ file s hs := by
    simp only [desk]
    cases files file <;> exact hs
  prints _ _ _ := Triple.pure fun _ hs => hs

/-- The desk runs the script to its end when the file is there. -/
lemma script_desk {files : String → Option (List (BitVec 8))} {argv : List String}
    {bytes : List (BitVec 8)} (hb : files (Console.fileOf argv) = some bytes)
    (mem : BitVec 26 → BitVec 8) :
    (desk files).script argv ⟨[], mem⟩ = .ok 0 ⟨[], load bytes mem⟩ := by
  have hlines (l : List String) (s : Desk) : forM l (fun _ => EStateM.pure ⟨⟩) s =
      (EStateM.Result.ok ⟨⟩ s : EStateM.Result String Desk PUnit) := by
    induction l with
    | nil => rfl
    | cons _ _ ih => exact ih
  simp [Console.script, Console.loadImage, desk, bind, EStateM.bind, pure, EStateM.pure, hb, hlines]

/-- One file of three bytes. -/
def threeBytes (file : String) : Option (List (BitVec 8)) :=
  if file = "three.bin" then some [0x12, 0x34, 0x56] else none

theorem script_outcome_desk : ∃ s',
    (desk threeBytes).script ["three.bin"] ⟨[], fun _ => 0⟩ = .ok 0 s' ∧ s'.held = [] ∧ wordAt s'.mem 0x1000001 = 0x0056 := by
  have hrun := script_desk (show threeBytes (Console.fileOf ["three.bin"]) = _ from rfl) fun _ => 0
  have hok := ((documented_desk threeBytes).script_outcome (H := []) (M := fun _ => 0)
    ["three.bin"]).ok ⟨rfl, rfl⟩ hrun
  exact ⟨_, hrun, hok.1, hok.2.2.2.2 [0x12, 0x34, 0x56] rfl rfl (by decide) 0x1000001 1 rfl⟩

/-- When the link breaks during the write, the service is left. -/
example : ∃ e s', Console.script { desk threeBytes with
    masterWriteFromFile := fun _ _ _ s => .error "link lost" s } ["three.bin"] ⟨[], fun _ => 0⟩ =
      .error e s' ∧ s'.held = ["/devices/5CSE/claim"] :=
  ⟨_, _, rfl, rfl⟩

end VideoPipeline.Format

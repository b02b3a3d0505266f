import VideoPipeline.Read.Commands
import VideoPipeline.Read.Path

/-!
The words under way between the read counter and the read side of the FIFO: those in the FIFO,
then those of the unanswered reads, then that of the command on the bus. Over a fixed memory and
a bus that answers in order, an edge appends the word of the command it places and changes
nothing else; so the words under way trail the read counter, with older words before them.
-/

namespace VideoPipeline.Read

open SdramReadController

section Words

variable (mem : BitVec 25 → BitVec 16)

/-- The word `j` of the picture, `mem[BUFFER_A_BASE + j]`. -/
def pictureWord (j : ℕ) : BitVec 16 := mem (bufferABase + BitVec.ofNat 25 j)

lemma toNat_base_add {j : ℕ} (h : j < 307200) :
    (bufferABase + BitVec.ofNat 25 j).toNat = bufferABase.toNat + j := by
  have hb : bufferABase.toNat = 0x1000000 := rfl
  rw [BitVec.toNat_add, BitVec.toNat_ofNat, hb]
  omega

/-- The first `n` words of the picture. -/
def picture (n : ℕ) : List (BitVec 16) := (List.range n).map (pictureWord mem)

lemma picture_succ (n : ℕ) : picture mem (n + 1) = picture mem n ++ [pictureWord mem n] := by
  rw [picture, List.range_succ, List.map_append]
  rfl

lemma length_picture (n : ℕ) : (picture mem n).length = n := by simp [picture]

/-- The bus answers the oldest read or none, out of the memory `mem`. -/
structure PathIn.InOrder (i : PathIn) : Prop where
  answer : i.answer = none ∨ i.answer = some 0
  mem_eq : i.mem = mem

namespace ReadPath

variable (s : ReadPath) (i : PathIn)

/-- The word of the command on the bus, if there is one. -/
def commandWord : List (BitVec 16) := if s.ctl.avmRead then [mem s.ctl.avmAddress] else []

/-- The words under way. -/
def words : List (BitVec 16) := s.fifo ++ s.bus.map mem ++ s.commandWord mem

/-- The word of the command that the edge places, if it places one. -/
def issuedWord : List (BitVec 16) :=
  if s.ctl.issues (s.ctlIn i) then [pictureWord mem s.ctl.reqCnt.toNat] else []

/-- A word that is answered finds room in the FIFO. -/
def HasRoom : Prop := (s.answered i).isSome = true → s.fifo.length < 2048

variable {mem s i}

lemma length_words : (s.words mem).length = s.fifo.length + s.bus.length + s.onBus := by
  unfold words commandWord onBus
  split_ifs <;> simp [Nat.add_assoc]

/-! ### One edge -/

/-- An answer moves the oldest word of the bus to the end of the FIFO. -/
lemma fifoWrite_append_unanswered (hi : i.InOrder mem) (hr : s.HasRoom i) :
    fifoWrite false (s.ctlIn i).fifoWrreq (s.ctlIn i).fifoWrdata s.fifo ++
      (s.unanswered i).map mem = s.fifo ++ s.bus.map mem := by
  unfold HasRoom answered at hr
  unfold fifoWrite CtlIn.fifoWrreq CtlIn.fifoWrdata ctlIn answered unanswered
  rw [hi.mem_eq] at *
  rcases hi.answer with h | h <;> rw [h] at hr ⊢
  · rfl
  · cases hbus : s.bus with
    | nil => simp
    | cons a l =>
      rw [hbus] at hr
      have hlt : s.fifo.length < 2048 := hr rfl
      simp [hlt]

variable (mem) in
/-- The command taken goes to the bus, and the one placed takes its place. -/
lemma command_edge (aclr : Bool) :
    (if s.ctl.accepts (s.ctlIn i) then [s.ctl.avmAddress] else []).map mem ++
        (s.edge i aclr).commandWord mem = s.commandWord mem ++ s.issuedWord mem i := by
  have hrd : (s.edge i aclr).ctl.avmRead = (s.ctl.stalled (s.ctlIn i) || s.ctl.issues (s.ctlIn i)) :=
    avmRead_edge _ _
  have hadr : (s.edge i aclr).ctl.avmAddress = if s.ctl.issues (s.ctlIn i) then
      bufferABase + ((0 : BitVec 6) ++ s.ctl.reqCnt) else s.ctl.avmAddress := avmAddress_edge _ _
  unfold commandWord issuedWord
  rw [hrd, hadr]
  by_cases hst : s.ctl.stalled (s.ctlIn i) = true
  · -- the command is held
    simp [hst, not_accepts_of_stalled hst, not_issues_of_stalled hst, avmRead_of_stalled hst]
  · have hst' : s.ctl.stalled (s.ctlIn i) = false := Bool.eq_false_iff.2 hst
    rw [hst', accepts_eq hst', Bool.false_or]
    by_cases his : s.ctl.issues (s.ctlIn i) = true
    · have hword : mem (bufferABase + ((0 : BitVec 6) ++ s.ctl.reqCnt)) =
          pictureWord mem s.ctl.reqCnt.toNat := by
        have hlt := (issues_iff.1 his).need
        rw [pictureWord]
        congr 1
        apply BitVec.eq_of_toNat_eq
        rw [toNat_issued hlt, toNat_base_add hlt]
      simp only [his, if_true, hword]
      split_ifs <;> rfl
    · simp only [his]
      cases s.ctl.avmRead <;> rfl

variable (mem) in
/-- Unless the count is cleared, the words counted grow by that of the command placed. -/
lemma picture_edge (aclr : Bool) (hr : s.ctl.restarts (s.ctlIn i) = false) :
    picture mem (s.edge i aclr).ctl.reqCnt.toNat =
      picture mem s.ctl.reqCnt.toNat ++ s.issuedWord mem i := by
  unfold issuedWord
  by_cases his : s.ctl.issues (s.ctlIn i) = true
  · have hcnt : (s.edge i aclr).ctl.reqCnt.toNat = s.ctl.reqCnt.toNat + 1 :=
      toNat_reqCnt_of_issues his
    rw [if_pos his, hcnt, picture_succ]
  · have hcnt : (s.edge i aclr).ctl.reqCnt = s.ctl.reqCnt :=
      reqCnt_of_not_issues hr (Bool.eq_false_iff.2 his)
    rw [if_neg his, hcnt, List.append_nil]

/-- **An edge outside the clear** appends the word of the command it places. -/
theorem words_edge (hi : i.InOrder mem) (hr : s.HasRoom i) :
    (s.edge i false).words mem = s.words mem ++ s.issuedWord mem i := by
  have hcmd := command_edge mem (s := s) (i := i) false
  have hmove := fifoWrite_append_unanswered hi hr
  have hfifo : (s.edge i false).fifo =
      fifoWrite false (s.ctlIn i).fifoWrreq (s.ctlIn i).fifoWrdata s.fifo := rfl
  have hbus : (s.edge i false).bus = s.unanswered i ++
      if s.ctl.accepts (s.ctlIn i) then [s.ctl.avmAddress] else [] := rfl
  calc (s.edge i false).words mem
      = fifoWrite false (s.ctlIn i).fifoWrreq (s.ctlIn i).fifoWrdata s.fifo ++
          (s.unanswered i).map mem ++
          ((if s.ctl.accepts (s.ctlIn i) then [s.ctl.avmAddress] else []).map mem ++
            (s.edge i false).commandWord mem) := by
        rw [words, hfifo, hbus, List.map_append, List.append_assoc, List.append_assoc,
          List.append_assoc]
    _ = s.words mem ++ s.issuedWord mem i := by
        rw [hmove, hcmd, words, List.append_assoc, List.append_assoc, List.append_assoc]

/-- In the clear the words answered are lost. -/
theorem words_edge_clear (hi : i.InOrder mem) (hf : s.fifo = []) :
    (s.edge i true).words mem <:+ s.words mem ++ s.issuedWord mem i := by
  have hcmd := command_edge mem (s := s) (i := i) true
  have hun : (s.unanswered i).map mem <:+ s.bus.map mem := by
    unfold unanswered
    rcases hi.answer with h | h <;> rw [h]
    · exact List.suffix_refl _
    · rw [Option.elim_some, List.eraseIdx_zero]
      exact (List.tail_suffix _).map _
  have hbus : (s.edge i true).bus = s.unanswered i ++
      if s.ctl.accepts (s.ctlIn i) then [s.ctl.avmAddress] else [] := rfl
  have hfifo : (s.edge i true).fifo = [] := rfl
  rw [words, words, hfifo, hf, hbus, List.nil_append, List.nil_append, List.map_append,
    List.append_assoc, hcmd, List.append_assoc]
  obtain ⟨l, hl⟩ := hun
  exact ⟨l, by rw [← hl, List.append_assoc]⟩

/-- Whatever the FIFO does with the word answered, no other word comes into it. -/
lemma fifoWrite_append_unanswered_sublist (aclr : Bool) (hi : i.InOrder mem) :
    (fifoWrite aclr (s.ctlIn i).fifoWrreq (s.ctlIn i).fifoWrdata s.fifo ++
      (s.unanswered i).map mem).Sublist (s.fifo ++ s.bus.map mem) := by
  cases aclr with
  | false =>
    by_cases hr : s.HasRoom i
    · rw [fifoWrite_append_unanswered hi hr]
    · -- the word is dropped
      unfold HasRoom at hr
      have hfull : ¬ s.fifo.length < 2048 := fun h => hr fun _ => h
      unfold fifoWrite unanswered
      rw [if_neg Bool.false_ne_true, decide_eq_false hfull, Bool.and_false, if_neg Bool.false_ne_true]
      refine List.Sublist.append_left ?_ _
      rcases hi.answer with h | h <;> rw [h]
      · exact List.Sublist.refl _
      · rw [Option.elim_some, List.eraseIdx_zero]
        exact (List.tail_sublist _).map _
  | true =>
    change ((s.unanswered i).map mem).Sublist _
    unfold unanswered
    rcases hi.answer with h | h <;> rw [h]
    · exact List.sublist_append_right _ _
    · rw [Option.elim_some, List.eraseIdx_zero]
      exact ((List.tail_sublist _).map _).trans (List.sublist_append_right _ _)

/-- **Any edge**, in clear or not and with or without room, may lose words, and appends nothing but
the word of the command it places. -/
theorem words_edge_sublist (aclr : Bool) (hi : i.InOrder mem) :
    ((s.edge i aclr).words mem).Sublist (s.words mem ++ s.issuedWord mem i) := by
  have hcmd := command_edge mem (s := s) (i := i) aclr
  have hmove := fifoWrite_append_unanswered_sublist (s := s) aclr hi
  have hbus : (s.edge i aclr).bus = s.unanswered i ++
      if s.ctl.accepts (s.ctlIn i) then [s.ctl.avmAddress] else [] := rfl
  have hfifo : (s.edge i aclr).fifo =
      fifoWrite aclr (s.ctlIn i).fifoWrreq (s.ctlIn i).fifoWrdata s.fifo := rfl
  rw [words, words, hfifo, hbus, List.map_append, List.append_assoc, List.append_assoc, hcmd,
    ← List.append_assoc, ← List.append_assoc]
  exact (hmove.append_right _).append_right _

/-! ### The words trail the counter -/

variable (mem s) in
/-- The words under way are the last ones requested, of the present segment or of older ones. -/
def Trails : Prop := ∃ old, s.words mem <:+ old ++ picture mem s.ctl.reqCnt.toNat

lemma trails_reset : Trails mem .reset := ⟨[], List.nil_suffix⟩

lemma Trails.of_suffix {s' : ReadPath} (h : s.Trails mem) (hw : s'.words mem <:+ s.words mem)
    (hc : s'.ctl = s.ctl) : s'.Trails mem := by
  obtain ⟨old, hs⟩ := h
  exact ⟨old, hc ▸ hw.trans hs⟩

theorem Trails.edge {aclr : Bool} (h : s.Trails mem) (hi : i.InOrder mem)
    (hr : aclr = false → s.HasRoom i) (hf : aclr = true → s.fifo = []) :
    (s.edge i aclr).Trails mem := by
  obtain ⟨old, hs⟩ := h
  have hw : (s.edge i aclr).words mem <:+ s.words mem ++ s.issuedWord mem i := by
    cases aclr with
    | false => exact words_edge hi (hr rfl) ▸ List.suffix_refl _
    | true => exact words_edge_clear hi (hf rfl)
  have happ : s.words mem ++ s.issuedWord mem i <:+
      old ++ picture mem s.ctl.reqCnt.toNat ++ s.issuedWord mem i := by
    obtain ⟨l, hl⟩ := hs
    exact ⟨l, by rw [← hl, List.append_assoc]⟩
  have htrail := hw.trans happ
  by_cases hre : s.ctl.restarts (s.ctlIn i) = true
  · -- the segment that ends here becomes old
    have hcnt : (s.edge i aclr).ctl.reqCnt = 0 := reqCnt_of_restarts hre
    rw [issuedWord, not_issues_of_restarts hre, if_neg Bool.false_ne_true, List.append_nil] at htrail
    refine ⟨old ++ picture mem s.ctl.reqCnt.toNat, ?_⟩
    rw [hcnt]
    simpa [picture] using htrail
  · rw [List.append_assoc, ← picture_edge mem aclr (Bool.eq_false_iff.2 hre)] at htrail
    exact ⟨old, htrail⟩

/-- **When as many words are under way as were counted**, they are the words counted. -/
theorem Trails.eq_picture (h : s.Trails mem)
    (hlen : s.fifo.length + s.bus.length + s.onBus = s.ctl.reqCnt.toNat) :
    s.words mem = picture mem s.ctl.reqCnt.toNat := by
  obtain ⟨old, hs⟩ := h
  have hlen' : (s.words mem).length = (picture mem s.ctl.reqCnt.toNat).length := by
    rw [length_words, length_picture, hlen]
  have hsuf : s.words mem <:+ picture mem s.ctl.reqCnt.toNat :=
    List.suffix_of_suffix_length_le hs (List.suffix_append _ _) hlen'.le
  exact hsuf.eq_of_length hlen'

end ReadPath

end Words

end VideoPipeline.Read

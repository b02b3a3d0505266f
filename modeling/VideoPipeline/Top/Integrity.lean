import VideoPipeline.Read.Words
import VideoPipeline.Top.Order

/-!
The words of a frame from the memory to the pixel pipeline. The words under way trail the read
counter, so a frame is intact if they are exactly the words counted when its flush is over: then
nothing of the frame before is left and nothing of the new frame is lost, and each pop takes the
word of the position it is requested for.
-/

namespace VideoPipeline.Top

open VideoPipeline.Lib VideoPipeline.Vga VideoPipeline.Image VideoPipeline.Pixel VideoPipeline.Read
  SdramReadController

namespace Run

variable (r : Run)

/-- A word is taken from the FIFO at the end of cycle `t`. -/
def Popped (t : ℕ) : Prop := (r.final t).vgaFifoRdreq (r.vga t) = true

/-- The word at the head of the FIFO then. -/
def poppedWord (t : ℕ) : BitVec 16 := ((r.final t).pipeIn (r.vga t)).vgaFifoQ

/-- **Frame integrity** in cycle `t`: a word that is taken, after a word was taken at every
earlier position of the frame, is the word of the picture at the address requested. -/
def Intact (t : ℕ) : Prop :=
  r.Popped t → (∀ u < t, u / 420000 = t / 420000 → r.VgaReq u → r.Popped u) →
    r.poppedWord t = r.mem (bufferABase + (r.start t).oAddress.setWidth 25)

/-- No word that is answered meets a full FIFO. -/
def Roomy : Prop := ∀ t i x, (r.burst t)[i]? = some x → ¬ r.Aclr t →
  (r.point t i).path.HasRoom ((r.point t i).pathIn r.mem x)

/-- Twelve cycles after the rise `t₀`, when a flush is over, no restart is pending, and as many
words are under way as the read counter says were requested. -/
def Settled (t₀ : ℕ) : Prop :=
  (r.start (t₀ + 12)).path.ctl.vgaResetPending = false ∧
    (r.start (t₀ + 12)).path.fifo.length + (r.start (t₀ + 12)).path.bus.length +
      (r.start (t₀ + 12)).path.onBus = (r.start (t₀ + 12)).path.ctl.reqCnt.toNat

variable {r} {t t₀ i : ℕ} {x : SysIn}

lemma inOrder_pathIn (s : DoanTop) (mem : BitVec 25 → BitVec 16) (x : SysIn) :
    (s.pathIn mem x).InOrder mem := by
  refine ⟨?_, rfl⟩
  unfold DoanTop.pathIn
  cases x.respond <;> simp

/-! ### The words under way trail the counter -/

/-- A slow edge drops words at the head of the FIFO only. -/
lemma words_edge25 (s : DoanTop) (v : VgaIn) (mem : BitVec 25 → BitVec 16) :
    (s.edge25 v).path.words mem <:+ s.path.words mem := by
  have hsuf : (s.edge25 v).path.fifo <:+ s.path.fifo := by
    unfold DoanTop.edge25
    dsimp only
    split_ifs
    · exact List.nil_suffix
    · exact List.tail_suffix _
    · exact List.suffix_refl _
  obtain ⟨l, hl⟩ := hsuf
  refine ⟨l, ?_⟩
  change l ++ ((s.edge25 v).path.fifo ++ s.path.bus.map mem ++ s.path.commandWord mem) = _
  rw [← List.append_assoc, ← List.append_assoc, hl]
  rfl

theorem trails (hroom : r.Roomy) (hi : i ≤ (r.burst t).length) :
    (r.point t i).path.Trails r.mem := by
  refine invariant (P := fun t i => (r.point t i).path.Trails r.mem) ReadPath.trails_reset
    ?_ ?_ hi
  · intro t i x hx h
    rw [point_succ hx]
    refine h.edge (inOrder_pathIn _ _ _) ?_ ?_
    · intro hc
      refine hroom t i x hx ?_
      intro ha
      rw [fifoAclr_point, show (r.start t).fifoAclr = true from ha] at hc
      cases hc
    · intro hc
      rw [fifoAclr_point] at hc
      exact fifo_of_aclr (lt_of_burst hx).le hc
  · intro t h
    rw [point_zero, start_succ]
    exact h.of_suffix (words_edge25 _ _ _) rfl

/-! ### The words of a frame -/

/-- The requests of the frame before cycle `t`. -/
def served (t : ℕ) : ℕ := Nat.count Requests t - 307200 * (t / 420000)

lemma served_succ (h : (t + 1) / 420000 = t / 420000) :
    served (t + 1) = served t + if Requests t then 1 else 0 := by
  have hge : 307200 * (t / 420000) ≤ Nat.count Requests t := by
    rw [count_requests]
    unfold requestsBefore
    omega
  rw [served, served, Nat.count_succ, h]
  omega

lemma served_of_requests (h : Requests t) : served t = address t := by
  rw [served, count_of_requests h, Nat.add_sub_cancel_left]

lemma served_of_rise (h : vsPhase t₀ = 0) : served (t₀ + 12) = 0 := by
  rw [served, count_requests]
  unfold requestsBefore
  unfold vsPhase at h
  split_ifs <;> omega

variable (r) in
/-- The words asked for since the restart; none, while it is pending. -/
def renewed (t i : ℕ) : List (BitVec 16) :=
  if (r.point t i).path.ctl.vgaResetPending then []
  else picture r.mem (r.point t i).path.ctl.reqCnt.toNat

lemma renewed_of_not_pending (h : (r.point t i).path.ctl.vgaResetPending = false) :
    r.renewed t i = picture r.mem (r.point t i).path.ctl.reqCnt.toNat :=
  if_neg (Bool.eq_false_iff.1 h)

/-- An edge that sees no pulse adds the word of the command it places. -/
lemma renewed_succ (hl : r.Linked) (hx : (r.burst t)[i]? = some x) (hs : r.since t i ≠ 3) :
    r.renewed t (i + 1) =
      r.renewed t i ++ (r.point t i).path.issuedWord r.mem ((r.point t i).pathIn r.mem x) := by
  have hpend := pending_point_succ hl hx
  rw [decide_eq_false hs, Bool.false_or] at hpend
  by_cases hp : (r.point t i).path.ctl.vgaResetPending = true
  · -- nothing is placed, and a restart that is executed starts from nothing
    have hnone : (r.point t i).path.issuedWord r.mem ((r.point t i).pathIn r.mem x) = [] := by
      refine if_neg fun hi => ?_
      exact Bool.false_ne_true ((issues_iff.1 hi).restarted.symm.trans hp)
    rw [hnone, renewed, renewed, if_pos hp, hpend]
    by_cases hr : r.RestartsAt (r.point t i, x)
    · have hzero : (r.point t (i + 1)).path.ctl.reqCnt = 0 := by
        rw [ctl_point_succ hx]
        exact reqCnt_of_restarts hr
      rw [if_pos hr, hzero]
      rfl
    · rw [if_neg hr, if_pos hp]
      rfl
  · have hp' := Bool.eq_false_iff.2 hp
    have hre : ¬ r.RestartsAt (r.point t i, x) := fun hr => hp (pending_of_restarts hr)
    rw [if_neg hre, hp'] at hpend
    rw [renewed_of_not_pending hp', renewed_of_not_pending hpend, point_succ hx]
    exact ReadPath.picture_edge r.mem _ (Bool.eq_false_iff.2 hre)

/-- When a word is taken. -/
theorem popped_iff (t : ℕ) : r.Popped t ↔ Requests t ∧ (r.final t).path.fifo ≠ [] ∧
    (r.vga t).rdemptyLags = false ∧ ¬ r.Aclr t := by
  have hreq := vgaReq_start (r := r) t
  have hclr : (r.final t).fifoAclr = (r.start t).fifoAclr := by rw [final_eq, fifoAclr_point]
  rw [DoanTop.vgaReq] at hreq
  unfold Popped DoanTop.vgaFifoRdreq Pipeline.vgaFifoRdreq DoanTop.pipeIn Aclr
  dsimp only
  rw [hclr, final_eq, pipe_point, hreq]
  simp [and_assoc]

/-- A word that is taken leaves the head of the FIFO. -/
lemma fifo_of_popped (h : r.Popped t) : ∃ l, (r.final t).path.fifo = r.poppedWord t :: l := by
  obtain ⟨w, l, hwl⟩ := List.exists_cons_of_ne_nil ((popped_iff t).1 h).2.1
  refine ⟨l, ?_⟩
  rw [poppedWord, DoanTop.pipeIn, hwl]
  rfl

/-- The words under way are the words `l` and those asked for since the restart, less the first
`k` of them and those the frame was served. -/
structure Trailing (r : Run) (l : List (BitVec 16)) (k t i : ℕ) : Prop where
  le : k + served t ≤ (l ++ r.renewed t i).length
  words : (r.point t i).path.words r.mem = (l ++ r.renewed t i).drop (k + served t)

namespace Trailing

variable {l : List (BitVec 16)} {k : ℕ}

lemma edge50 (hl : r.Linked) (hroom : r.Roomy) (hx : (r.burst t)[i]? = some x)
    (hph : 12 ≤ vsPhase t) (ht : t ≠ 0) (h : Trailing r l k t i) : Trailing r l k t (i + 1) := by
  have hclr : ¬ r.Aclr t := by
    rw [aclr_iff hl]
    rintro (h0 | hf)
    · exact ht h0
    · have := hf.2
      omega
  have hclr' : (r.point t i).fifoAclr = false := by
    rw [fifoAclr_point]
    exact Bool.eq_false_iff.2 hclr
  have hsince := vsPhase_le_since hl t i
  have hwords : (r.point t (i + 1)).path.words r.mem = (r.point t i).path.words r.mem ++
      (r.point t i).path.issuedWord r.mem ((r.point t i).pathIn r.mem x) := by
    rw [point_succ hx, DoanTop.edge50, hclr']
    exact ReadPath.words_edge (inOrder_pathIn _ _ _) (hroom t i x hx hclr)
  have hle := h.le
  constructor
  · rw [renewed_succ hl hx (by omega), ← List.append_assoc, List.length_append]
    omega
  · rw [hwords, h.words, renewed_succ hl hx (by omega), ← List.append_assoc,
      List.drop_append_of_le_length hle]

lemma edge25 (hl : r.Linked) (hf : ¬ r.Flushing (t + 1))
    (hdiv : (t + 1) / 420000 = t / 420000) (hpop : Requests t → r.Popped t)
    (h : Trailing r l k t (r.burst t).length) : Trailing r l k (t + 1) 0 := by
  have hnext : (r.final t).nextAclr = false := by
    rw [nextAclr_final hl]
    exact decide_eq_false hf
  have hfifo : (r.point (t + 1) 0).path.fifo =
      if (r.final t).vgaFifoRdreq (r.vga t) then (r.final t).path.fifo.tail
      else (r.final t).path.fifo := by
    rw [point_zero, fifo_start_succ, hnext, if_neg Bool.false_ne_true]
  have hctl : (r.point (t + 1) 0).path.ctl = (r.point t (r.burst t).length).path.ctl := by
    rw [point_zero, ctl_start_succ, final_eq]
  have hbus : (r.point (t + 1) 0).path.bus = (r.point t (r.burst t).length).path.bus := by
    rw [point_zero, bus_start_succ, final_eq]
  have hnew : r.renewed (t + 1) 0 = r.renewed t (r.burst t).length := by
    rw [renewed, renewed, hctl]
  have hwords := h.words
  have hle := h.le
  constructor
  · rw [hnew, served_succ hdiv]
    split_ifs with hr
    · -- the word taken is one of those asked for
      obtain ⟨l', hwl⟩ := fifo_of_popped (hpop hr)
      have hlen := congrArg List.length hwords
      rw [final_eq] at hwl
      rw [ReadPath.length_words, hwl, List.length_drop, List.length_cons] at hlen
      omega
    · exact hle
  · unfold ReadPath.words ReadPath.commandWord at hwords ⊢
    rw [hfifo, hctl, hbus, hnew, served_succ hdiv]
    by_cases hr : Requests t
    · have hp : (r.final t).vgaFifoRdreq (r.vga t) = true := hpop hr
      obtain ⟨l', hwl⟩ := fifo_of_popped hp
      rw [if_pos hp, if_pos hr, ← Nat.add_assoc, ← List.drop_drop, ← hwords, ← final_eq, hwl]
      rfl
    · have hp : ¬ (r.final t).vgaFifoRdreq (r.vga t) = true := by
        intro hp
        exact hr ((popped_iff t).1 hp).1
      rw [if_neg hp, if_neg hr, Nat.add_zero, ← hwords, final_eq]

/-- The word taken is that of the position requested. -/
lemma poppedWord_eq (h : Trailing r l k t (r.burst t).length) (hpop : r.Popped t) :
    (l ++ r.renewed t (r.burst t).length)[k + address t]? = some (r.poppedWord t) := by
  obtain ⟨l', hwl⟩ := fifo_of_popped hpop
  have hhead := congrArg List.head? h.words
  rw [← final_eq, ReadPath.words, hwl, served_of_requests ((popped_iff t).1 hpop).1,
    List.head?_drop] at hhead
  exact hhead.symm

end Trailing

/-- Once the flush is over, the words under way are followed by those asked for until the frame
is served, as long as every request is. -/
theorem trailing (h2 : r.TwoToOne) (hroom : r.Roomy) (ht₀ : r.Rises t₀) {l : List (BitVec 16)}
    {k : ℕ} (hbase : Trailing r l k (t₀ + 12) 0) (hi : i ≤ (r.burst t).length) (hle : t₀ + 12 ≤ t)
    (hlt : t < t₀ + 410394)
    (hpop : ∀ u < t, u / 420000 = t / 420000 → r.VgaReq u → r.Popped u) : Trailing r l k t i := by
  have hl := h2.linked
  have h0 := (rises_iff t₀).1 ht₀
  have hdiv {u : ℕ} (h1 : t₀ ≤ u) (h2 : u < t₀ + 410394) : u / 420000 = t₀ / 420000 := by
    unfold vsPhase at h0
    omega
  have hph {u : ℕ} (h1 : t₀ + 12 ≤ u) (h2 : u < t₀ + 410394) : 12 ≤ vsPhase u := by
    obtain ⟨k, rfl⟩ := Nat.exists_eq_add_of_le (Nat.le_of_add_right_le h1)
    rw [vsPhase_add h0 (by omega)]
    omega
  refine invariant (P := fun t i => t₀ + 12 ≤ t → t < t₀ + 410394 →
    (∀ u < t, u / 420000 = t / 420000 → r.VgaReq u → r.Popped u) → Trailing r l k t i)
    ?_ ?_ ?_ hi hle hlt hpop
  · intro h
    omega
  · intro t i x hx ih h1 h2 hp
    exact (ih h1 h2 hp).edge50 hl hroom hx (hph h1 h2) (by omega)
  · intro t ih h1 h2 hp
    rcases Nat.lt_or_ge t (t₀ + 12) with h | h
    · obtain rfl : t = t₀ + 11 := by omega
      exact hbase
    · have hd1 := hdiv (u := t) (by omega) (by omega)
      have hd2 := hdiv (u := t + 1) (by omega) h2
      refine (ih h (by omega) fun u hu hd hr => hp u (by omega) (by omega) hr).edge25 hl ?_
        (by omega) fun hr => hp t (by omega) (by omega) ((vgaReq_iff t).2 hr)
      intro hf
      have := hph (u := t + 1) (by omega) h2
      have := hf.2
      omega

/-! ### A frame that is aligned -/

/-- A restart executed before the requests is the last one of the frame. -/
lemma not_pending_of_le (hl : r.Linked) (ht₀ : r.Rises t₀)
    (h : (r.start (t₀ + 12)).path.ctl.vgaResetPending = false) (hle : t₀ + 12 ≤ t)
    (hlt : t < t₀ + 410394) (hi : i ≤ (r.burst t).length) :
    (r.point t i).path.ctl.vgaResetPending = false := by
  have h0 := (rises_iff t₀).1 ht₀
  refine invariant (P := fun t i => t₀ + 12 ≤ t → t < t₀ + 410394 →
    (r.point t i).path.ctl.vgaResetPending = false) ?_ ?_ ?_ hi hle hlt
  · intro h1
    omega
  · intro t i x hx ih h1 h2
    obtain ⟨k, rfl⟩ := Nat.exists_eq_add_of_le (Nat.le_of_add_right_le h1)
    have hsince := vsPhase_le_since hl (t₀ + k) i
    rw [vsPhase_add h0 (by omega)] at hsince
    rw [pending_point_succ hl hx, ih h1 h2, decide_eq_false (by omega)]
    simp
  · intro t ih h1 h2
    rcases Nat.lt_or_ge t (t₀ + 12) with hlt | hge
    · obtain rfl : t = t₀ + 11 := by omega
      exact h
    · rw [point_zero, ctl_start_succ, final_eq]
      exact ih hge (by omega)

/-- The words under way are those counted, less the words the frame was served. -/
structure Aligned (r : Run) (t i : ℕ) : Prop where
  pending : (r.point t i).path.ctl.vgaResetPending = false
  trailing : Trailing r [] 0 t i

lemma Aligned.words (h : Aligned r t i) : (r.point t i).path.words r.mem =
    (picture r.mem (r.point t i).path.ctl.reqCnt.toNat).drop (served t) := by
  have hw := h.trailing.words
  rwa [renewed_of_not_pending h.pending, List.nil_append, Nat.zero_add] at hw

/-- **The frame stays aligned** from the end of its flush on, as long as every request is served. -/
theorem aligned (h2 : r.TwoToOne) (hroom : r.Roomy) (ht₀ : r.Rises t₀) (hset : r.Settled t₀)
    (hi : i ≤ (r.burst t).length) (hle : t₀ + 12 ≤ t) (hlt : t < t₀ + 410394)
    (hpop : ∀ u < t, u / 420000 = t / 420000 → r.VgaReq u → r.Popped u) : Aligned r t i := by
  have hpend {t i : ℕ} (h1 : t₀ + 12 ≤ t) (h3 : t < t₀ + 410394) (hi : i ≤ (r.burst t).length) :=
    not_pending_of_le h2.linked ht₀ hset.1 h1 h3 hi
  have hbase : Trailing r [] 0 (t₀ + 12) 0 := by
    have hz := served_of_rise ((rises_iff t₀).1 ht₀)
    constructor
    · rw [hz]
      exact Nat.zero_le _
    · rw [hz, renewed_of_not_pending (hpend le_rfl (by omega) (Nat.zero_le _))]
      exact (trails hroom (Nat.zero_le _)).eq_picture hset.2
  exact ⟨hpend hle hlt hi, trailing h2 hroom ht₀ hbase hi hle hlt hpop⟩

lemma pictureWord_oAddress (t : ℕ) : pictureWord r.mem (address t) =
    r.mem (bufferABase + (r.start t).oAddress.setWidth 25) := by
  rw [pictureWord, ← oAddress_start (r := r), BitVec.ofNat_toNat]

/-- The words asked for are those of the picture. -/
lemma getElem?_renewed {j : ℕ} {w : BitVec 16} (h : (r.renewed t i)[j]? = some w) :
    w = pictureWord r.mem j ∧ j < (r.point t i).path.ctl.reqCnt.toNat := by
  unfold renewed at h
  split_ifs at h
  · cases h
  · obtain ⟨hj, hget⟩ := List.getElem?_eq_some_iff.1 h
    rw [length_picture] at hj
    refine ⟨?_, hj⟩
    rw [← hget]
    simp [picture]

/-- In a frame that is aligned the word taken is that of the address requested. -/
lemma Aligned.poppedWord_eq (hal : Aligned r t (r.burst t).length) (hpop : r.Popped t) :
    r.poppedWord t = r.mem (bufferABase + (r.start t).oAddress.setWidth 25) := by
  have hget := hal.trailing.poppedWord_eq hpop
  rw [List.nil_append, Nat.zero_add] at hget
  rw [← pictureWord_oAddress]
  exact (getElem?_renewed hget).1

/-- **A settled frame is intact.** In every run in which no word meets a full FIFO, a cycle is
intact if everything was settled twelve cycles after the rise its frame began with. -/
lemma intact_of_settled (h2 : r.TwoToOne) (hroom : r.Roomy)
    (hset : ∀ t₀ ≤ t, r.Rises t₀ → t < t₀ + 420000 → r.Settled t₀) : r.Intact t := by
  intro hpop hall
  obtain ⟨h1, h3, hle⟩ := vsPhase_of_requests ((popped_iff t).1 hpop).1
  obtain ⟨t₀, h0, ht₀⟩ := exists_rise hle
  have hrise : r.Rises t₀ := (rises_iff t₀).2 h0
  exact (aligned h2 hroom hrise (hset t₀ (by omega) hrise (by omega)) le_rfl (by omega) (by omega)
    hall).poppedWord_eq hpop

/-! ### When there is room -/

/-- While the FIFO reports its words but for the last two and at most `L` reads are unanswered,
the bound of the read path holds in the whole system. -/
theorem bounded_of_reports {L : ℕ} (hL : L ≤ 500)
    (h : ∀ t i x, (r.burst t)[i]? = some x → (r.point t i).path.fifo.length < 2048 →
      (r.point t i).path.fifo.length ≤ x.vgaFifoWrusedw.toNat + 2)
    (hbus : ∀ t i, i ≤ (r.burst t).length → (r.point t i).path.bus.length ≤ L)
    (hi : i ≤ (r.burst t).length) : Bounded L (r.point t i).path := by
  refine invariant (P := fun t i => Bounded L (r.point t i).path) (bounded_reset L)
    ?_ ?_ hi
  · intro t i x hx hb
    have hi := lt_of_burst hx
    -- the edge is a cycle of the read path in which the read side leaves the FIFO alone
    obtain ⟨c, hc⟩ : ∃ c : PathCycle, c =
      ⟨(r.point t i).pathIn r.mem x, false, false, (r.point t i).fifoAclr⟩ := ⟨_, rfl⟩
    have hat : (r.point t i).path.atEdge c = (r.point t i).path := by
      unfold ReadPath.atEdge
      rw [hc, fifoAclr_point]
      by_cases ha : (r.start t).fifoAclr = true
      · have hf := fifo_of_aclr hi.le ha
        simp [ha, ← hf]
      · simp [ha]
    have hcyc : (r.point t i).path.cycle c = (r.point t (i + 1)).path := by
      rw [ReadPath.cycle, hat, point_succ hx, hc]
      rfl
    have hlen := hb.total
    have hused : (r.point t i).path.fifo.length ≤ c.fifoWrusedw.toNat + 2 := by
      rw [hc]
      exact h t i x hx (by omega)
    rw [← hcyc]
    exact hb.cycle c (hcyc ▸ hbus t (i + 1) hi) (by rw [hat]; exact hused)
  · intro t hb
    refine hb.of_fifo_le ?_ ?_ ?_
    · rw [point_zero, ctl_start_succ, final_eq]
    · rw [point_zero, bus_start_succ, final_eq]
    · rw [point_zero, fifo_start_succ, final_eq]
      split_ifs <;> simp

/-- Then no word meets a full FIFO. -/
theorem roomy_of_honest (h : r.Honest)
    (hbus : ∀ t i, i ≤ (r.burst t).length → (r.point t i).path.bus.length ≤ 500) : r.Roomy := by
  intro t i x hx _ _
  have hused (t i : ℕ) (x : SysIn) (hx : (r.burst t)[i]? = some x)
      (hlt : (r.point t i).path.fifo.length < 2048) :
      (r.point t i).path.fifo.length ≤ x.vgaFifoWrusedw.toNat + 2 := by
    rw [h t i x hx, BitVec.toNat_ofNat, Nat.mod_eq_of_lt hlt]
    omega
  have := (bounded_of_reports le_rfl hused hbus (lt_of_burst hx).le).total
  omega

/-! ### The FIFO between flush and request -/

/-- Outside the clear, and without a request, words are only added at the end of the FIFO. -/
lemma fifo_prefix_edge50 (hx : (r.burst t)[i]? = some x) (hc : ¬ r.Aclr t) :
    (r.point t i).path.fifo <+: (r.point t (i + 1)).path.fifo := by
  have hclr : (r.point t i).fifoAclr = false := by
    rw [fifoAclr_point]
    exact Bool.eq_false_iff.2 hc
  rw [point_succ hx, DoanTop.edge50, ReadPath.edge, hclr, fifoWrite]
  dsimp only
  rw [if_neg Bool.false_ne_true]
  split_ifs
  · exact List.prefix_append _ _
  · exact List.prefix_refl _

lemma fifo_prefix_point (hi : i ≤ (r.burst t).length) (hc : ¬ r.Aclr t) :
    (r.start t).path.fifo <+: (r.point t i).path.fifo := by
  induction i with
  | zero => exact List.prefix_refl _
  | succ i ih =>
    exact (ih (by omega)).trans (fifo_prefix_edge50 (List.getElem?_eq_getElem (by omega)) hc)

theorem fifo_prefix {u : ℕ} (htu : t ≤ u) (hc : ∀ v, t ≤ v → v ≤ u → ¬ r.Aclr v)
    (hno : ∀ v, t ≤ v → v < u → ¬ Requests v) :
    (r.start t).path.fifo <+: (r.final u).path.fifo := by
  induction u, htu using Nat.le_induction with
  | base => exact fifo_prefix_point le_rfl (hc t le_rfl le_rfl)
  | succ u htu ih =>
    have hprev := ih (fun v h1 h2 => hc v h1 (by omega)) fun v h1 h2 => hno v h1 (by omega)
    have hnext : (r.final u).nextAclr = false := by
      rw [← fifoAclr_start_succ]
      exact Bool.eq_false_iff.2 (hc (u + 1) (by omega) le_rfl)
    have hstep : (r.start (u + 1)).path.fifo = (r.final u).path.fifo := by
      rw [fifo_start_succ, hnext, vgaFifoRdreq_final (hno u htu (by omega))]
      rfl
    have hlast := fifo_prefix_point (i := (r.burst (u + 1)).length) le_rfl
      (hc (u + 1) (by omega) le_rfl)
    rw [hstep] at hlast
    exact hprev.trans hlast

variable (r) in
/-- The bus never stops answering. -/
def Answers : Prop := ∀ t, ∃ u ≥ t, ∃ x ∈ r.burst u, x.respond = true

end Run

/-! ### A frame that loses its first words -/

lemma answers_closedLoop {img : ℕ → Bool} : (closedLoop img).Answers :=
  fun t => ⟨t, le_rfl, _, List.mem_singleton_self _, rfl⟩

lemma vgaReq_late : (closedLoop late).VgaReq 36160 := (Run.vgaReq_iff _).2 (by decide)

/-- When the first frame is requested, the sixth word of the picture is at the head. -/
lemma fifo_late : ∃ l, ((closedLoop late).final 36160).path.fifo = 5 :: l := by
  have hl := (twoToOne_closedLoop late).linked
  have hpath := path_late (show 19 ≤ 26560 by omega)
  have hhead : (latePath 19).fifo = [5] := by decide +kernel
  have hclr (v : ℕ) (h1 : 9619 ≤ v) (h2 : v ≤ 36160) : ¬ (closedLoop late).Aclr v := by
    rw [Run.aclr_iff hl, flushing_closedLoop]
    unfold vsPhase
    omega
  have hpre := Run.fifo_prefix (r := closedLoop late) (show 9600 + 19 ≤ 36160 by omega) hclr
    fun v _ h => not_requests_of_lt h
  rw [hpath, hhead] at hpre
  obtain ⟨l, hl⟩ := hpre
  exact ⟨l, hl.symm⟩

lemma popped_late : (closedLoop late).Popped 36160 := by
  obtain ⟨l, hl⟩ := fifo_late
  refine (Run.popped_iff _).2 ⟨(Run.vgaReq_iff _).1 vgaReq_late, by simp [hl], rfl, ?_⟩
  rw [Run.aclr_iff (twoToOne_closedLoop late).linked, flushing_closedLoop]
  unfold vsPhase
  omega

/-- In the first frame the word at the first position is the sixth one of the picture. -/
theorem not_all_intact : ¬ ∀ r : Run, r.TwoToOne → r.Honest → r.Answers → ∀ t, r.Intact t := by
  intro h
  have hint := h _ (twoToOne_closedLoop late) (honest_closedLoop late) answers_closedLoop 36160
    popped_late
    fun u hu _ hreq => absurd ((Run.vgaReq_iff u).1 hreq) (not_requests_of_lt hu)
  obtain ⟨l, hl⟩ := fifo_late
  have hword : (closedLoop late).poppedWord 36160 = 5 := by
    rw [Run.poppedWord, DoanTop.pipeIn, hl]
    rfl
  rw [hword, ← Run.pictureWord_oAddress] at hint
  exact absurd hint (by decide)

end VideoPipeline.Top

import VideoPipeline.Top.Recovery

/-!
The read path as a channel. The controller asks for the picture from its first word on, again
after every restart; the display takes words from the FIFO. Whatever the bus, the FIFO and the
two clocks do, the words taken are among those asked for, in that order and each at most once;
and if no word is answered or left where the FIFO drops it, none is missing.
-/

namespace VideoPipeline.Top

open VideoPipeline.Lib VideoPipeline.Vga VideoPipeline.Image VideoPipeline.Pixel VideoPipeline.Read
  SdramReadController

namespace Run

section Histories

variable (r : Run)

/-- The words of the commands placed before a point of the run, in order. -/
def issued (t i : ℕ) : List (BitVec 16) :=
  r.clocks.history (fun s x l => l ++ s.path.issuedWord r.mem (s.pathIn r.mem x)) (fun _ _ l => l)
    [] t i

/-- The words taken from the FIFO before a point of the run, in order. -/
def taken (t i : ℕ) : List (BitVec 16) :=
  r.clocks.history (fun _ _ l => l)
    (fun s v l => if s.vgaFifoRdreq v then l ++ [(s.pipeIn v).vgaFifoQ] else l) [] t i

/-- What the restarts before a point of the run found in the read counter, in order. -/
def counts (t i : ℕ) : List ℕ :=
  r.clocks.history
    (fun s x l => if r.RestartsAt (s, x) then l ++ [s.path.ctl.reqCnt.toNat] else l)
    (fun _ _ l => l) [] t i

/-- The FIFO holds no word when its clear is raised. -/
def ClearsEmpty : Prop := ∀ t, r.Aclr (t + 1) → (r.final t).path.fifo = []

end Histories

variable {r : Run} {t i : ℕ} {x : SysIn}

lemma issued_succ (hx : (r.burst t)[i]? = some x) : r.issued t (i + 1) =
    r.issued t i ++ (r.point t i).path.issuedWord r.mem ((r.point t i).pathIn r.mem x) :=
  TwoClock.history_succ hx

lemma issued_cycle : r.issued (t + 1) 0 = r.issued t (r.burst t).length := TwoClock.history_cycle

lemma taken_succ (hx : (r.burst t)[i]? = some x) : r.taken t (i + 1) = r.taken t i :=
  TwoClock.history_succ hx

lemma taken_cycle : r.taken (t + 1) 0 =
    if r.Popped t then r.taken t (r.burst t).length ++ [r.poppedWord t]
    else r.taken t (r.burst t).length :=
  TwoClock.history_cycle

lemma counts_succ (hx : (r.burst t)[i]? = some x) : r.counts t (i + 1) =
    if r.RestartsAt (r.point t i, x) then
      r.counts t i ++ [(r.point t i).path.ctl.reqCnt.toNat]
    else r.counts t i :=
  TwoClock.history_succ hx

lemma counts_cycle : r.counts (t + 1) 0 = r.counts t (r.burst t).length := TwoClock.history_cycle

/-! ### The words asked for -/

/-- One count for each restart. -/
lemma length_counts (hi : i ≤ (r.burst t).length) : (r.counts t i).length = r.restarts t i := by
  refine invariant (P := fun t i => (r.counts t i).length = r.restarts t i) ?_ ?_ ?_ hi
  · rw [restarts_zero]
    rfl
  · intro t i x hx ih
    rw [counts_succ hx, restarts_succ hx, ← ih]
    split_ifs
    · rw [List.length_append, List.length_singleton]
    · rfl
  · intro t ih
    rw [counts_cycle, restarts_cycle, ih]

/-- No restart finds more than a picture counted. -/
lemma le_of_mem_counts (hi : i ≤ (r.burst t).length) : ∀ n ∈ r.counts t i, n ≤ 307200 := by
  refine invariant (P := fun t i => ∀ n ∈ r.counts t i, n ≤ 307200)
    (fun n hn => absurd hn List.not_mem_nil) ?_ ?_ hi
  · intro t i x hx ih n hn
    have hcnt : (r.point t i).path.ctl.reqCnt.toNat ≤ 307200 :=
      (counted_point (lt_of_burst hx).le).le
    rw [counts_succ hx] at hn
    split_ifs at hn
    · rcases List.mem_append.1 hn with hn | hn
      · exact ih n hn
      · rw [List.mem_singleton.1 hn]
        exact hcnt
    · exact ih n hn
  · intro t ih
    rw [counts_cycle]
    exact ih

/-- **What is asked for** is the picture up to where each restart finds the count, one after the
other, and then as far as the count has come. -/
theorem issued_eq (hi : i ≤ (r.burst t).length) : r.issued t i =
    (r.counts t i).flatMap (picture r.mem) ++
      picture r.mem (r.point t i).path.ctl.reqCnt.toNat := by
  refine invariant (P := fun t i => r.issued t i = (r.counts t i).flatMap (picture r.mem) ++
    picture r.mem (r.point t i).path.ctl.reqCnt.toNat) rfl ?_ ?_ hi
  · intro t i x hx ih
    rw [issued_succ hx, counts_succ hx, ih]
    by_cases hr : r.RestartsAt (r.point t i, x)
    · -- a restart ends the list of the words counted so far
      have hzero : (r.point t (i + 1)).path.ctl.reqCnt = 0 := by
        rw [ctl_point_succ hx]
        exact reqCnt_of_restarts hr
      have hnone : (r.point t i).path.issuedWord r.mem ((r.point t i).pathIn r.mem x) = [] :=
        if_neg (Bool.eq_false_iff.1 (not_issues_of_restarts hr))
      rw [if_pos hr, hzero, hnone]
      simp [picture]
    · have hpic : picture r.mem (r.point t (i + 1)).path.ctl.reqCnt.toNat =
          picture r.mem (r.point t i).path.ctl.reqCnt.toNat ++
            (r.point t i).path.issuedWord r.mem ((r.point t i).pathIn r.mem x) := by
        rw [point_succ hx]
        exact ReadPath.picture_edge r.mem _ (Bool.eq_false_iff.2 hr)
      rw [if_neg hr, hpic, List.append_assoc]
  · intro t ih
    rw [issued_cycle, counts_cycle, ih, point_zero, ctl_start_succ, final_eq]

/-! ### The words taken -/

/-- An edge of `clk_25m_vga` moves the word it takes, and loses the others if it raises the
clear. -/
lemma taken_append_words_cycle (t : ℕ) :
    (r.taken (t + 1) 0 ++ (r.start (t + 1)).path.words r.mem).Sublist
      (r.taken t (r.burst t).length ++ (r.final t).path.words r.mem) := by
  have hctl : (r.start (t + 1)).path.commandWord r.mem = (r.final t).path.commandWord r.mem := by
    unfold ReadPath.commandWord
    rw [ctl_start_succ]
  rw [taken_cycle, ReadPath.words, ReadPath.words, hctl, bus_start_succ, fifo_start_succ]
  by_cases hp : r.Popped t
  · obtain ⟨l, hl⟩ := fifo_of_popped hp
    have hp' : (r.final t).vgaFifoRdreq (r.vga t) = true := hp
    rw [if_pos hp, if_pos hp', hl, List.append_assoc, List.tail_cons]
    refine List.Sublist.append_left ?_ _
    split_ifs
    · simp
    · exact List.Sublist.refl _
  · have hp' : ¬ (r.final t).vgaFifoRdreq (r.vga t) = true := hp
    rw [if_neg hp, if_neg hp']
    refine List.Sublist.append_left ?_ _
    split_ifs
    · simp
    · exact List.Sublist.refl _

lemma taken_append_words_sublist (hi : i ≤ (r.burst t).length) :
    (r.taken t i ++ (r.point t i).path.words r.mem).Sublist (r.issued t i) := by
  refine invariant (P := fun t i =>
    (r.taken t i ++ (r.point t i).path.words r.mem).Sublist (r.issued t i)) ?_ ?_ ?_ hi
  · exact List.Sublist.refl _
  · intro t i x hx ih
    rw [taken_succ hx, issued_succ hx, point_succ hx]
    have hedge := ReadPath.words_edge_sublist (s := (r.point t i).path) (r.point t i).fifoAclr
      (inOrder_pathIn (r.point t i) r.mem x)
    refine (hedge.append_left _).trans ?_
    rw [← List.append_assoc]
    exact ih.append_right _
  · intro t ih
    rw [issued_cycle]
    exact (taken_append_words_cycle t).trans ih

/-- **The channel is safe.** In every run the words taken, followed by those under way, are a
subsequence of the words of the commands placed, which are the picture up to the count that each
restart found and then up to the present one: none is invented, none comes twice, and none
overtakes another. -/
theorem taken_sublist_pictures (hi : i ≤ (r.burst t).length) :
    (r.taken t i ++ (r.point t i).path.words r.mem).Sublist (r.issued t i) ∧
      r.issued t i = (r.counts t i).flatMap (picture r.mem) ++
          picture r.mem (r.point t i).path.ctl.reqCnt.toNat ∧
        (r.counts t i).length = r.restarts t i ∧ ∀ n ∈ r.counts t i, n ≤ 307200 :=
  ⟨taken_append_words_sublist hi, issued_eq hi, length_counts hi, le_of_mem_counts hi⟩

/-! ### No word is lost -/

/-- In the clear, if nothing is answered, an edge appends the word of the command it places. -/
lemma words_point_succ (hroom : r.Roomy) (hs : r.Spares 0) (hx : (r.burst t)[i]? = some x) :
    (r.point t (i + 1)).path.words r.mem = (r.point t i).path.words r.mem ++
      (r.point t i).path.issuedWord r.mem ((r.point t i).pathIn r.mem x) := by
  have hin := inOrder_pathIn (r.point t i) r.mem x
  have hlen := hs.underWay_succ hroom (Nat.zero_le t) hx
  rw [point_succ hx] at hlen ⊢
  refine (ReadPath.words_edge_sublist (r.point t i).fifoAclr hin).eq_of_length ?_
  rw [List.length_append, ReadPath.length_words_eq, ReadPath.length_words_eq,
    ReadPath.length_issuedWord]
  exact hlen

/-- **The channel is complete** when no word meets a full FIFO, none is answered in the clear and
none is in the FIFO when the clear is raised: what was asked for was taken or is under way. -/
theorem taken_append_words (hroom : r.Roomy) (hs : r.Spares 0) (hc : r.ClearsEmpty)
    (hi : i ≤ (r.burst t).length) :
    r.taken t i ++ (r.point t i).path.words r.mem = r.issued t i := by
  refine invariant (P := fun t i =>
    r.taken t i ++ (r.point t i).path.words r.mem = r.issued t i) rfl ?_ ?_ hi
  · intro t i x hx ih
    rw [taken_succ hx, issued_succ hx, words_point_succ hroom hs hx, ← List.append_assoc, ih]
  · intro t ih
    rw [issued_cycle, ← ih, ← final_eq]
    refine (taken_append_words_cycle t).eq_of_length ?_
    have hway : (r.start (t + 1)).path.underWay + (if r.Popped t then 1 else 0) =
        (r.final t).path.underWay := by
      by_cases ha : r.Aclr (t + 1)
      · have hnil := hc t ha
        have hp : ¬ r.Popped t := fun hp => ((popped_iff t).1 hp).2.1 hnil
        rw [if_neg hp, underWay_start_of_nil hnil, Nat.add_zero]
      · exact underWay_start_succ ha
    rw [List.length_append, List.length_append, ReadPath.length_words_eq, ReadPath.length_words_eq,
      taken_cycle, ← hway]
    split_ifs
    · rw [List.length_append, List.length_singleton]
      omega
    · omega

/-! ### The picture, over and over -/

/-- The first `n` words of the picture sent over and over. -/
def stream (mem : BitVec 25 → BitVec 16) (n : ℕ) : List (BitVec 16) :=
  (List.range n).map fun j => pictureWord mem (j % 307200)

lemma stream_succ (mem : BitVec 25 → BitVec 16) (n : ℕ) :
    stream mem (n + 1) = stream mem n ++ [pictureWord mem (n % 307200)] := by
  rw [stream, List.range_succ, List.map_append]
  rfl

end Run

/-! ### The channel of the loop -/

theorem taken_sublist_pictures_later :
    ((doubleLoop lowHalf later).taken 40000 1 ++
        ((doubleLoop lowHalf later).point 40000 1).path.words lowHalf).Sublist
        ((doubleLoop lowHalf later).issued 40000 1) ∧
      (doubleLoop lowHalf later).issued 40000 1 =
          ((doubleLoop lowHalf later).counts 40000 1).flatMap (picture lowHalf) ++
            picture lowHalf ((doubleLoop lowHalf later).point 40000 1).path.ctl.reqCnt.toNat ∧
        ((doubleLoop lowHalf later).counts 40000 1).length =
            (doubleLoop lowHalf later).restarts 40000 1 ∧
          ∀ n ∈ (doubleLoop lowHalf later).counts 40000 1, n ≤ 307200 :=
  Run.taken_sublist_pictures (r := doubleLoop lowHalf later) (show 1 ≤ 2 by omega)

/-- Its clear is raised at reset only, when nothing is under way. -/
lemma spares_doubleLoop_zero : (doubleLoop lowHalf later).Spares 0 := by
  intro t i x _ hx hc _
  rcases Nat.eq_zero_or_pos t with rfl | ht
  · have hi : i < 2 := Run.lt_of_burst hx
    rcases (by omega : i = 0 ∨ i = 1) with rfl | rfl <;> rfl
  · exact absurd hc (not_aclr_doubleLoop ht)

theorem taken_append_words_later : (doubleLoop lowHalf later).taken 40000 1 ++
      ((doubleLoop lowHalf later).point 40000 1).path.words lowHalf =
    (doubleLoop lowHalf later).issued 40000 1 :=
  Run.taken_append_words (keeps_doubleLoop lowHalf later).roomy spares_doubleLoop_zero
    (fun t hc => absurd hc (not_aclr_doubleLoop (Nat.le_add_left 1 t)))
    (show 1 ≤ 2 by omega)

end VideoPipeline.Top

import VideoPipeline.Sdram.Protocol

/-!
The board is a memory. Every request that is accepted goes to the chip once, in order, and the
word of a read is shown five clocks after the state machine has served it. So what has been
answered at any time is a first part of what a memory answers to the requests accepted.
-/

namespace VideoPipeline.Sdram

open VideoPipeline.Lib

/-! ### From the FIFO to the wires -/

/-- A request for a read masks nothing. -/
def Request.Tidy (q : Request) : Prop := q.rnw = true → q.dqm = 0

lemma tidy_request (i : SlaveIn) : (SdramController.request i).Tidy := fun h => if_pos h

namespace MainFsm

variable (s : MainFsm) (x : MainIn)

/-- The requests that go out at an edge. -/
def serves : List Request :=
  match s.state with
  | .read | .write => if s.fPop && !s.pending x then [] else [s.chosen x]
  | _ => []

/-- The request that has left the FIFO and waits for its row. -/
def hand : List Request :=
  if s.fPop then [] else
    match s.state with
    | .read | .write => [s.active]
    | .wait =>
      match s.next with
      | .read | .write => [s.active]
      | _ => []
    | _ => []

/-- What is known of the request taken last. -/
structure Takes : Prop where
  popping : s.fPop = true → s.state = .activate ∨ s.state = .read ∨ s.state = .write
  activate : s.state = .activate → s.fPop = true ∧ s.pending x = true ∧ s.active = x.f
  tidy : s.state = .activate ∨ s.state = .wait ∧ s.next = .read ∨ s.state = .read → s.active.Tidy

end MainFsm

section Move

variable {s s' : MainFsm} {x : MainIn} {c : Chip} {refresh : Bool}

lemma serves_serving {rd : Bool} (hs : s.state = MainFsm.serving rd) :
    s.serves x = if s.fPop && !s.pending x then [] else [s.chosen x] := by
  unfold MainFsm.serves
  rw [hs]
  cases rd <;> rfl

lemma hand_serving {rd : Bool} (hs : s.state = MainFsm.serving rd) :
    s.hand = if s.fPop then [] else [s.active] := by
  unfold MainFsm.hand
  rw [hs]
  cases rd <;> rfl

lemma hand_of_fPop (h : s.fPop = true) : s.hand = [] := if_pos h

lemma fSelect_of_fPop (h : s.fPop = false) : s.fSelect x = false := by
  unfold MainFsm.fSelect
  rw [h, Bool.false_and]

/-- A request that is pending and popped is what goes out and leaves the FIFO. -/
lemma chosen_eq {l : List Request} (hl : x.fEmpty = false → l = x.f :: l.drop 1)
    (hp : s.pending x = true) : (if s.fPop then [] else [s.active]) ++ l =
      [s.chosen x] ++ l.drop (if s.fSelect x then 1 else 0) := by
  unfold MainFsm.chosen MainFsm.fSelect
  rw [hp, Bool.and_true]
  cases s.fPop with
  | true =>
    conv_lhs => rw [hl (MainFsm.pending_iff.1 hp).2.2.2.2]
    rfl
  | false => rfl

/-- **No request is lost, and none goes out twice**: what was in hand and in the FIFO goes out, or
is in hand or in the FIFO still. -/
theorem MainFsm.Move.custody {l : List Request} (hm : Move s x s') (h : s.Takes x)
    (hph : Phase s refresh c) (hl : x.fEmpty = false → l = x.f :: l.drop 1) :
    s.hand ++ l = s.serves x ++ s'.hand ++ l.drop (if s.fSelect x then 1 else 0) := by
  have hno (h1 : s.state ≠ .activate) (h2 : s.state ≠ .read) (h3 : s.state ≠ .write) :
      s.fPop = false ∧ s.fSelect x = false := by
    have hf : s.fPop = false := Bool.eq_false_iff.2 fun hf =>
      (h.popping hf).elim h1 fun h => h.elim h2 h3
    exact ⟨hf, fSelect_of_fPop hf⟩
  cases hm with
  | precharge hs =>
    obtain ⟨hf, hsel⟩ := hno (by simp [hs]) (by simp [hs]) (by simp [hs])
    rcases hph.next_of_precharge hs with hn | hn <;> simp [hand, serves, hs, hf, hsel, hn]
  | rest hs | close hs | start hs | refresh hs | recovering hs | recovered hs
  | leave hs | again hs | other hs | stay hs =>
    obtain ⟨hf, hsel⟩ := hno (by simp [hs]) (by simp [hs]) (by simp [hs])
    simp [hand, serves, hs, hf, hsel]
  | activate hs =>
    obtain ⟨hf, hp, hact⟩ := h.activate hs
    have hsel : s.fSelect x = true := by
      rw [fSelect, hf, hp]
      rfl
    rw [hand_of_fPop hf, hsel, if_pos rfl, show s.serves x = [] by simp [serves, hs]]
    conv_lhs => rw [hl (pending_iff.1 hp).2.2.2.2, ← hact]
    cases hr : s.active.rnw <;> simp [hand, serving]
  | pause b hs hc =>
    obtain ⟨hf, hsel⟩ := hno (by simp [hs]) (by simp [hs]) (by simp [hs])
    simp [hand, serves, hs, hf, hsel]
  | resume b hs hc =>
    obtain ⟨hf, hsel⟩ := hno (by simp [hs]) (by simp [hs]) (by simp [hs])
    cases hn : s.next <;> simp [hand, serves, hs, hf, hsel, hn]
  | serveLast rd hs hp hr =>
    rw [hand_serving hs, serves_serving hs, chosen_eq hl hp, hp]
    simp [hand]
  | serveNext rd hs hp hr =>
    rw [hand_serving hs, serves_serving hs, chosen_eq hl hp, hp]
    simp [hand]
  | serveOne rd hs hp hf =>
    rw [hand_serving hs, serves_serving hs, fSelect_of_fPop hf, hf]
    simp [hand, chosen, fSelect_of_fPop hf]
  | serveNone rd hs hp hf =>
    have hsel : s.fSelect x = false := by rw [fSelect, hp, Bool.and_false]
    rw [hand_serving hs, serves_serving hs, hsel, hf, hp]
    simp [hand]

/-- A row is opened for a request only when the state machine was idle. -/
lemma MainFsm.Move.state_activate (hm : Move s x s') (hph : Phase s refresh c)
    (hs' : s'.state = .activate) : s.state = .idle ∧ s'.fPop = true ∧ s'.activeCsN = false ∧
      s'.active = x.f ∧ x.fEmpty = false := by
  cases hm with
  | start hs hr he => exact ⟨hs, rfl, rfl, rfl, he⟩
  | resume b hs hc =>
    have hn := hph.next_of_wait hs
    rw [show s.next = .activate from hs'] at hn
    exact absurd hn (by decide)
  | again => cases h : x.f.rnw <;> simp [serving, h] at hs'
  | serveNext rd hs => cases rd <;> simp [serve, serving, hs] at hs'
  | rest hs | pause _ hs | recovering hs | stay hs => exact absurd (hs.symm.trans hs') (by decide)
  | close | activate | serveLast | serveOne | serveNone | recovered | precharge | refresh | leave
  | other => exact absurd hs' (by simp)

lemma MainFsm.Move.popping (hm : Move s x s') (hf : s'.fPop = true) :
    s'.state = .activate ∨ s'.state = .read ∨ s'.state = .write := by
  cases hm with
  | start => exact Or.inl rfl
  | serveNext rd hs =>
    cases rd
    · exact Or.inr (Or.inr hs)
    · exact Or.inr (Or.inl hs)
  | again => cases x.f.rnw <;> simp [serving]
  | _ => exact absurd hf (by simp [serve])

lemma MainFsm.Move.tidy (hm : Move s x s') (h : s.Takes x) (hph : Phase s refresh c)
    (hx : x.fEmpty = false → x.f.Tidy)
    (hs' : s'.state = .activate ∨ s'.state = .wait ∧ s'.next = .read ∨ s'.state = .read) :
    s'.active.Tidy := by
  cases hm with
  | start hs hr he => exact hx he
  | serveNext rd hs hp hr => exact hx (pending_iff.1 hp).2.2.2.2
  | again hs hr hp => exact hx (pending_iff.1 hp).2.2.2.2
  | activate hs => exact h.tidy (Or.inl hs)
  | pause b hs hc => exact h.tidy (hs'.imp_right (Or.imp_left fun h => h))
  | resume b hs hc =>
    have hread : s.next = .read := by
      rcases hph.next_of_wait hs with hn | hn | hn | hn <;> simp [hn] at hs' ⊢
    exact h.tidy (Or.inr (Or.inl ⟨hs, hread⟩))
  | precharge hs =>
    rcases hph.next_of_precharge hs with hn | hn <;> exact absurd hs' (by simp [hn])
  | rest hs | recovering hs | stay hs => exact absurd hs' (by simp [hs])
  | close | serveLast | serveOne | serveNone | recovered | refresh | leave | other =>
    exact absurd hs' (by simp)

end Move

/-! ### The queue of the controller -/

namespace SdramController

variable (s : SdramController) (i : SlaveIn)

/-- What is accepted in a cycle. -/
def accepting : List Request := if s.accepts i then [request i] else []

/-- What goes out at the edge. -/
def serving : List Request := s.main.serves s.mainIn

/-- What has been accepted and has not gone out. -/
def waiting : List Request := s.main.hand ++ s.fifo.contents

/-- The word shown in a cycle. -/
def giving : List (BitVec 16) := if s.zaValid then [s.zaData] else []

end SdramController

/-- The FIFO and the request in hand are sound. -/
structure Held (s : SdramController) : Prop where
  inStep : s.fifo.InStep
  tidy : ∀ q ∈ s.fifo.contents, q.Tidy
  takes : s.main.Takes s.mainIn

section Held

variable {s : SdramController} {i : SlaveIn} {w : BitVec 16} {c : Chip}

lemma not_empty_of_fSelect (h : s.main.fSelect s.mainIn = true) : s.fifo.empty = false :=
  (MainFsm.pending_iff.1 (Bool.and_eq_true_iff.1 h).2).2.2.2.2

lemma Held.tidy_front (h : Held s) (he : s.mainIn.fEmpty = false) : s.mainIn.f.Tidy :=
  h.tidy _ (by rw [Efifo.contents_eq_cons he]; exact List.mem_cons_self)

lemma not_full_of_accepts (h : s.accepts i = true) : s.fifo.full = false :=
  Bool.not_eq_true' _ ▸ (Bool.and_eq_true_iff.1 h).2

lemma Held.contents_edge (h : Held s) : (s.edge i w).fifo.contents =
    s.fifo.contents.drop (if s.main.fSelect s.mainIn then 1 else 0) ++ s.accepting i :=
  Efifo.contents_edge h.inStep not_empty_of_fSelect not_full_of_accepts

/-- **One clock**: what was accepted and has not gone out waits. -/
theorem Held.waiting_edge (h : Held s) (hfit : Fits s c) :
    s.waiting ++ s.accepting i = s.serving ++ (s.edge i w).waiting := by
  have hl : s.mainIn.fEmpty = false → s.fifo.contents = s.mainIn.f :: s.fifo.contents.drop 1 :=
    Efifo.contents_eq_cons
  have hkey : s.waiting = s.serving ++ (s.main.edge s.mainIn).hand ++
      s.fifo.contents.drop (if s.main.fSelect s.mainIn then 1 else 0) := by
    cases hd : s.initDone with
    | true =>
      replace hfit := hfit.phase hd
      exact (MainFsm.moves hd).custody h.takes hfit hl
    | false =>
      replace hfit := hfit.poweringUp hd
      have hf : s.main.fPop = false := Bool.eq_false_iff.2 fun hf => by
        simpa [hfit.idle] using h.takes.popping hf
      rw [MainFsm.edge_of_idle hd hfit.idle, fSelect_of_fPop hf]
      simp [SdramController.waiting, SdramController.serving, MainFsm.hand, MainFsm.serves,
        hfit.idle, hf]
  rw [hkey, SdramController.waiting, h.contents_edge]
  simp only [List.append_assoc]
  rfl

/-- A request that stays in the FIFO is still the oldest one. -/
lemma Held.front_edge (h : Held s) (hsel : s.main.fSelect s.mainIn = false)
    (he : s.fifo.empty = false) : (s.edge i w).fifo.empty = false ∧
      (s.edge i w).fifo.rdData = s.fifo.rdData := by
  have hcons := h.contents_edge (i := i) (w := w)
  rw [hsel, if_neg Bool.false_ne_true, List.drop_zero, Efifo.contents_eq_cons he] at hcons
  have hne : (s.edge i w).fifo.empty = false := by
    cases hem : (s.edge i w).fifo.empty with
    | false => rfl
    | true =>
      rw [Efifo.contents_of_empty hem] at hcons
      cases hcons
  refine ⟨hne, ?_⟩
  rw [Efifo.contents_eq_cons hne] at hcons
  exact (List.cons.inj hcons).1

theorem Held.edge (h : Held s) (hfit : Fits s c) : Held (s.edge i w) := by
  have hmem : ∀ q ∈ (s.edge i w).fifo.contents, q.Tidy := by
    intro q hq
    rw [h.contents_edge, List.mem_append] at hq
    rcases hq with hq | hq
    · exact h.tidy q (List.mem_of_mem_drop hq)
    · unfold SdramController.accepting at hq
      split_ifs at hq
      · rw [List.mem_singleton.1 hq]
        exact tidy_request i
      · cases hq
  refine ⟨h.inStep.edge not_empty_of_fSelect not_full_of_accepts, hmem, ?_⟩
  cases hd : s.initDone with
  | true =>
    replace hfit := hfit.phase hd
    have hm := MainFsm.moves (s := s.main) (x := s.mainIn) hd
    refine ⟨hm.popping, fun hs' => ?_, hm.tidy h.takes hfit h.tidy_front⟩
    obtain ⟨hs, hf', hcs, hact, he⟩ := hm.state_activate hfit hs'
    have hf : s.main.fPop = false := Bool.eq_false_iff.2 fun hf => by
      simpa [hs] using h.takes.popping hf
    have hfront := h.front_edge (i := i) (w := w) (fSelect_of_fPop hf) he
    have hact' : (s.edge i w).main.active = (s.edge i w).mainIn.f := hact.trans hfront.2.symm
    refine ⟨hf', MainFsm.pending_iff.2 ⟨hcs, ?_, ?_, ?_, hfront.1⟩, hact'⟩
    all_goals rw [hact']
  | false =>
    replace hfit := hfit.poweringUp hd
    have hm : (s.edge i w).main = _ := MainFsm.edge_of_idle (x := s.mainIn) hd hfit.idle
    refine ⟨?_, ?_, ?_⟩
    all_goals rw [hm]
    · intro hf
      cases hf
    · intro hs
      cases hs
    · rintro (hs | ⟨hs, -⟩ | hs) <;> cases hs

end Held

/-! ### Reads and writes on the wires -/

section Wires

variable {s s' : MainFsm} {x : MainIn} {c : Chip} {p : Pins} {refresh : Bool}

/-- Only requests that go out put a read or a write on the wires. -/
lemma MainFsm.Move.wires (hm : Move s x s') : s.serves x = [] ∧ s'.cmd.Quiet ∨
    ∃ rd, s.state = serving rd ∧ s.serves x = [s.chosen x] ∧ s'.pins = (s.serve x rd).pins := by
  cases hm with
  | serveLast rd hs hp | serveNext rd hs hp =>
    refine Or.inr ⟨rd, hs, ?_, rfl⟩
    rw [serves_serving hs, hp]
    simp
  | serveOne rd hs hp hf =>
    refine Or.inr ⟨rd, hs, ?_, rfl⟩
    rw [serves_serving hs, hf]
    simp
  | serveNone rd hs hp hf =>
    refine Or.inl ⟨?_, Cmd.quiet_nop⟩
    rw [serves_serving hs, hf, hp]
    simp
  | precharge hs =>
    refine Or.inl ⟨by simp [serves, hs], ?_⟩
    change (if _ then _ else _ : Cmd).Quiet
    split_ifs <;> exact ⟨by simp, by simp⟩
  | activate hs | refresh hs => exact Or.inl ⟨by simp [serves, hs], by simp, by simp⟩
  | rest hs | close hs | start hs | pause _ hs | resume _ hs | recovering hs | recovered hs
  | leave hs | again hs | other hs | stay hs => exact Or.inl ⟨by simp [serves, hs], Cmd.quiet_nop⟩

lemma Cmd.Quiet.command {d : Cmd} (h : d.Quiet) : d.command ≠ .read ∧ d.command ≠ .write := by
  obtain ⟨h4, h5⟩ := h
  unfold Cmd.command
  split_ifs
  · exact ⟨by decide, by decide⟩
  · split <;> simp_all

lemma Chip.access_of_quiet (h : p.cmd.Quiet) : c.access p = [] := by
  obtain ⟨hr, hw⟩ := h.command
  unfold access
  split
  next h _ => exact absurd h hr
  next h _ => exact absurd h hw
  next => rfl

lemma Chip.access_of_read {row : BitVec 13} (h : p.cmd.command = .read)
    (hrow : c.openRow p.bank = some row) :
    c.access p = [.read (cellOf p.bank row (p.addr.extractLsb' 0 10))] := by
  unfold access
  rw [h, hrow]

lemma Chip.access_of_write {row : BitVec 13} (h : p.cmd.command = .write)
    (hrow : c.openRow p.bank = some row) :
    c.access p = [.write (cellOf p.bank row (p.addr.extractLsb' 0 10)) p.dqm p.data] := by
  unfold access
  rw [h, hrow]

/-- What goes out is of the kind that is served. -/
lemma chosen_rnw {rd : Bool} (h : s.active.rnw = rd) : (s.chosen x).rnw = rd := by
  unfold MainFsm.chosen MainFsm.fSelect
  split_ifs with hsel
  · rw [← (MainFsm.pending_iff.1 (Bool.and_eq_true_iff.1 hsel).2).2.1, h]
  · exact h

/-- The access of the chip is the request. -/
lemma Chip.access_serve {rd : Bool} (hcs : s.activeCsN = false) (hrd : s.active.rnw = rd)
    (ho : c.Opened s.active) : c.access (s.serve x rd).pins = [(s.chosen x).op] := by
  have hrow : c.openRow (s.chosen x).bank = some (s.chosen x).row := by
    rw [ho.chosen (s.chosen x).bank, if_pos rfl]
  have hcol : (s.casAddr x).extractLsb' 0 10 = (s.chosen x).col := by
    unfold MainFsm.casAddr
    grind
  have hcell : cellOf (s.chosen x).bank (s.chosen x).row ((s.casAddr x).extractLsb' 0 10) =
      (s.chosen x).addr := by rw [hcol, cellOf_request]
  have hkind := chosen_rnw (x := x) hrd
  have hsel := MainFsm.csnDecode_of_selected (x := x) hcs
  unfold Request.op
  cases rd with
  | true =>
    have hcmd : (s.serve x true).pins.cmd.command = .read := by
      change (⟨s.csnDecode x, 5⟩ : Cmd).command = _
      rw [hsel]
      rfl
    rw [access_of_read hcmd hrow, if_pos hkind]
    exact congrArg (fun a => [Op.read a]) hcell
  | false =>
    have hcmd : (s.serve x false).pins.cmd.command = .write := by
      change (⟨s.csnDecode x, 4⟩ : Cmd).command = _
      rw [hsel]
      rfl
    rw [access_of_write hcmd hrow, if_neg (by simp [hkind])]
    exact congrArg (fun a => [Op.write a (s.chosen x).dqm (s.chosen x).data]) hcell

end Wires

/-! ### The words on their way -/

/-- The states with a read on the wires. -/
def MainFsm.Reading (s : MainFsm) : Prop :=
  s.state = .read ∨ s.state = .spin ∧ s.active.rnw = true ∨ s.state = .wait ∧ s.next = .idle

section Reading

variable {s s' : MainFsm} {x : MainIn} {c : Chip} {refresh : Bool}

lemma Phase.rnw_of_read (h : Phase s refresh c) (hs : s.state = .read) : s.active.rnw = true :=
  ((stage_serving (r := true) hs).1 h.stage).2.1

/-- A read that goes out masks nothing. -/
lemma chosen_dqm (h : s.Takes x) (hph : Phase s refresh c) (hx : x.fEmpty = false → x.f.Tidy)
    (hs : s.state = .read) : (s.chosen x).dqm = 0 := by
  have htidy : (s.chosen x).Tidy := by
    unfold MainFsm.chosen MainFsm.fSelect
    split_ifs with hsel
    · exact hx (MainFsm.pending_iff.1 (Bool.and_eq_true_iff.1 hsel).2).2.2.2.2
    · exact h.tidy (Or.inr (Or.inr hs))
  exact htidy (chosen_rnw (hph.rnw_of_read hs))

namespace MainFsm.Move

/-- After a read. -/
lemma reading_of_read (hm : Move s x s') (hph : Phase s refresh c) (hs : s.state = .read) :
    s'.Reading := by
  have hrd := hph.rnw_of_read hs
  cases hm with
  | serveLast rd _ _ _ => exact Or.inr (Or.inr ⟨rfl, rfl⟩)
  | serveNext rd _ hp _ => exact Or.inl hs
  | serveOne rd _ _ _ | serveNone rd _ _ _ => exact Or.inr (Or.inl ⟨rfl, hrd⟩)
  | rest h | close h | start h | activate h | pause _ h | resume _ h | recovering h | recovered h
  | precharge h | refresh h | leave h | again h | other h | stay h =>
    exact absurd (h.symm.trans hs) (by decide)

/-- One clock later. -/
lemma of_reading (hm : Move s x s') (hph : Phase s refresh c) (h : s.Reading) :
    s'.Reading ∨ s'.state = .recover ∨ s'.state = .idle := by
  rcases h with hs | ⟨hs, hrd⟩ | ⟨hs, hn⟩
  · exact Or.inl (hm.reading_of_read hph hs)
  · cases hm with
    | leave => exact Or.inl (Or.inr (Or.inr ⟨rfl, rfl⟩))
    | again _ _ hp =>
      have hf : x.f.rnw = true := (pending_iff.1 hp).2.1.symm.trans hrd
      exact Or.inl (Or.inl (by simp [serving, hf]))
    | other => exact Or.inr (Or.inl rfl)
    | stay => exact Or.inl (Or.inr (Or.inl ⟨hs, hrd⟩))
    | serveLast _ h | serveNext _ h | serveOne _ h | serveNone _ h =>
      exact absurd (h.symm.trans hs) serving_ne_spin
    | rest h | close h | start h | activate h | pause _ h | resume _ h | recovering h
    | recovered h | precharge h | refresh h => exact absurd (h.symm.trans hs) (by decide)
  · obtain ⟨b, ⟨-, rfl⟩ | ⟨-, rfl⟩⟩ := hm.of_wait hs
    · exact Or.inl (Or.inr (Or.inr ⟨hs, hn⟩))
    · exact Or.inr (Or.inr hn)

/-- Two clocks later nothing is written yet. -/
lemma not_write (hm : Move s x s') (hph : Phase s refresh c)
    (h : s.Reading ∨ s.state = .recover ∨ s.state = .idle) : s'.state ≠ .write := by
  rcases h with h | h
  · rcases hm.of_reading hph h with (h | ⟨h, -⟩ | ⟨h, -⟩) | h | h <;> simp [h]
  · cases hm with
    | resume _ hs | again hs => exact absurd h (by simp [hs])
    | serveNext rd hs => exact absurd h (by cases rd <;> simp [hs, serving])
    | rest hs | pause _ hs | recovering hs | stay hs =>
      change s.state ≠ _
      simp [hs]
    | _ => simp

/-- The mask of a read stays up for its word. -/
lemma dqm_of_reading (hm : Move s x s') (ht : s.Takes x) (hph : Phase s refresh c)
    (hx : x.fEmpty = false → x.f.Tidy) (h : s.Reading) (hd : s.dqm = 0) : s'.dqm = 0 := by
  have hserve (rd : Bool) (hs : s.state = serving rd) : (s.chosen x).dqm = 0 := by
    refine chosen_dqm ht hph hx ?_
    cases rd
    · rcases h with h | ⟨h, -⟩ | ⟨h, -⟩ <;> exact absurd (hs.symm.trans h) (by decide)
    · exact hs
  cases hm with
  | serveLast rd hs | serveNext rd hs | serveOne rd hs | serveNone rd hs => exact hserve rd hs
  | activate hs => rcases h with h | ⟨h, -⟩ | ⟨h, -⟩ <;> exact absurd (hs.symm.trans h) (by decide)
  | _ => exact hd

/-- The pins are driven after a write only. -/
lemma oe_eq_false (hm : Move s x s') (hs : s.state ≠ .write) : s'.oe = false := by
  have hrd (rd : Bool) (h : s.state = serving rd) : (!rd) = false := by
    cases rd
    · exact absurd h hs
    · rfl
  cases hm with
  | serveLast rd h | serveNext rd h | serveOne rd h => exact hrd rd h
  | _ => rfl

end MainFsm.Move

end Reading

/-- The reads on their way: the chip has their words when the controller expects them, and nothing
else drives the pins. -/
structure Lanes (s : Board) : Prop where
  strobe : s.ctl.rdStrobe = s.served.q0.isSome
  valid0 : s.ctl.rdValid.getLsbD 0 = s.served.q1.isSome
  valid1 : s.ctl.rdValid.getLsbD 1 = s.served.q2.isSome
  valid2 : s.ctl.rdValid.getLsbD 2 = s.chip.q2.isSome
  out0 : s.served.q0.isSome = true → s.ctl.main.dqm = 0 ∧ s.ctl.main.Reading
  out1 : s.served.q1.isSome = true →
    s.ctl.main.Reading ∨ s.ctl.main.state = .recover ∨ s.ctl.main.state = .idle
  out2 : s.served.q2.isSome = true → s.ctl.main.state ≠ .write
  free : s.chip.q2.isSome = true → s.ctl.main.oe = false

section Lanes

variable {s : Board} {i : SlaveIn} {w : BitVec 16}

lemma serving_cases (s : SdramController) : s.serving = [] ∨ ∃ q, s.serving = [q] := by
  unfold SdramController.serving MainFsm.serves
  cases s.main.state with
  | read | write =>
    change (if _ then _ else _) = _ ∨ _
    split_ifs
    · exact Or.inl rfl
    · exact Or.inr ⟨_, rfl⟩
  | _ => exact Or.inl rfl

lemma isSome_replies_op (cells : BitVec 25 → BitVec 16) (q : Request) :
    (replies Op.act Op.reply cells [q.op]).head?.isSome = q.rnw := by
  unfold Request.op
  cases q.rnw <;> rfl

/-- What one edge puts on the wires. -/
lemma serving_edge (hfit : Fits s.ctl s.served) :
    s.served.access (s.edge i w).ctl.main.pins = s.ctl.serving.map Request.op ∧
      (s.edge i w).ctl.rdStrobe =
        (replies Op.act Op.reply s.served.cells (s.ctl.serving.map Request.op)).head?.isSome := by
  have hnone (hserve : s.ctl.serving = []) (hq : (s.edge i w).ctl.main.cmd.Quiet) :
      s.served.access (s.edge i w).ctl.main.pins = s.ctl.serving.map Request.op ∧
        (s.edge i w).ctl.rdStrobe =
          (replies Op.act Op.reply s.served.cells (s.ctl.serving.map Request.op)).head?.isSome := by
    rw [hserve]
    exact ⟨Chip.access_of_quiet hq, decide_eq_false hq.2⟩
  cases hd : s.ctl.initDone with
  | true =>
    replace hfit := hfit.phase hd
    have hm := MainFsm.moves (s := s.ctl.main) (x := s.ctl.mainIn) hd
    rcases hm.wires with ⟨hserve, hq⟩ | ⟨rd, hs, hserve, hpins⟩
    · exact hnone hserve hq
    · obtain ⟨hcs, hrd, -, ho⟩ := (stage_serving hs).1 hfit.stage
      have hpins' : (s.edge i w).ctl.main.pins = (s.ctl.main.serve s.ctl.mainIn rd).pins :=
        hpins
      have hcmd : (s.edge i w).ctl.rdStrobe =
          decide ((s.edge i w).ctl.main.pins.cmd.code = 5) := rfl
      rw [hcmd, hpins', Chip.access_serve hcs hrd ho, SdramController.serving, hserve]
      refine ⟨rfl, ?_⟩
      rw [List.map_singleton, isSome_replies_op, chosen_rnw hrd]
      cases rd <;> rfl
  | false =>
    replace hfit := hfit.poweringUp hd
    have hmain : (s.edge i w).ctl.main = _ :=
      MainFsm.edge_of_idle (x := s.ctl.mainIn) hd hfit.idle
    refine hnone ?_ ?_
    · rw [SdramController.serving, MainFsm.serves, hfit.idle]
    · rw [hmain]
      exact hfit.quiet

/-- What an edge of the state machine means for the reads on their way. -/
structure KeepsReads (m m' : MainFsm) (served : List Request) : Prop where
  mask : m.Reading → m.dqm = 0 → m'.dqm = 0
  out0 : ∀ q ∈ served, q.rnw = true → m'.dqm = 0 ∧ m'.Reading
  out1 : m.Reading → m'.Reading ∨ m'.state = .recover ∨ m'.state = .idle
  out2 : m.Reading ∨ m.state = .recover ∨ m.state = .idle → m'.state ≠ .write
  free : m.state ≠ .write → m'.oe = false

lemma keepsReads_edge (hh : Held s.ctl) (hfit : Fits s.ctl s.served) :
    KeepsReads s.ctl.main (s.edge i w).ctl.main s.ctl.serving := by
  cases hd : s.ctl.initDone with
  | true =>
    replace hfit := hfit.phase hd
    have hm := MainFsm.moves (s := s.ctl.main) (x := s.ctl.mainIn) hd
    have hx : s.ctl.mainIn.fEmpty = false → s.ctl.mainIn.f.Tidy := hh.tidy_front
    refine ⟨fun h hdqm => hm.dqm_of_reading hh.takes hfit hx h hdqm, fun q hq hrd => ?_,
      hm.of_reading hfit, hm.not_write hfit, hm.oe_eq_false⟩
    rcases hm.wires with ⟨hserve, -⟩ | ⟨rd, hs, hserve, hpins⟩
    · rw [SdramController.serving, hserve] at hq
      cases hq
    · rw [SdramController.serving, hserve, List.mem_singleton] at hq
      obtain ⟨-, hact, -⟩ := (stage_serving hs).1 hfit.stage
      have hrd' : rd = true := (chosen_rnw (x := s.ctl.mainIn) hact).symm.trans (hq ▸ hrd)
      have hread : s.ctl.main.state = .read := by
        rw [hs, hrd']
        rfl
      have hdqm : (s.edge i w).ctl.main.dqm = (s.ctl.main.chosen s.ctl.mainIn).dqm :=
        congrArg Pins.dqm hpins
      exact ⟨hdqm.trans (chosen_dqm hh.takes hfit hx hread), hm.reading_of_read hfit hread⟩
  | false =>
    replace hfit := hfit.poweringUp hd
    have hmain : (s.edge i w).ctl.main = _ :=
      MainFsm.edge_of_idle (x := s.ctl.mainIn) hd hfit.idle
    have hno : ¬ s.ctl.main.Reading := by
      rintro (h | ⟨h, -⟩ | ⟨h, -⟩) <;> exact absurd (hfit.idle.symm.trans h) (by decide)
    have hserve : s.ctl.serving = [] := by
      rw [SdramController.serving, MainFsm.serves, hfit.idle]
    rw [hmain, hserve]
    exact ⟨fun h => absurd h hno, fun q hq => absurd hq List.not_mem_nil, fun h => absurd h hno,
      fun _ => by simp, fun _ => rfl⟩

/-- **One clock**: the words move on. -/
theorem Lanes.edge (h : Lanes s) (hh : Held s.ctl) (hfit : Fits s.ctl s.served) :
    Lanes (s.edge i w) ∧ (s.edge i w).served.q1 = s.served.q0 ∧
      (s.edge i w).ctl.giving = s.chip.q2.toList := by
  obtain ⟨haccess, hstrobe⟩ := serving_edge (i := i) (w := w) hfit
  have hk := keepsReads_edge (i := i) (w := w) hh hfit
  have hq0 : (s.edge i w).served.q0 = (replies Op.act Op.reply s.served.cells
      (s.ctl.serving.map Request.op)).head? := by
    rw [← haccess]
    rfl
  have hq1 : (s.edge i w).served.q1 = s.served.q0 := by
    change (if (s.edge i w).ctl.main.dqm = 0 then s.served.q0 else none) = _
    cases h0 : s.served.q0 with
    | none => exact ite_self _
    | some w =>
      obtain ⟨hdqm, hreading⟩ := h.out0 (by rw [h0]; rfl)
      rw [if_pos (hk.mask hreading hdqm)]
  have hq2 : (s.edge i w).served.q2 = s.served.q1 := rfl
  have hbit (k : ℕ) : (s.edge i w).ctl.rdValid.getLsbD k =
      (decide (k < 3) && if k = 0 then s.ctl.rdStrobe else s.ctl.rdValid.getLsbD (k - 1)) :=
    BitVec.getLsbD_shiftConcat _ _ _
  refine ⟨⟨?_, ?_, ?_, ?_, ?_, ?_, ?_, ?_⟩, hq1, ?_⟩
  · rw [hstrobe, hq0]
  · rw [hbit, hq1, ← h.strobe]
    rfl
  · rw [hbit, hq2, ← h.valid0]
    rfl
  · change _ = s.served.q2.isSome
    rw [hbit, ← h.valid1]
    rfl
  · intro hsome
    rcases serving_cases s.ctl with hserve | ⟨q, hserve⟩
    · rw [hq0, hserve] at hsome
      cases hsome
    · rw [hq0, hserve, List.map_singleton, isSome_replies_op] at hsome
      exact hk.out0 q (hserve ▸ List.mem_singleton_self q) hsome
  · rw [hq1]
    exact fun hsome => hk.out1 (h.out0 hsome).2
  · rw [hq2]
    exact fun hsome => hk.out2 (h.out1 hsome)
  · exact fun hsome => hk.free (h.out2 hsome)
  · change (if s.ctl.rdValid.getLsbD 2 then [s.zsDq w] else []) = _
    rw [h.valid2]
    cases h2 : s.chip.q2 with
    | none => rfl
    | some w =>
      have hoe : s.ctl.main.oe = false := h.free (by rw [h2]; rfl)
      rw [Board.zsDq, hoe, h2]
      rfl

end Lanes

/-! ### The board -/

/-- What holds of the board at all times. -/
structure Sound (s : Board) : Prop where
  allows : s.chip.Allows s.ctl.main.pins
  fits : Fits s.ctl s.served
  held : Held s.ctl
  lanes : Lanes s

lemma Sound.edge {s : Board} {i : SlaveIn} {w : BitVec 16} (h : Sound s) :
    Sound (s.edge i w) := by
  have hnext := h.fits.edge (i := i) (w := s.zsDq w)
  exact ⟨hnext.1, hnext.2, h.held.edge h.fits, (h.lanes.edge h.held h.fits).1⟩

section Runs

variable (p : PowerUp) (openRow : BitVec 2 → Option (BitVec 13)) (cells : BitVec 25 → BitVec 16)
  (inp : ℕ → BoardIn)

theorem boardAt_sound (n : ℕ) : Sound (boardAt p openRow cells inp n) := by
  refine run_invariant (P := fun _ s => Sound s) ?_ (fun n h => h.edge) n
  have hnone (o : Option (BitVec 16)) (ho : o = none) {P : Prop} (h : o.isSome = true) : P := by
    rw [ho] at h
    cases h
  refine ⟨(Chip.idles rfl).allows, fits_reset p openRow cells, ⟨⟨?_, rfl⟩, ?_, ?_, ?_, ?_⟩,
    ⟨rfl, ?_, ?_, ?_, hnone _ rfl, hnone _ rfl, hnone _ rfl, hnone _ rfl⟩⟩
  · exact (by decide : (0 : BitVec 2) ≤ 2)
  · exact fun q hq => absurd hq List.not_mem_nil
  · intro h
    cases h
  · intro h
    cases h
  · rintro (h | ⟨h, -⟩ | h) <;> cases h
  · exact (by decide : (0 : BitVec 3).getLsbD 0 = false)
  · exact (by decide : (0 : BitVec 3).getLsbD 1 = false)
  · exact (by decide : (0 : BitVec 3).getLsbD 2 = false)

/-- The requests accepted in the first `n` clocks. -/
def accepted (n : ℕ) : List Request :=
  history (fun m => (boardAt p openRow cells inp m).ctl.accepting (inp m).slave) n

/-- The words shown in the first `n` clocks. -/
def shown (n : ℕ) : List (BitVec 16) :=
  history (fun m => (boardAt p openRow cells inp m).ctl.giving) n

/-- Everything accepted goes to the chip, once and in order. -/
lemma queues_boardAt : Queues
    (fun n => (boardAt p openRow cells inp n).ctl.accepting (inp n).slave)
    (fun n => (boardAt p openRow cells inp n).ctl.serving)
    (fun n => (boardAt p openRow cells inp n).ctl.waiting) :=
  ⟨rfl, fun n => (boardAt_sound p openRow cells inp n).held.waiting_edge
    (boardAt_sound p openRow cells inp n).fits⟩

lemma lanes_succ (n : ℕ) : (boardAt p openRow cells inp (n + 1)).served.q1 =
      (boardAt p openRow cells inp n).served.q0 ∧
    (boardAt p openRow cells inp (n + 1)).ctl.giving =
      (boardAt p openRow cells inp n).chip.q2.toList :=
  have h := boardAt_sound p openRow cells inp n
  (h.lanes.edge h.held h.fits).2

/-- The words come five clocks after their requests have gone out. -/
lemma giving_add_five (n : ℕ) : (boardAt p openRow cells inp (n + 5)).ctl.giving =
    replies Op.act Op.reply (boardAt p openRow cells inp n).served.cells
      ((boardAt p openRow cells inp n).ctl.serving.map Request.op) := by
  have hstep := lanes_succ p openRow cells inp
  have hout : (boardAt p openRow cells inp (n + 1)).served.q0 =
      (replies Op.act Op.reply (boardAt p openRow cells inp n).served.cells
        ((boardAt p openRow cells inp n).ctl.serving.map Request.op)).head? := by
    rw [← (serving_edge (i := (inp n).slave) (w := (inp n).float)
      (boardAt_sound p openRow cells inp n).fits).1]
    rfl
  calc (boardAt p openRow cells inp (n + 5)).ctl.giving
      = (boardAt p openRow cells inp (n + 4)).chip.q2.toList := (hstep (n + 4)).2
    _ = (boardAt p openRow cells inp (n + 3)).served.q2.toList := rfl
    _ = (boardAt p openRow cells inp (n + 2)).served.q1.toList := rfl
    _ = (boardAt p openRow cells inp (n + 1)).served.q0.toList :=
      congrArg Option.toList (hstep (n + 1)).1
    _ = _ := by
      rw [hout]
      rcases serving_cases (boardAt p openRow cells inp n).ctl with h | ⟨q, h⟩
      · rw [h]
        rfl
      · rw [h, List.map_singleton, replies, replies, List.append_nil]
        cases Op.reply (boardAt p openRow cells inp n).served.cells q.op <;> rfl

lemma giving_of_lt {n : ℕ} (h : n < 5) : (boardAt p openRow cells inp n).ctl.giving = [] := by
  have hstep := lanes_succ p openRow cells inp
  match n, h with
  | 0, _ => rfl
  | 1, _ => exact (hstep 0).2
  | 2, _ => exact (hstep 1).2
  | 3, _ => exact (hstep 2).2
  | 4, _ =>
    refine (hstep 3).2.trans ?_
    exact congrArg Option.toList (hstep 0).1

/-- What has been shown five clocks later is what the chip answers to what has gone out. -/
lemma shown_add_five (n : ℕ) : shown p openRow cells inp (n + 5) =
    replies Op.act Op.reply cells
      ((history (fun m => (boardAt p openRow cells inp m).ctl.serving) n).map Request.op) := by
  have hcells (m : ℕ) : (boardAt p openRow cells inp (m + 1)).served.cells =
      ((boardAt p openRow cells inp m).ctl.serving.map Request.op).foldl Op.act
        (boardAt p openRow cells inp m).served.cells := by
    rw [← (serving_edge (i := (inp m).slave) (w := (inp m).float)
      (boardAt_sound p openRow cells inp m).fits).1]
    rfl
  rw [shown, map_history, history_add (fun m hm => giving_of_lt p openRow cells inp hm)
    (giving_add_five p openRow cells inp)]
  exact (history_replies hcells n).2

/-- **The rules of the chip are kept**: from reset on and for ever every command is one that the
chip allows, and the data pins are not driven from both sides. -/
theorem boardAt_allows (n : ℕ) :
    (boardAt p openRow cells inp n).chip.Allows (boardAt p openRow cells inp n).ctl.main.pins ∧
      ((boardAt p openRow cells inp n).chip.q2.isSome = true →
        (boardAt p openRow cells inp n).ctl.main.oe = false) :=
  ⟨(boardAt_sound p openRow cells inp n).allows, (boardAt_sound p openRow cells inp n).lanes.free⟩

end Runs

end VideoPipeline.Sdram

import VideoPipeline.Format.Download
import VideoPipeline.Software.Console
import VideoPipeline.Top.Screen

/-!
The program and the hardware together. The enable of the controller is the register of the PIO,
which the program writes when it reads a key: so the key for off releases the bus, as the program
says it does, and the keys for off and, a frame later, for on bring the image to the screen.
-/

namespace VideoPipeline.Top

open VideoPipeline.Lib VideoPipeline.Vga VideoPipeline.Image VideoPipeline.Pixel VideoPipeline.Read
  VideoPipeline.Format VideoPipeline.Software

namespace Run

/-- A session of the program over a run. In cycle `t` the loop has made `turn t` turns, and has
written the register in the next one, or not yet. -/
structure Session (r : Run) where
  sw : BitVec 32
  polls : ℕ → Poll
  turn : ℕ → ℕ
  mono : Monotone turn
  sees : ∀ t, ∀ x ∈ r.burst t,
    x.pioImgLoaded = loaded sw polls (turn t) ∨ x.pioImgLoaded = loaded sw polls (turn t + 1)

namespace Session

variable {r : Run} (c : r.Session) {q : Terms} {t t₀ i a b n : ℕ}

lemma pioImgLoaded_of_off (ha : (c.polls a).command = some false)
    (hno : ∀ n, a < n → n < b → (c.polls n).command ≠ some true) (hat : a < c.turn t)
    (htb : c.turn t < b) : ∀ x ∈ r.burst t, x.pioImgLoaded = false := by
  intro x hx
  rcases c.sees t x hx with h | h
  · exact h.trans (loaded_of_off ha hno hat htb.le)
  · exact h.trans (loaded_of_off ha hno (by omega) htb)

lemma pioImgLoaded_of_on (hb : (c.polls b).command = some true)
    (hno : ∀ n > b, (c.polls n).command ≠ some false) (hbt : b < c.turn t) :
    ∀ x ∈ r.burst t, x.pioImgLoaded = true := by
  intro x hx
  rcases c.sees t x hx with h | h
  · exact h.trans (loaded_of_on hb hno hbt)
  · exact h.trans (loaded_of_on hb hno (by omega))

/-- **"SDRAM bus free for JTAG."** Where the terms are kept: from 504 cycles after the turn that
read the key for off, and until one reads the key for on, no command is on the bus or placed
there, and no read is unanswered. -/
theorem bus_free (hl : r.Linked) (hk : r.Keeps q) (ha : (c.polls a).command = some false)
    (hno : ∀ n, a < n → n < b → (c.polls n).command ≠ some true) {e : ℕ} (he : 1 ≤ e)
    (hae : a < c.turn e) (htb : c.turn t < b) (het : e + 504 ≤ t) (hi : i ≤ (r.burst t).length) :
    (r.point t i).path.ctl.avmRead = false ∧ (r.point t i).path.bus = [] ∧
      ∀ x, ¬ r.IssuesAt (r.point t i, x) := by
  have hoff : ∀ u, e ≤ u → u < t + 1 → ∀ x ∈ r.burst u, x.pioImgLoaded = false := by
    intro u h1 h2
    have hlow : c.turn e ≤ c.turn u := c.mono h1
    have hhigh : c.turn u ≤ c.turn t := c.mono (by omega)
    exact c.pioImgLoaded_of_off ha hno (by omega) (by omega)
  have hready {u j : ℕ} (hj : j ≤ (r.burst u).length) (h1 : e + 3 ≤ u) (h2 : u < t + 1) :
      (r.point u j).path.ctl.frameReady = false := frameReady_of_const hl he hoff hj h1 h2
  have hg : r.Gated (e + 3) (t + 1) := fun u j x h1 h2 hx =>
    not_issuesAt_of_not_ready (hready (lt_of_burst hx).le h1 h2)
  refine ⟨hg.avmRead hk (by omega) (by omega) hi, hg.bus hl hk (by omega) (by omega) hi, ?_⟩
  intro x
  exact not_issuesAt_of_not_ready (hready hi (by omega) (by omega))

end Session

end Run

/-! ### A session -/

/-- What a turn reads that finds the key `k`, or none. -/
def keyRead (k : List (BitVec 8)) : Poll :=
  ⟨avReaddata ⟨false, 0, false, false, true, true, false, false, 0⟩ k, 0⟩

/-- The display is switched off in the first turn and on in turn 9620. -/
def offThenOn (n : ℕ) : Poll :=
  keyRead (if n = 0 then [char '0'] else if n = 9620 then [char '1'] else [])

lemma command_offThenOn (n : ℕ) : (offThenOn n).command =
    if n = 0 then some false else if n = 9620 then some true else none := by
  rw [offThenOn, keyRead, command_avReaddata]
  split_ifs <;> rfl

lemma loaded_offThenOn (n : ℕ) : loaded 0 offThenOn n = decide (9621 ≤ n) := by
  induction n with
  | zero => rfl
  | succ n ih =>
    rw [loaded_succ, ih, command_offThenOn]
    split_ifs with h0 h1
    · rw [Option.getD_some, decide_eq_false (by omega)]
    · rw [Option.getD_some, decide_eq_true (by omega)]
    · rw [Option.getD_none, decide_eq_decide]
      omega

/-- One turn in every cycle. -/
def session : (doubleLoop shadedMem later).Session where
  sw := 0
  polls := offThenOn
  turn := fun t => t + 1
  mono := fun _ _ h => Nat.succ_le_succ h
  sees := by
    intro t x hx
    obtain ⟨i, hi⟩ := List.mem_iff_getElem?.1 hx
    left
    rw [loaded_offThenOn, loopIn_of_burst hi]
    change later t = _
    rw [later, decide_eq_decide]
    omega

lemma command_session_zero : (session.polls 0).command = some false := command_offThenOn 0

lemma command_session_on : (session.polls 9620).command = some true := command_offThenOn 9620

lemma command_session_before (n : ℕ) (h0 : 0 < n) (h : n < 9620) :
    (session.polls n).command ≠ some true := by
  rw [show (session.polls n).command = _ from command_offThenOn n, if_neg (by omega),
    if_neg (by omega)]
  simp

lemma command_session_after (n : ℕ) (h : n > 9620) : (session.polls n).command ≠ some false := by
  rw [show (session.polls n).command = _ from command_offThenOn n, if_neg (by omega),
    if_neg (by omega)]
  simp

/-- Every file is that of the image. -/
def imageFiles (_ : String) : Option (List (BitVec 8)) := some (binFile shaded)

lemma files_desk : (deskView imageFiles).files (Console.fileOf []) = some (binFile shaded) := rfl

lemma mem_session : (doubleLoop shadedMem later).mem =
    wordAt ((deskView imageFiles).mem ⟨[], load (binFile shaded) fun _ => 0⟩) := by
  generalize hM : load (binFile shaded) (fun _ => 0) = M
  exact congrArg wordAt hM

theorem bus_free_session :
    ((doubleLoop shadedMem later).point 9000 1).path.ctl.avmRead = false ∧
      ((doubleLoop shadedMem later).point 9000 1).path.bus = [] ∧
        ∀ x, ¬ (doubleLoop shadedMem later).IssuesAt ((doubleLoop shadedMem later).point 9000 1, x) :=
  Run.Session.bus_free session (twoToOne_doubleLoop shadedMem later).linked
    (keeps_doubleLoop shadedMem later) command_session_zero command_session_before
    (show 1 ≤ 1 by omega) (show 0 < 1 + 1 by omega) (show 9000 + 1 < 9620 by omega)
    (show 1 + 504 ≤ 9000 by omega) (show 1 ≤ 2 by omega)

end VideoPipeline.Top

import Mathlib.Data.List.Basic
import Mathlib.Data.Nat.Init
import Mathlib.Order.MinMax

/-!
Servers that answer in order. What a machine takes in or gives out in each cycle is a list, and
the history of it is all of them one after the other. A queue hands on what it takes in, each
once and in order; it has handed on all that had come in up to a time as soon as it was seen to
make progress as often as it can hold requests. A request acts on the state of a server and may
be answered; the answers to a history are those to its parts.
-/

namespace VideoPipeline.Lib

/-! ### Histories -/

section History

variable {α : Type*} {f g : ℕ → List α}

/-- All that came in the first `n` cycles. -/
def history (f : ℕ → List α) (n : ℕ) : List α := (List.range n).flatMap f

@[simp] lemma history_zero : history f 0 = [] := rfl

lemma history_succ (n : ℕ) : history f (n + 1) = history f n ++ f n := by
  unfold history
  rw [List.range_succ, List.flatMap_append, List.flatMap_singleton]

lemma history_mono {m n : ℕ} (h : m ≤ n) : history f m <+: history f n := by
  induction n, h using Nat.le_induction with
  | base => exact List.prefix_rfl
  | succ n hn ih =>
    rw [history_succ]
    exact ih.trans (List.prefix_append _ _)

/-- A history is as long as it was, and longer if something came. -/
lemma length_history_lt {m n k : ℕ} (hmk : m ≤ k) (hkn : k < n) (h : f k ≠ []) :
    (history f m).length < (history f n).length := by
  have h1 := (history_mono (f := f) hmk).length_le
  have h2 := (history_mono (f := f) hkn).length_le
  rw [Nat.succ_eq_add_one, history_succ, List.length_append] at h2
  have := List.length_pos_iff.2 h
  omega

lemma map_history {β : Type*} (h : α → β) (n : ℕ) :
    (history f n).map h = history (fun m => (f m).map h) n :=
  List.map_flatMap

/-- A history that comes `d` cycles later. -/
lemma history_add {d : ℕ} (h0 : ∀ n < d, g n = []) (h : ∀ n, g (n + d) = f n) (n : ℕ) :
    history g (n + d) = history f n := by
  induction n with
  | zero =>
    rw [Nat.zero_add, history_zero]
    exact List.flatMap_eq_nil_iff.2 fun m hm => h0 m (List.mem_range.1 hm)
  | succ n ih => rw [Nat.add_right_comm, history_succ, ih, h, history_succ]

end History

/-! ### Queues -/

section Queue

variable {α : Type*} {ins outs held : ℕ → List α}

/-- What comes in leaves in the same order, each once. -/
structure Queues (ins outs held : ℕ → List α) : Prop where
  start : held 0 = []
  step : ∀ n, held n ++ ins n = outs n ++ held (n + 1)

/-- **What a queue holds** is what came in and has not left. -/
theorem Queues.ins_eq (h : Queues ins outs held) (n : ℕ) :
    history ins n = history outs n ++ held n := by
  induction n with
  | zero => rw [history_zero, history_zero, h.start, List.nil_append]
  | succ n ih => rw [history_succ, ih, List.append_assoc, h.step, history_succ, List.append_assoc]

lemma Queues.outs_le (h : Queues ins outs held) (n : ℕ) :
    history outs n <+: history ins n := by
  rw [h.ins_eq]
  exact List.prefix_append _ _

/-- **A queue that makes progress** within `d` cycles whenever it holds something, and never holds
more than `k`, has handed on after `k * d` cycles what had come in. -/
theorem Queues.le_outs (h : Queues ins outs held) {k d n₀ : ℕ}
    (hlen : ∀ n, (held n).length ≤ k)
    (hprog : ∀ n, n₀ ≤ n → held n ≠ [] → ∃ m, n ≤ m ∧ m < n + d ∧ outs m ≠ []) {n : ℕ}
    (hn : n₀ ≤ n) : history ins n <+: history outs (n + k * d) := by
  -- after `j` stretches of `d` cycles `j` more have left, or all have
  have hcount (j : ℕ) : min (history ins n).length ((history outs n).length + j) ≤
      (history outs (n + j * d)).length := by
    induction j with
    | zero =>
      rw [Nat.zero_mul, Nat.add_zero, Nat.add_zero]
      exact min_le_right _ _
    | succ j ih =>
      have hle : n + j * d ≤ n + (j + 1) * d := by
        rw [Nat.succ_mul]
        omega
      have hmono := (history_mono (f := outs) hle).length_le
      by_cases hall : (history ins n).length ≤ (history outs (n + j * d)).length
      · exact (min_le_left _ _).trans (hall.trans hmono)
      · have hheld : held (n + j * d) ≠ [] := by
          intro hnil
          have hins := (history_mono (f := ins) (Nat.le_add_right n (j * d))).length_le
          rw [h.ins_eq (n + j * d), hnil, List.append_nil] at hins
          exact hall hins
        obtain ⟨m, hm, hmd, hout⟩ := hprog _ (by omega) hheld
        have hlt := length_history_lt (n := n + (j + 1) * d) hm
          (by rw [Nat.succ_mul]; omega) hout
        omega
  have hk := hcount k
  have hins : (history ins n).length ≤ (history outs n).length + k := by
    rw [h.ins_eq, List.length_append]
    exact Nat.add_le_add_left (hlen n) _
  rw [min_eq_left hins] at hk
  exact List.prefix_of_prefix_length_le (history_mono (Nat.le_add_right _ _))
    (h.outs_le _) hk

end Queue

/-! ### Answers -/

section Answers

variable {σ ρ α : Type*} (act : σ → ρ → σ) (reply : σ → ρ → Option α)

/-- The answers to the requests of a list, served one after the other from the state `s`. -/
def replies (s : σ) : List ρ → List α
  | [] => []
  | q :: l => (reply s q).toList ++ replies (act s q) l

variable {act reply}

lemma replies_append (s : σ) (l l' : List ρ) : replies act reply s (l ++ l') =
    replies act reply s l ++ replies act reply (l.foldl act s) l' := by
  induction l generalizing s with
  | nil => rfl
  | cons q l ih =>
    rw [List.cons_append, replies, ih, replies, List.append_assoc]
    rfl

lemma replies_mono (s : σ) {l l' : List ρ} (h : l <+: l') :
    replies act reply s l <+: replies act reply s l' := by
  obtain ⟨r, rfl⟩ := h
  rw [replies_append]
  exact List.prefix_append _ _

/-- The answers that a server gives cycle by cycle, in the states `s`, are those to all it has
served. -/
theorem history_replies {s : ℕ → σ} {served : ℕ → List ρ}
    (h : ∀ n, s (n + 1) = (served n).foldl act (s n)) (n : ℕ) :
    s n = (history served n).foldl act (s 0) ∧
      history (fun m => replies act reply (s m) (served m)) n =
        replies act reply (s 0) (history served n) := by
  induction n with
  | zero => exact ⟨rfl, rfl⟩
  | succ n ih =>
    rw [h, history_succ, history_succ, List.foldl_append, replies_append, ← ih.1, ih.2]
    exact ⟨rfl, rfl⟩

end Answers

end VideoPipeline.Lib

import Mathlib.Data.List.Flatten
import Mathlib.Data.List.TakeDrop

/-!
Machines with two clocks: a slow clock, and between two of its edges a burst of edges of a fast
one. A point of a run is a cycle of the slow clock and a number of fast edges done in it; the
runs of all interleavings are the runs of all bursts. The trace of the fast edges, with the
state each of them found, is what counts and histories are read from.
-/

namespace VideoPipeline.Lib

/-- A run of two clocks: their steps, the state after reset, the inputs of the fast edges that
fall in each slow cycle, and the input of the slow edge that ends it. -/
structure TwoClock (σ ι κ : Type*) where
  fast : σ → ι → σ
  slow : σ → κ → σ
  init : σ
  burst : ℕ → List ι
  inp : ℕ → κ

namespace TwoClock

variable {σ ι κ : Type*} (r : TwoClock σ ι κ)

/-- The state at the start of slow cycle `t`. -/
def start : ℕ → σ
  | 0 => r.init
  | t + 1 => r.slow ((r.burst t).foldl r.fast (start t)) (r.inp t)

/-- The state in slow cycle `t` after `i` fast edges. -/
def point (t i : ℕ) : σ := ((r.burst t).take i).foldl r.fast (r.start t)

/-- The state that the slow edge at the end of cycle `t` finds. -/
def final (t : ℕ) : σ := r.point t (r.burst t).length

/-- The fast edges `l` from the state `s` on, with the state that each of them finds. -/
def edgesFrom (s : σ) : List ι → List (σ × ι)
  | [] => []
  | x :: l => (s, x) :: edgesFrom (r.fast s x) l

/-- The fast edges before a point. -/
def edges (t i : ℕ) : List (σ × ι) :=
  (List.range t).flatMap (fun u => r.edgesFrom (r.start u) (r.burst u)) ++
    r.edgesFrom (r.start t) ((r.burst t).take i)

variable {r} {t i : ℕ} {x : ι}

/-! ### From point to point -/

@[simp] lemma point_zero : r.point t 0 = r.start t := rfl

lemma final_eq : r.final t = (r.burst t).foldl r.fast (r.start t) := by
  rw [final, point, List.take_length]

lemma start_succ : r.start (t + 1) = r.slow (r.final t) (r.inp t) := by rw [final_eq]; rfl

lemma point_succ (h : (r.burst t)[i]? = some x) : r.point t (i + 1) = r.fast (r.point t i) x := by
  rw [point, point, List.take_add_one, h, List.foldl_append]
  rfl

lemma edgesFrom_append (s : σ) (l l' : List ι) :
    r.edgesFrom s (l ++ l') = r.edgesFrom s l ++ r.edgesFrom (l.foldl r.fast s) l' := by
  induction l generalizing s with
  | nil => rfl
  | cons x l ih =>
    rw [List.cons_append, edgesFrom, edgesFrom, ih, List.foldl_cons]
    rfl

lemma edges_zero : r.edges 0 0 = [] := rfl

lemma edges_succ (h : (r.burst t)[i]? = some x) :
    r.edges t (i + 1) = r.edges t i ++ [(r.point t i, x)] := by
  rw [edges, edges, List.take_add_one, h, edgesFrom_append, List.append_assoc]
  rfl

lemma edges_cycle : r.edges (t + 1) 0 = r.edges t (r.burst t).length := by
  rw [edges, edges, List.range_succ, List.flatMap_append, List.take_length]
  simp [edgesFrom]

lemma edges_sublist (t i : ℕ) : (r.edges t 0).Sublist (r.edges t i) := by
  rw [edges, List.take_zero]
  exact (List.append_nil _).symm ▸ List.sublist_append_left _ _

lemma edges_sublist_of_le {u j : ℕ} (h : t ≤ u) : (r.edges t 0).Sublist (r.edges u j) := by
  refine List.Sublist.trans ?_ (edges_sublist u j)
  induction h with
  | refl => exact List.Sublist.refl _
  | step _ ih =>
    rw [edges_cycle]
    exact ih.trans (edges_sublist _ _)

/-- The edges of a kind are counted one by one. -/
lemma countP_edges_succ (p : σ × ι → Bool) (h : (r.burst t)[i]? = some x) :
    (r.edges t (i + 1)).countP p =
      (r.edges t i).countP p + if p (r.point t i, x) then 1 else 0 := by
  rw [edges_succ h, List.countP_append, List.countP_singleton]

/-! ### Induction along a run -/

/-- **Invariants of a run of two clocks.** What holds at reset, is kept by every fast edge and
by every slow edge, holds at every point of the run. -/
theorem invariant {P : ℕ → ℕ → Prop} (h₀ : P 0 0)
    (hfast : ∀ t i x, (r.burst t)[i]? = some x → P t i → P t (i + 1))
    (hslow : ∀ t, P t (r.burst t).length → P (t + 1) 0) (t : ℕ) :
    ∀ i ≤ (r.burst t).length, P t i := by
  have hcycle (t : ℕ) (h : P t 0) (i : ℕ) (hi : i ≤ (r.burst t).length) : P t i := by
    induction i with
    | zero => exact h
    | succ i ih => exact hfast t i _ (List.getElem?_eq_getElem (by omega)) (ih (by omega))
  induction t with
  | zero => exact hcycle 0 h₀
  | succ t ih => exact hcycle _ (hslow t (ih _ (Nat.le_refl _)))

/-- A part of the state that the fast edges leave alone stands still in a slow cycle. -/
theorem point_const {τ : Type*} {f : σ → τ} (hf : ∀ s x, f (r.fast s x) = f s) (t i : ℕ) :
    f (r.point t i) = f (r.start t) := by
  unfold point
  generalize (r.burst t).take i = l
  generalize r.start t = s
  induction l generalizing s with
  | nil => rfl
  | cons x l ih => rw [List.foldl_cons, ih, hf]

/-! ### History variables -/

section History

variable {α : Type*}

variable (r) in
/-- The run beside a record `a` of what has happened, which every edge continues by what it
found. -/
def augment (f : σ → ι → α → α) (g : σ → κ → α → α) (a : α) : TwoClock (σ × α) ι κ where
  fast p x := (r.fast p.1 x, f p.1 x p.2)
  slow p y := (r.slow p.1 y, g p.1 y p.2)
  init := (r.init, a)
  burst := r.burst
  inp := r.inp

variable (r) in
/-- The record at a point of the run. -/
def history (f : σ → ι → α → α) (g : σ → κ → α → α) (a : α) (t i : ℕ) : α :=
  ((r.augment f g a).point t i).2

variable {f : σ → ι → α → α} {g : σ → κ → α → α} {a : α}

lemma fst_foldl_augment (l : List ι) (p : σ × α) :
    (l.foldl (r.augment f g a).fast p).1 = l.foldl r.fast p.1 := by
  induction l generalizing p with
  | nil => rfl
  | cons x l ih => rw [List.foldl_cons, ih, List.foldl_cons]; rfl

lemma fst_augment_start (t : ℕ) : ((r.augment f g a).start t).1 = r.start t := by
  induction t with
  | zero => rfl
  | succ t ih =>
    rw [start, start, ← ih]
    exact congrArg (r.slow · (r.inp t)) (fst_foldl_augment _ _)

/-- The record does not disturb the run. -/
theorem fst_augment_point (t i : ℕ) : ((r.augment f g a).point t i).1 = r.point t i := by
  rw [point, fst_foldl_augment, fst_augment_start]
  rfl

lemma history_succ (h : (r.burst t)[i]? = some x) :
    r.history f g a t (i + 1) = f (r.point t i) x (r.history f g a t i) := by
  have h' : ((r.augment f g a).burst t)[i]? = some x := h
  rw [history, point_succ h', ← fst_augment_point (f := f) (g := g) (a := a)]
  rfl

lemma history_cycle : r.history f g a (t + 1) 0 =
    g (r.final t) (r.inp t) (r.history f g a t (r.burst t).length) := by
  have hfin : ((r.augment f g a).final t).1 = r.final t := fst_augment_point _ _
  rw [history, point_zero, start_succ, ← hfin]
  rfl

end History

end TwoClock

end VideoPipeline.Lib

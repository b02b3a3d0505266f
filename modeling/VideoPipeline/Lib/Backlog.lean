import Mathlib.Data.List.Induction
import Mathlib.Data.Nat.Init

/-!
Arrivals and servings. The backlog is what is left when every serving takes one of what has
arrived and a serving that finds nothing is lost; it is bounded as long as in every stretch of
time up to now the arrivals are ahead of the servings by no more than the bound.
-/

namespace VideoPipeline.Lib

/-- What is left after the arrivals, `true`, and the servings, `false`, of a list. -/
def backlog (l : List Bool) : ℕ := l.foldl (fun b e => if e then b + 1 else b - 1) 0

@[simp] lemma backlog_nil : backlog [] = 0 := rfl

lemma backlog_concat (l : List Bool) (e : Bool) :
    backlog (l ++ [e]) = if e then backlog l + 1 else backlog l - 1 := by
  rw [backlog, List.foldl_append]
  rfl

/-- **What bounds a backlog**: the lead of the arrivals in every stretch that ends now. -/
theorem backlog_le_iff {l : List Bool} {n : ℕ} :
    backlog l ≤ n ↔ ∀ m, m <:+ l → m.count true ≤ m.count false + n := by
  induction l using List.reverseRecOn generalizing n with
  | nil => simp
  | append_singleton l e ih =>
    rw [backlog_concat]
    cases e with
    | true =>
      cases n with
      | zero =>
        -- the arrival alone is a stretch
        refine ⟨fun h => absurd h (by simp), fun h => ?_⟩
        have := h [true] (List.suffix_append _ _)
        simp at this
      | succ n =>
        rw [if_pos rfl, Nat.add_le_add_iff_right, ih]
        constructor
        · intro h m hm
          obtain rfl | ⟨m', rfl, hm'⟩ := List.suffix_concat_iff.1 hm
          · simp
          · have := h m' hm'
            simp
            omega
        · intro h m hm
          have := h (m ++ [true]) (List.suffix_concat_iff.2 (Or.inr ⟨m, rfl, hm⟩))
          simp at this
          omega
    | false =>
      rw [if_neg Bool.false_ne_true, Nat.sub_le_iff_le_add, ih]
      constructor
      · intro h m hm
        obtain rfl | ⟨m', rfl, hm'⟩ := List.suffix_concat_iff.1 hm
        · simp
        · have := h m' hm'
          simp
          omega
      · intro h m hm
        have := h (m ++ [false]) (List.suffix_concat_iff.2 (Or.inr ⟨m, rfl, hm⟩))
        simp at this
        omega

end VideoPipeline.Lib

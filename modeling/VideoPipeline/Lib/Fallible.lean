import Mathlib.Tactic.SplitIfs

/-!
Programs that change a state and may fail. A triple says where such a program ends: in one
predicate with the value it returns, or in another with its error; what follows an error is not
run any more.
-/

namespace VideoPipeline.Lib

universe u

/-- From a state in `P` the program returns a value and a state in `Q`, or fails in one in `E`. -/
def Triple {ε σ α : Type u} (P : σ → Prop) (x : EStateM ε σ α) (Q : α → σ → Prop)
    (E : ε → σ → Prop) : Prop :=
  ∀ s, P s → match x s with
    | .ok a s' => Q a s'
    | .error e s' => E e s'

namespace Triple

variable {ε σ α β : Type u} {P : σ → Prop} {x : EStateM ε σ α} {Q : α → σ → Prop}
  {E : ε → σ → Prop}

lemma pure {a : α} (h : ∀ s, P s → Q a s) : Triple P (Pure.pure a : EStateM ε σ α) Q E := h

/-- One after the other. -/
theorem bind {f : α → EStateM ε σ β} {R : β → σ → Prop} (hx : Triple P x Q E)
    (hf : ∀ a, Triple (Q a) (f a) R E) : Triple P (x >>= f) R E := by
  intro s hs
  have h := hx s hs
  change match EStateM.bind x f s with
    | .ok b s' => R b s'
    | .error e s' => E e s'
  unfold EStateM.bind
  cases hr : x s with
  | ok a s' =>
    rw [hr] at h
    exact hf a s' h
  | error e s' =>
    rw [hr] at h
    exact h

lemma mono {P' : σ → Prop} {Q' : α → σ → Prop} {E' : ε → σ → Prop} (h : Triple P x Q E)
    (hP : ∀ s, P' s → P s) (hQ : ∀ a s, Q a s → Q' a s) (hE : ∀ e s, E e s → E' e s) :
    Triple P' x Q' E' := by
  intro s hs
  have h := h s (hP s hs)
  cases hr : x s with
  | ok a s' =>
    rw [hr] at h
    exact hQ a s' h
  | error e s' =>
    rw [hr] at h
    exact hE e s' h

lemma mono_error {E' : ε → σ → Prop} (h : Triple P x Q E) (hE : ∀ e s, E e s → E' e s) :
    Triple P x Q E' :=
  h.mono (fun _ hs => hs) (fun _ _ hs => hs) hE

/-- What holds of some `i` before. -/
lemma exists_elim {ι : Sort*} {R : ι → σ → Prop} (h : ∀ i, Triple (R i) x Q E) :
    Triple (fun s => ∃ i, R i s) x Q E := fun s ⟨i, hs⟩ => h i s hs

/-- What holds before whatever the state is. -/
lemma and_elim {p : Prop} (h : p → Triple P x Q E) : Triple (fun s => p ∧ P s) x Q E :=
  fun s ⟨hp, hs⟩ => h hp s hs

lemma ite {b : Prop} [Decidable b] {y : EStateM ε σ α} (ht : b → Triple P x Q E)
    (hf : ¬ b → Triple P y Q E) : Triple P (if b then x else y) Q E := by
  split_ifs with h
  · exact ht h
  · exact hf h

/-- What every step keeps, all of them keep. -/
theorem forM {f : α → EStateM ε σ PUnit} (h : ∀ a, Triple P (f a) (fun _ => P) E) (l : List α) :
    Triple P (l.forM f) (fun _ => P) E := by
  induction l with
  | nil => exact pure fun _ hs => hs
  | cons a l ih => exact (h a).bind fun _ => ih

lemma ok {s s' : σ} {a : α} (h : Triple P x Q E) (hs : P s) (hr : x s = .ok a s') : Q a s' := by
  have h := h s hs
  rwa [hr] at h

end Triple

end VideoPipeline.Lib

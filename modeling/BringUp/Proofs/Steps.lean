import BringUp.Proofs.Sequences

/-!
Steps, taken one after the other.

* `lastOf key k steps`: the last of the steps with the key `k`.
* `foldl_last`, `foldl_or`, `foldl_and`: what the steps make of a state, from
  what each of them makes of it. A view is set by the steps with its key, or a
  property is brought about or ended.

Main statement: a board sequence that performs steps leads to the state after
all of them (`Ensures.seqSteps`).
-/

namespace BringUp

open Board Hardware

section

variable {σ ι κ α : Type} {effect : ι → σ → σ} {steps : List ι} {s : σ}

/-! ## Steps with a key -/

section

variable [DecidableEq κ] {key : ι → κ} {k : κ}

/-- The last of the steps with the key `k`. -/
def lastOf (key : ι → κ) (k : κ) (steps : List ι) : Option ι :=
  (steps.filter fun i => key i = k).getLast?

/-- A step with the key counts unless there is a later one. -/
theorem lastOf_cons_self {i : ι} (h : key i = k) :
    lastOf key k (i :: steps) = some ((lastOf key k steps).getD i) := by
  simp only [lastOf, List.filter_cons, h, decide_true, if_true, List.getLast?_cons]

/-- A step with another key does not count. -/
theorem lastOf_cons_of_ne {i : ι} (h : key i ≠ k) :
    lastOf key k (i :: steps) = lastOf key k steps := by
  simp only [lastOf, List.filter_cons, h, decide_false, Bool.false_eq_true, if_false]

/-- Neighbours with different keys may trade places. -/
theorem filter_swap {a b : ι} (h : key a ≠ key b) (before after : List ι) :
    (before ++ a :: b :: after).filter (fun i => decide (key i = k)) =
      (before ++ b :: a :: after).filter fun i => decide (key i = k) := by
  simp only [List.filter_append, List.filter_cons]
  split <;> split <;> simp_all

theorem lastOf_swap {a b : ι} (h : key a ≠ key b) (before after : List ι) :
    lastOf key k (before ++ a :: b :: after) = lastOf key k (before ++ b :: a :: after) :=
  congrArg List.getLast? (filter_swap h before after)

end

/-! ## What the steps make of a state -/

/-- Where the steps with a key set the view and the others leave it alone, the
last one with the key has the last word. -/
theorem foldl_last [DecidableEq κ] (key : ι → κ) {k : κ} {value : ι → α} (view : σ → α)
    (own : ∀ i ∈ steps, key i = k → ∀ s, view (effect i s) = value i)
    (other : ∀ i ∈ steps, key i ≠ k → ∀ s, view (effect i s) = view s) :
    view (steps.foldl (fun t i => effect i t) s) =
      ((lastOf key k steps).map value).getD (view s) := by
  induction steps generalizing s with
  | nil => rfl
  | cons i steps ih =>
      rw [List.forall_mem_cons] at own other
      rw [List.foldl_cons, ih own.2 other.2]
      by_cases hk : key i = k
      · rw [own.1 hk, lastOf_cons_self hk]
        cases lastOf key k steps <;> rfl
      · rw [other.1 hk, lastOf_cons_of_ne hk]

/-- What some steps bring about and none ends, holds if it did or if one of
them is taken. -/
theorem foldl_or (P : σ → Prop) {brings : ι → Prop}
    (h : ∀ i ∈ steps, ∀ s, P (effect i s) ↔ P s ∨ brings i) :
    P (steps.foldl (fun t i => effect i t) s) ↔ P s ∨ ∃ i ∈ steps, brings i := by
  induction steps generalizing s with
  | nil => simp
  | cons i steps ih =>
      rw [List.forall_mem_cons] at h
      rw [List.foldl_cons, ih h.2, h.1]
      simp [or_assoc]

/-- What some steps end and none brings about, holds if it did and none of them
is taken. -/
theorem foldl_and (P : σ → Prop) {spares : ι → Prop}
    (h : ∀ i ∈ steps, ∀ s, P (effect i s) ↔ P s ∧ spares i) :
    P (steps.foldl (fun t i => effect i t) s) ↔ P s ∧ ∀ i ∈ steps, spares i := by
  induction steps generalizing s with
  | nil => simp
  | cons i steps ih =>
      rw [List.forall_mem_cons] at h
      rw [List.foldl_cons, ih h.2, h.1]
      simp [and_assoc]

/-! ## Steps of a board sequence -/

/-- A run that is known to lead to `t` comes to a result and leaves `t`. -/
theorem Ensures.run_eq {d : Device σ} {patience : Nat} {G : Event σ → Prop} {x : Driver Unit}
    {t : σ} (h : Ensures d patience G x s (fun _ u => u = t)) :
    ∃ log, x.run (d.handler patience) s = ⟨.ok (), t, log⟩ := by
  obtain ⟨_, u, log, hrun, rfl⟩ := h.returns
  exact ⟨log, hrun⟩

/-- The steps are performed one after the other, each from where the last one
ended. -/
theorem Ensures.seqSteps {d : Device σ} {patience : Nat} {G : Event σ → Prop}
    {ceiling : Log.Ceiling} {perform : ι → Sequence Unit} {I : σ → Prop} (hs : I s)
    (hkeep : ∀ i ∈ steps, ∀ s, I s → I (effect i s))
    (hstep : ∀ i ∈ steps, ∀ s, I s →
      Ensures d patience G (onRegisters ceiling (perform i)) s (fun _ t => t = effect i s)) :
    Ensures d patience G (onRegisters ceiling (forM steps perform)) s
      (fun _ t => t = steps.foldl (fun t i => effect i t) s) := by
  induction steps generalizing s with
  | nil => exact done rfl
  | cons i steps ih =>
      rw [List.forall_mem_cons] at hkeep hstep
      rw [List.forM_cons]
      refine seqBind (hstep.1 s hs) ?_
      intro _ t ht
      subst ht
      exact ih (hkeep.1 s hs) hkeep.2 hstep.2

end

end BringUp

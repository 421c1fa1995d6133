import Mathlib.Algebra.Order.Ring.Nat
import Mathlib.Data.Set.Finite.Basic
import Mathlib.Order.WellFounded

/-!
# Maximal elements of a growing set

`IsHead below S a` says that `a` belongs to `S` and that no member of `S` lies
above it. A head index is maintained by dropping what a new element lies above
and adding the element; `isHead_grow` is the reason this is exact, provided the
new element lies below nothing. In a finite set every member lies below a head.
-/

namespace MyOwnMesh.Foundation

section Heads

variable {α : Type} {below below' : α → α → Prop} {S : α → Prop} {a c : α}

/-- A member of `S` that lies below no member of `S`. -/
def IsHead (below : α → α → Prop) (S : α → Prop) (a : α) : Prop :=
  S a ∧ ∀ b, S b → ¬ below a b

/-- The heads after a new top element: the element, and the old heads it does
not lie above. -/
theorem isHead_grow (hOld : ∀ a b, S a → S b → (below' a b ↔ below a b)) (hNew : ¬ S c)
    (hIrrefl : ¬ below' c c) (hTop : ∀ b, S b → ¬ below' c b) :
    IsHead below' (fun x => x = c ∨ S x) a ↔ a = c ∨ (IsHead below S a ∧ ¬ below' a c) := by
  constructor
  · rintro ⟨rfl | hS, hMax⟩
    · exact .inl rfl
    · refine .inr ⟨⟨hS, fun b hb hab => ?_⟩, hMax c (.inl rfl)⟩
      exact hMax b (.inr hb) ((hOld a b hS hb).mpr hab)
  · rintro (rfl | ⟨⟨hS, hMax⟩, hac⟩)
    · refine ⟨.inl rfl, ?_⟩
      rintro b (rfl | hb)
      · exact hIrrefl
      · exact hTop b hb
    · refine ⟨.inr hS, ?_⟩
      rintro b (rfl | hb)
      · exact hac
      · exact fun hab => hMax b hb ((hOld a b hS hb).mp hab)

/-- Heads only depend on the members and on the order between them. -/
theorem isHead_congr {T : α → Prop} (hMem : ∀ x, S x ↔ T x)
    (hOrder : ∀ a b, S a → S b → (below a b ↔ below' a b)) :
    IsHead below S a ↔ IsHead below' T a := by
  constructor
  · rintro ⟨hS, hMax⟩
    refine ⟨(hMem a).mp hS, fun b hb hab => ?_⟩
    exact hMax b ((hMem b).mpr hb) ((hOrder a b hS ((hMem b).mpr hb)).mpr hab)
  · rintro ⟨hT, hMax⟩
    refine ⟨(hMem a).mpr hT, fun b hb hab => ?_⟩
    exact hMax b ((hMem b).mp hb) ((hOrder a b ((hMem a).mpr hT) hb).mp hab)

/-- In a finite set every member is a head or lies below one. -/
theorem exists_isHead_above (hFinite : {x | S x}.Finite)
    (hTrans : ∀ a b c, below a b → below b c → below a c) (hIrrefl : ∀ a, ¬ below a a)
    (ha : S a) : ∃ h, IsHead below S h ∧ (h = a ∨ below a h) := by
  classical
  have : Finite {x // S x} := hFinite
  have hWf : WellFounded fun x y : {x // S x} => below y.1 x.1 := by
    have : IsTrans {x // S x} fun x y => below y.1 x.1 :=
      ⟨fun x y z hxy hyz => hTrans _ _ _ hyz hxy⟩
    have : Std.Irrefl fun x y : {x // S x} => below y.1 x.1 := ⟨fun x => hIrrefl x.1⟩
    exact Finite.wellFounded_of_trans_of_irrefl _
  obtain ⟨⟨h, hS⟩, hAbove, hMax⟩ :=
    hWf.has_min {x : {x // S x} | x.1 = a ∨ below a x.1} ⟨⟨a, ha⟩, .inl rfl⟩
  refine ⟨h, ⟨hS, fun b hb hhb => ?_⟩, hAbove⟩
  refine hMax ⟨b, hb⟩ (.inr ?_) hhb
  rcases hAbove with hEq | hBelow
  · exact (show h = a from hEq) ▸ hhb
  · exact hTrans a h b hBelow hhb

end Heads

end MyOwnMesh.Foundation

import MyOwnMesh.Foundation.Collections

/-!
# Work-list traversal

The loop `while let Some(node) = pending.pop()` with a `seen` set visits the
nodes reachable from its seeds, each once. `visitOrder` is the list of nodes in
the order the loop visits them: an early return on the first node with some
property is a search in that list, an accumulation over the loop is a fold over
it.

The loop is bounded by a fuel argument. `traversalFuel` is exact: every
iteration pops one entry, and a node pushes its successors once, so the seeds
and the out-degrees of the nodes that have successors pay for all iterations.
`mem_visitOrder` says that with this fuel the visited nodes are exactly the
reachable ones.
-/

namespace MyOwnMesh.Foundation

section Traversal

variable {α : Type} [Ord α] [Std.TransOrd α]

/-- The nodes visited by the pop loop, in order. The head of `pending` is the
top of the stack; successors are pushed in list order, so the last is popped
first. -/
def visitOrder (succ : α → List α) : Nat → List α → OrdSet α → List α
  | 0, _, _ => []
  | _ + 1, [], _ => []
  | fuel + 1, node :: pending, seen =>
    if seen.contains node then visitOrder succ fuel pending seen
    else node :: visitOrder succ fuel ((succ node).reverse ++ pending) (seen.insert node)

/-- Iterations a traversal needs: its seeds and every edge once. -/
def traversalFuel (succ : α → List α) (nodes seeds : List α) : Nat :=
  seeds.length + (nodes.map fun node => (succ node).length).sum

/-- The traversal from a vector of seeds: the last seed is popped first. -/
def traverse (succ : α → List α) (nodes seeds : List α) : List α :=
  visitOrder succ (traversalFuel succ nodes seeds) seeds.reverse ∅

def Edge (succ : α → List α) (a b : α) : Prop := b ∈ succ a

def ReachableFrom (succ : α → List α) (seeds : List α) (b : α) : Prop :=
  ∃ a ∈ seeds, Relation.ReflTransGen (Edge succ) a b

variable {succ : α → List α}

private theorem visitOrder_sound (fuel : Nat) :
    ∀ (pending : List α) (seen : OrdSet α) (b : α),
      b ∈ visitOrder succ fuel pending seen → ReachableFrom succ pending b := by
  induction fuel with
  | zero =>
    intro pending seen b h
    simp [visitOrder] at h
  | succ fuel ih =>
    intro pending seen b h
    cases pending with
    | nil => simp [visitOrder] at h
    | cons node pending =>
      simp only [visitOrder] at h
      split at h
      · obtain ⟨a, ha, hab⟩ := ih pending seen b h
        exact ⟨a, List.mem_cons_of_mem _ ha, hab⟩
      · rcases List.mem_cons.mp h with rfl | h
        · exact ⟨b, List.mem_cons_self, .refl⟩
        · obtain ⟨a, ha, hab⟩ := ih _ _ b h
          rcases List.mem_append.mp ha with ha | ha
          · exact ⟨node, List.mem_cons_self,
              .head (List.mem_reverse.mp ha) hab⟩
          · exact ⟨a, List.mem_cons_of_mem _ ha, hab⟩

variable [Std.LawfulEqOrd α]

/-- What the loop still owes: the stack, and the edges of unseen nodes. -/
private def debt (succ : α → List α) (nodes pending : List α) (seen : OrdSet α) : Nat :=
  pending.length +
    ((nodes.filter fun node => !seen.contains node).map fun node => (succ node).length).sum

private theorem sum_filter_insert (succ : α → List α) (nodes : List α) (seen : OrdSet α) (node : α)
    (hNodup : nodes.Nodup) (hMem : node ∈ nodes) (hSeen : seen.contains node = false) :
    ((nodes.filter fun x => !(seen.insert node).contains x).map fun x => (succ x).length).sum +
        (succ node).length =
      ((nodes.filter fun x => !seen.contains x).map fun x => (succ x).length).sum := by
  induction nodes with
  | nil => simp at hMem
  | cons x rest ih =>
    obtain ⟨hx, hRest⟩ := List.nodup_cons.mp hNodup
    rcases List.mem_cons.mp hMem with rfl | hMem
    · have hSame : ∀ y ∈ rest,
          (!(seen.insert node).contains y) = !seen.contains y := by
        intro y hy
        have hne : node ≠ y := fun h => hx (h ▸ hy)
        rw [Bool.eq_iff_iff]
        simp only [Bool.not_eq_true', ← Bool.not_eq_true, Std.ExtTreeSet.contains_iff_mem,
          mem_insert_iff]
        tauto
      have hNode : (seen.insert node).contains node = true :=
        Std.ExtTreeSet.contains_iff_mem.mpr (mem_insert_iff.mpr (.inl rfl))
      simp only [List.filter_cons, hNode, hSeen, Bool.not_true, Bool.not_false,
        Bool.false_eq_true, if_true, if_false, List.map_cons, List.sum_cons,
        List.filter_congr hSame]
      omega
    · have hne : x ≠ node := fun h => hx (h ▸ hMem)
      have hx' : (seen.insert node).contains x = seen.contains x := by
        rw [Bool.eq_iff_iff]
        simp only [Std.ExtTreeSet.contains_iff_mem, mem_insert_iff]
        exact ⟨fun h => h.resolve_left (Ne.symm hne), .inr⟩
      have ih := ih hRest hMem
      by_cases hc : seen.contains x = true
      · simpa only [List.filter_cons, hx', hc, Bool.not_true, Bool.false_eq_true, if_false]
          using ih
      · simp only [List.filter_cons, hx', hc, Bool.not_false, if_true, List.map_cons,
          List.sum_cons]
        omega

private theorem visitOrder_closed {nodes : List α} (hNodup : nodes.Nodup)
    (hNodes : ∀ x, succ x ≠ [] → x ∈ nodes) (fuel : Nat) :
    ∀ (pending : List α) (seen : OrdSet α), debt succ nodes pending seen ≤ fuel →
      (∀ x ∈ seen, ∀ y ∈ succ x, y ∈ seen ∨ y ∈ pending) →
      (∀ x ∈ pending, x ∈ seen ∨ x ∈ visitOrder succ fuel pending seen) ∧
      (∀ x, x ∈ seen ∨ x ∈ visitOrder succ fuel pending seen →
        ∀ y ∈ succ x, y ∈ seen ∨ y ∈ visitOrder succ fuel pending seen) := by
  induction fuel with
  | zero =>
    intro pending seen hDebt hInv
    have hNil : pending = [] := List.eq_nil_of_length_eq_zero (by unfold debt at hDebt; omega)
    subst hNil
    simp only [visitOrder, List.not_mem_nil, or_false] at hInv ⊢
    exact ⟨by simp, hInv⟩
  | succ fuel ih =>
    intro pending seen hDebt hInv
    cases pending with
    | nil =>
      simp only [visitOrder, List.not_mem_nil, or_false] at hInv ⊢
      exact ⟨by simp, hInv⟩
    | cons node pending =>
      simp only [visitOrder]
      split
      · rename_i hSeen
        have hMem : node ∈ seen := Std.ExtTreeSet.contains_iff_mem.mp hSeen
        have hDebt' : debt succ nodes pending seen ≤ fuel := by
          simp only [debt, List.length_cons] at hDebt ⊢
          omega
        have hInv' : ∀ x ∈ seen, ∀ y ∈ succ x, y ∈ seen ∨ y ∈ pending := by
          intro x hx y hy
          rcases hInv x hx y hy with h | h
          · exact .inl h
          · rcases List.mem_cons.mp h with rfl | h
            · exact .inl hMem
            · exact .inr h
        obtain ⟨hPending, hClosed⟩ := ih pending seen hDebt' hInv'
        refine ⟨fun x hx => ?_, hClosed⟩
        rcases List.mem_cons.mp hx with rfl | hx
        · exact .inl hMem
        · exact hPending x hx
      · rename_i hSeen
        have hSeen : seen.contains node = false := Bool.eq_false_iff.mpr hSeen
        have hDebt' :
            debt succ nodes ((succ node).reverse ++ pending) (seen.insert node) ≤ fuel := by
          simp only [debt, List.length_cons, List.length_append, List.length_reverse]
            at hDebt ⊢
          by_cases hMem : node ∈ nodes
          · have := sum_filter_insert succ nodes seen node hNodup hMem hSeen
            omega
          · have hNil : succ node = [] := by
              by_contra h
              exact hMem (hNodes node h)
            have hSame : ∀ y ∈ nodes,
                (!(seen.insert node).contains y) = !seen.contains y := by
              intro y hy
              have hne : node ≠ y := fun h => hMem (h ▸ hy)
              rw [Bool.eq_iff_iff]
              simp only [Bool.not_eq_true', ← Bool.not_eq_true,
                Std.ExtTreeSet.contains_iff_mem, mem_insert_iff]
              tauto
            rw [List.filter_congr hSame, hNil]
            simp only [List.length_nil]
            omega
        have hInv' : ∀ x ∈ seen.insert node, ∀ y ∈ succ x,
            y ∈ seen.insert node ∨ y ∈ (succ node).reverse ++ pending := by
          intro x hx y hy
          rcases mem_insert_iff.mp hx with rfl | hx
          · exact .inr (List.mem_append.mpr (.inl (List.mem_reverse.mpr hy)))
          · rcases hInv x hx y hy with h | h
            · exact .inl (mem_insert_iff.mpr (.inr h))
            · rcases List.mem_cons.mp h with rfl | h
              · exact .inl (mem_insert_iff.mpr (.inl rfl))
              · exact .inr (List.mem_append.mpr (.inr h))
        obtain ⟨hPending, hClosed⟩ := ih _ _ hDebt' hInv'
        have hMove : ∀ x, x ∈ seen.insert node ∨
            x ∈ visitOrder succ fuel ((succ node).reverse ++ pending) (seen.insert node) ↔
            x ∈ seen ∨ x ∈ node ::
              visitOrder succ fuel ((succ node).reverse ++ pending) (seen.insert node) := by
          intro x
          rw [mem_insert_iff, List.mem_cons]
          constructor <;> intro h <;> tauto
        refine ⟨fun x hx => ?_, fun x hx y hy =>
          (hMove y).mp (hClosed x ((hMove x).mpr hx) y hy)⟩
        rcases List.mem_cons.mp hx with rfl | hx
        · exact .inr List.mem_cons_self
        · exact (hMove x).mp (hPending x (List.mem_append.mpr (.inr hx)))

/-- No node is visited twice, and none that was seen before. -/
private theorem visitOrder_nodup (fuel : Nat) : ∀ (pending : List α) (seen : OrdSet α),
    (visitOrder succ fuel pending seen).Nodup ∧
      ∀ b ∈ visitOrder succ fuel pending seen, b ∉ seen := by
  induction fuel with
  | zero => exact fun _ _ => ⟨.nil, fun _ h => (List.not_mem_nil h).elim⟩
  | succ fuel ih =>
    intro pending seen
    cases pending with
    | nil => exact ⟨.nil, fun _ h => (List.not_mem_nil h).elim⟩
    | cons node pending =>
      simp only [visitOrder]
      split
      · exact ih pending seen
      · next hNew =>
        obtain ⟨hNodup, hUnseen⟩ := ih ((succ node).reverse ++ pending) (seen.insert node)
        have hFresh {b : α} (hb : b ∈ visitOrder succ fuel ((succ node).reverse ++ pending)
            (seen.insert node)) : node ≠ b ∧ b ∉ seen := by
          have hNot := hUnseen b hb
          rwa [mem_insert_iff, not_or] at hNot
        refine ⟨List.nodup_cons.mpr ⟨fun hb => (hFresh hb).1 rfl, hNodup⟩, fun b hb => ?_⟩
        rcases List.mem_cons.mp hb with rfl | hb
        · rwa [Std.ExtTreeSet.contains_iff_mem] at hNew
        · exact (hFresh hb).2

theorem traverse_nodup {nodes seeds : List α} : (traverse succ nodes seeds).Nodup :=
  (visitOrder_nodup _ _ _).1

/-- With its exact fuel a traversal visits the reachable nodes and no others. -/
theorem mem_traverse {nodes seeds : List α} (hNodup : nodes.Nodup)
    (hNodes : ∀ x, succ x ≠ [] → x ∈ nodes) {b : α} :
    b ∈ traverse succ nodes seeds ↔ ReachableFrom succ seeds b := by
  constructor
  · intro h
    obtain ⟨a, ha, hab⟩ := visitOrder_sound _ _ _ b h
    exact ⟨a, List.mem_reverse.mp ha, hab⟩
  · rintro ⟨a, ha, hab⟩
    have hEmpty : ∀ x : α, x ∉ (∅ : OrdSet α) := fun x => Std.ExtTreeSet.not_mem_empty
    obtain ⟨hPending, hClosed⟩ := visitOrder_closed hNodup hNodes
      (traversalFuel succ nodes seeds) seeds.reverse ∅
      (by simp [debt, traversalFuel]) (fun x hx => absurd hx (hEmpty x))
    have hVisited : a ∈ traverse succ nodes seeds :=
      (hPending a (List.mem_reverse.mpr ha)).resolve_left (hEmpty a)
    induction hab with
    | refl => exact hVisited
    | tail _ hEdge ih => exact (hClosed _ (.inr ih) _ hEdge).resolve_left (hEmpty _)

end Traversal

/-- Two edge relations that agree into a closed set have the same paths into it. -/
theorem transGen_iff_of_closed {α : Type} {r s : α → α → Prop} {P : α → Prop}
    (hAgree : ∀ {a b}, P b → (r a b ↔ s a b)) (hClosed : ∀ {a b}, s a b → P b → P a) {a b : α}
    (hb : P b) : Relation.TransGen r a b ↔ Relation.TransGen s a b := by
  constructor
  · intro h
    induction h with
    | single hEdge => exact .single ((hAgree hb).mp hEdge)
    | tail _ hEdge ih =>
      have hEdge' := (hAgree hb).mp hEdge
      exact (ih (hClosed hEdge' hb)).tail hEdge'
  · intro h
    induction h with
    | single hEdge => exact .single ((hAgree hb).mpr hEdge)
    | tail _ hEdge ih => exact (ih (hClosed hEdge hb)).tail ((hAgree hb).mpr hEdge)

end MyOwnMesh.Foundation

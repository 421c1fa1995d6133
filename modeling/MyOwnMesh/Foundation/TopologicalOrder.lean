import MyOwnMesh.Foundation.Collections
import Mathlib.Data.Set.Finite.Basic
import Mathlib.Order.WellFounded

/-!
# Kahn's algorithm

Nodes are taken in ascending order as soon as everything they depend on has been
taken. The loop keeps, for every node, how many of its dependencies are still
missing; taking a node releases its dependents. On an acyclic dependency map the
result lists every node once, each after all its dependencies.
-/

namespace MyOwnMesh.Foundation

section Kahn

variable {α : Type} [Ord α] [Std.TransOrd α]

/-- Count down the dependents and release those at zero. -/
def releaseDependents (dependents : List α) (state : OrdSet α × OrdMap α Nat) :
    OrdSet α × OrdMap α Nat :=
  dependents.foldl (fun (ready, indegree) dependent =>
    let count := indegree.getD dependent 0 - 1
    (if count = 0 then ready.insert dependent else ready, indegree.insert dependent count)) state

/-- Take the least ready node, then release its dependents. -/
def kahnLoop (dependents : OrdMap α (OrdSet α)) : Nat → OrdSet α → OrdMap α Nat → List α
  | 0, _, _ => []
  | fuel + 1, ready, indegree =>
    match ready.toList.head? with
    | none => []
    | some id =>
      let (ready, indegree) :=
        releaseDependents (dependents.getD id ∅).toList (ready.erase id, indegree)
      id :: kahnLoop dependents fuel ready indegree

/-- A list whose nodes are new, and come after their dependencies. -/
inductive Topological (deps : α → List α) : (α → Prop) → List α → Prop
  | nil {done : α → Prop} : Topological deps done []
  | cons {done : α → Prop} {node : α} {rest : List α} : (∀ d ∈ deps node, done d) → ¬ done node →
      Topological deps (fun x => x = node ∨ done x) rest → Topological deps done (node :: rest)

omit [Ord α] [Std.TransOrd α] in
/-- Nothing taken before is listed. -/
theorem Topological.not_done {deps : α → List α} {done : α → Prop} {list : List α}
    (h : Topological deps done list) : ∀ x ∈ list, ¬ done x := by
  induction h with
  | nil => simp
  | cons _ hNode _ ih =>
    intro x hx hDone
    rcases List.mem_cons.mp hx with rfl | hx
    · exact hNode hDone
    · exact ih x hx (.inr hDone)

omit [Ord α] [Std.TransOrd α] in
theorem Topological.nodup {deps : α → List α} {done : α → Prop} {list : List α}
    (h : Topological deps done list) : list.Nodup := by
  induction h with
  | nil => exact List.nodup_nil
  | cons _ _ hRest ih =>
    exact List.nodup_cons.mpr ⟨fun hx => hRest.not_done _ hx (.inl rfl), ih⟩

variable [Std.LawfulEqOrd α]

private theorem releaseDependents_spec (dependents : List α) (hNodup : dependents.Nodup) :
    ∀ (ready : OrdSet α) (indegree : OrdMap α Nat),
      let next := releaseDependents dependents (ready, indegree)
      (∀ x, x ∈ next.1 ↔ x ∈ ready ∨ x ∈ dependents ∧ indegree.getD x 0 - 1 = 0) ∧
      (∀ x, x ∈ dependents → next.2.getD x 0 = indegree.getD x 0 - 1) ∧
      (∀ x, x ∉ dependents → next.2.getD x 0 = indegree.getD x 0) := by
  classical
  induction dependents with
  | nil => intro ready indegree; simp [releaseDependents]
  | cons dependent dependents ih =>
    intro ready indegree
    obtain ⟨hNot, hRest⟩ := List.nodup_cons.mp hNodup
    have hOther : ∀ x, x ≠ dependent → ∀ count : Nat,
        (indegree.insert dependent count).getD x 0 = indegree.getD x 0 := by
      intro x hx count
      rw [getD_eq_getElem?_getD, getElem?_insert_eq, if_neg (Ne.symm hx),
        ← getD_eq_getElem?_getD]
    obtain ⟨hReady, hIn, hOut⟩ := ih hRest
      (if indegree.getD dependent 0 - 1 = 0 then ready.insert dependent else ready)
      (indegree.insert dependent (indegree.getD dependent 0 - 1))
    refine ⟨fun x => ?_, fun x hx => ?_, fun x hx => ?_⟩
    · refine (hReady x).trans ?_
      by_cases hx : x = dependent
      · subst hx
        by_cases hZero : indegree.getD x 0 - 1 = 0
        · simp [hZero]
        · simp [hZero, hNot]
      · rw [hOther x hx, List.mem_cons, or_iff_right hx]
        by_cases hZero : indegree.getD dependent 0 - 1 = 0
        · rw [if_pos hZero, mem_insert_iff, or_iff_right (Ne.symm hx)]
        · rw [if_neg hZero]
    · rcases List.mem_cons.mp hx with rfl | hx
      · refine (hOut x hNot).trans ?_
        rw [getD_eq_getElem?_getD, getElem?_insert_eq, if_pos rfl, Option.getD_some]
      · have hNe : x ≠ dependent := fun hEq => hNot (hEq ▸ hx)
        exact (hIn x hx).trans (by rw [hOther x hNe])
    · rw [List.mem_cons, not_or] at hx
      exact (hOut x hx.2).trans (hOther x hx.1 _)

variable {nodes : List α} {deps : α → List α} {dependents : OrdMap α (OrdSet α)}

/-- The loop invariant: what is done is closed under dependencies, the counters
count what is missing, and the ready nodes miss nothing. -/
structure KahnInvariant (nodes : List α) (deps : α → List α) (done : List α)
    (ready : OrdSet α) (indegree : OrdMap α Nat) : Prop where
  closed : ∀ x ∈ done, ∀ d ∈ deps x, d ∈ done
  missing : ∀ x ∈ nodes, x ∉ done →
    ∃ pending : List α, pending.Nodup ∧ (∀ d, d ∈ pending ↔ d ∈ deps x ∧ d ∉ done) ∧
      indegree.getD x 0 = pending.length
  ready_iff : ∀ x, x ∈ ready ↔ x ∈ nodes ∧ x ∉ done ∧ ∀ d ∈ deps x, d ∈ done

variable {ready : OrdSet α} {indegree : OrdMap α Nat}

private theorem KahnInvariant.step {done : List α}
    (h : KahnInvariant nodes deps done ready indegree)
    (hDependents : IndexOf dependents fun d x => x ∈ nodes ∧ d ∈ deps x)
    (hAcyclic : ∀ x, x ∉ deps x) {id : α} (hId : id ∈ ready) :
    KahnInvariant nodes deps (id :: done)
      (releaseDependents (dependents.getD id ∅).toList (ready.erase id, indegree)).1
      (releaseDependents (dependents.getD id ∅).toList (ready.erase id, indegree)).2 := by
  classical
  obtain ⟨hNode, hNew, hDeps⟩ := (h.ready_iff id).mp hId
  obtain ⟨hReady, hIn, hOut⟩ := releaseDependents_spec (dependents.getD id ∅).toList
    (toList_nodup _) (ready.erase id) indegree
  have hMem : ∀ x, x ∈ (dependents.getD id ∅).toList ↔ x ∈ nodes ∧ id ∈ deps x := fun x => by
    rw [Std.ExtTreeSet.mem_toList, hDependents.mem_iff]
  -- A dependent of `id` has not been taken, since `id` has not.
  have hFresh : ∀ x, id ∈ deps x → x ∉ done := fun x hx hDone => hNew (h.closed x hDone id hx)
  -- Taking `id` removes exactly it from what a dependent misses.
  have hCount : ∀ x ∈ nodes, x ∉ done → id ∈ deps x →
      ∃ pending : List α, pending.Nodup ∧ (∀ d, d ∈ pending ↔ d ∈ deps x ∧ d ∉ id :: done) ∧
        indegree.getD x 0 - 1 = pending.length := by
    intro x hx hxDone hDep
    obtain ⟨pending, hNodup, hPending, hLength⟩ := h.missing x hx hxDone
    refine ⟨pending.erase id, hNodup.erase id, fun d => ?_, ?_⟩
    · rw [hNodup.mem_erase_iff, hPending, List.mem_cons]
      tauto
    · rw [List.length_erase_of_mem ((hPending id).mpr ⟨hDep, hNew⟩), hLength]
  refine ⟨?_, ?_, ?_⟩
  · intro x hx d hd
    rcases List.mem_cons.mp hx with rfl | hx
    · exact List.mem_cons_of_mem _ (hDeps d hd)
    · exact List.mem_cons_of_mem _ (h.closed x hx d hd)
  · intro x hx hxNew
    have hxDone : x ∉ done := fun hDone => hxNew (List.mem_cons_of_mem _ hDone)
    by_cases hDep : id ∈ deps x
    · rw [hIn x ((hMem x).mpr ⟨hx, hDep⟩)]
      exact hCount x hx hxDone hDep
    · rw [hOut x fun hList => hDep ((hMem x).mp hList).2]
      obtain ⟨pending, hNodup, hPending, hLength⟩ := h.missing x hx hxDone
      refine ⟨pending, hNodup, fun d => ?_, hLength⟩
      rw [hPending, List.mem_cons, not_or]
      refine and_congr_right fun hd => ?_
      have hNe : d ≠ id := fun hEq => hDep (hEq ▸ hd)
      simp [hNe]
  · intro x
    refine (hReady x).trans ?_
    rw [mem_erase_iff, h.ready_iff, hMem, List.mem_cons, not_or]
    constructor
    · rintro (⟨hNe, hx, hxDone, hAll⟩ | ⟨⟨hx, hDep⟩, hZero⟩)
      · exact ⟨hx, ⟨Ne.symm hNe, hxDone⟩, fun d hd => List.mem_cons_of_mem _ (hAll d hd)⟩
      · have hxDone := hFresh x hDep
        refine ⟨hx, ⟨?_, hxDone⟩, fun d hd => ?_⟩
        · rintro rfl
          exact hAcyclic x hDep
        · obtain ⟨pending, -, hPending, hLength⟩ := hCount x hx hxDone hDep
          rw [hZero] at hLength
          by_contra hdNew
          have := (hPending d).mpr ⟨hd, hdNew⟩
          rw [List.length_eq_zero_iff.mp hLength.symm] at this
          cases this
    · rintro ⟨hx, ⟨hNe, hxDone⟩, hAll⟩
      by_cases hDep : id ∈ deps x
      · refine .inr ⟨⟨hx, hDep⟩, ?_⟩
        obtain ⟨pending, -, hPending, hLength⟩ := hCount x hx hxDone hDep
        rw [hLength, List.length_eq_zero_iff, List.eq_nil_iff_forall_not_mem]
        intro d hd
        obtain ⟨hdDep, hdNew⟩ := (hPending d).mp hd
        exact hdNew (hAll d hdDep)
      · refine .inl ⟨Ne.symm hNe, hx, hxDone, fun d hd => ?_⟩
        rcases List.mem_cons.mp (hAll d hd) with rfl | hDone
        · exact absurd hd hDep
        · exact hDone

omit [Std.LawfulEqOrd α] in
/-- Something is ready while a node of an acyclic map is left. -/
private theorem KahnInvariant.exists_ready {done : List α}
    (h : KahnInvariant nodes deps done ready indegree) (hWf : WellFounded fun d x => d ∈ deps x)
    (hClosed : ∀ x ∈ nodes, ∀ d ∈ deps x, d ∈ nodes) {x : α} (hx : x ∈ nodes) (hNew : x ∉ done) :
    ∃ y, y ∈ ready := by
  obtain ⟨y, ⟨hNode, hyNew⟩, hMin⟩ := hWf.has_min {x | x ∈ nodes ∧ x ∉ done} ⟨x, hx, hNew⟩
  refine ⟨y, (h.ready_iff y).mpr ⟨hNode, hyNew, fun d hd => ?_⟩⟩
  by_contra hdNew
  exact hMin d ⟨hClosed y hNode d hd, hdNew⟩ hd

private theorem kahnLoop_topological
    (hDependents : IndexOf dependents fun d x => x ∈ nodes ∧ d ∈ deps x)
    (hWf : WellFounded fun d x => d ∈ deps x)
    (hClosed : ∀ x ∈ nodes, ∀ d ∈ deps x, d ∈ nodes) (fuel : Nat) :
    ∀ (done : List α) (ready : OrdSet α) (indegree : OrdMap α Nat), done.Nodup →
      (∀ x ∈ done, x ∈ nodes) → nodes.length ≤ done.length + fuel →
      KahnInvariant nodes deps done ready indegree →
      Topological deps (· ∈ done) (kahnLoop dependents fuel ready indegree) ∧
      ∀ x, x ∈ nodes ↔ x ∈ done ∨ x ∈ kahnLoop dependents fuel ready indegree := by
  have hAcyclic : ∀ x, x ∉ deps x := fun x hx => hWf.irrefl.irrefl x hx
  induction fuel with
  | zero =>
    intro done ready indegree hNodup hSub hFuel _
    refine ⟨.nil, fun x => ⟨fun hx => .inl ?_, ?_⟩⟩
    · exact (List.subperm_of_subset hNodup hSub).perm_of_length_le (by omega) |>.mem_iff.mpr hx
    · rintro (hx | hx)
      · exact hSub x hx
      · cases hx
  | succ fuel ih =>
    intro done ready indegree hNodup hSub hFuel hInv
    unfold kahnLoop
    cases hHead : ready.toList.head? with
    | none =>
      refine ⟨.nil, fun x => ⟨fun hx => ?_, ?_⟩⟩
      · by_contra hNot
        obtain ⟨y, hy⟩ := hInv.exists_ready hWf hClosed hx fun h => hNot (.inl h)
        rw [List.head?_eq_none_iff] at hHead
        rw [← Std.ExtTreeSet.mem_toList, hHead] at hy
        cases hy
      · rintro (hx | hx)
        · exact hSub x hx
        · cases hx
    | some id =>
      have hId : id ∈ ready :=
        Std.ExtTreeSet.mem_toList.mp (List.mem_of_head? hHead)
      obtain ⟨hNode, hNew, hDeps⟩ := (hInv.ready_iff id).mp hId
      obtain ⟨hTopo, hMem⟩ := ih (id :: done) _ _ (List.nodup_cons.mpr ⟨hNew, hNodup⟩)
        (fun x hx => (List.mem_cons.mp hx).elim (fun h => h ▸ hNode) (hSub x))
        (by rw [List.length_cons]; omega) (hInv.step hDependents hAcyclic hId)
      refine ⟨.cons hDeps hNew ?_, fun x => ?_⟩
      · simp only [List.mem_cons] at hTopo
        exact hTopo
      · rw [hMem x, List.mem_cons, List.mem_cons]
        tauto

/-- **Kahn's loop orders an acyclic map.** -/
theorem kahnLoop_spec (hDependents : IndexOf dependents fun d x => x ∈ nodes ∧ d ∈ deps x)
    (hWf : WellFounded fun d x => d ∈ deps x) (hClosed : ∀ x ∈ nodes, ∀ d ∈ deps x, d ∈ nodes)
    (hNodup : ∀ x ∈ nodes, (deps x).Nodup)
    (hIndegree : ∀ x ∈ nodes, indegree.getD x 0 = (deps x).length)
    (hReady : ∀ x, x ∈ ready ↔ x ∈ nodes ∧ deps x = []) :
    Topological deps (fun _ => False) (kahnLoop dependents nodes.length ready indegree) ∧
    ∀ x, x ∈ nodes ↔ x ∈ kahnLoop dependents nodes.length ready indegree := by
  have hInv : KahnInvariant nodes deps [] ready indegree := by
    refine ⟨by simp, fun x hx _ => ⟨deps x, hNodup x hx, by simp, hIndegree x hx⟩, fun x => ?_⟩
    rw [hReady x, List.eq_nil_iff_forall_not_mem]
    simp
  obtain ⟨hTopo, hMem⟩ := kahnLoop_topological hDependents hWf hClosed nodes.length [] ready
    indegree List.nodup_nil (by simp) (by simp) hInv
  refine ⟨?_, fun x => ?_⟩
  · simpa only [List.not_mem_nil] using hTopo
  · rw [hMem x]
    simp

end Kahn

end MyOwnMesh.Foundation

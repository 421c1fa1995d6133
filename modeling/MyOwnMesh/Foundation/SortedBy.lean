import Mathlib.Data.List.Dedup
import Mathlib.Data.List.Sort
import Mathlib.Data.List.Rotate
import MyOwnMesh.Foundation.BoundedRank

/-!
# Lists in rank order

The distinct entries of a list in the order of an injective rank, what it takes for
a list to be the first entries of that order (`eq_take_sortedBy`), and the cycle a
cursor runs through when it always moves to the next larger rank
(`IsNext.eq_getElem`).
-/

namespace MyOwnMesh.Foundation

variable {α β : Type*} [LinearOrder β] {rank : α → β}

section Sorted

variable [DecidableEq α] {l m : List α} {limit : Nat}

/-- The distinct entries by rising rank. -/
def sortedBy (rank : α → β) (l : List α) : List α :=
  l.dedup.mergeSort fun x y => decide (rank x ≤ rank y)

@[simp] theorem mem_sortedBy {x : α} : x ∈ sortedBy rank l ↔ x ∈ l := by
  unfold sortedBy
  rw [List.mem_mergeSort, List.mem_dedup]

theorem nodup_sortedBy (rank : α → β) (l : List α) : (sortedBy rank l).Nodup :=
  (List.mergeSort_perm _ _).nodup_iff.mpr (List.nodup_dedup l)

theorem sortedBy_pairwise (hRank : Function.Injective rank) (l : List α) :
    (sortedBy rank l).Pairwise fun x y => rank x < rank y := by
  have hLe : (sortedBy rank l).Pairwise fun x y => rank x ≤ rank y := by
    refine (List.pairwise_mergeSort ?_ ?_ l.dedup).imp fun h => of_decide_eq_true h
    · intro a b c hab hbc
      simp only [decide_eq_true_eq] at hab hbc ⊢
      exact le_trans hab hbc
    · intro a b
      simpa using le_total (rank a) (rank b)
  refine (hLe.and (nodup_sortedBy rank l)).imp fun h => ?_
  exact lt_of_le_of_ne h.1 fun hEq => h.2 (hRank hEq)

theorem eq_sortedBy (hRank : Function.Injective rank)
    (hSorted : m.Pairwise fun x y => rank x < rank y) (hMem : ∀ x, x ∈ m ↔ x ∈ l) :
    m = sortedBy rank l := by
  have hNodup : m.Nodup := hSorted.imp fun h hEq => ne_of_lt h (congrArg rank hEq)
  have hPerm : m.Perm (sortedBy rank l) :=
    (List.perm_ext_iff_of_nodup hNodup (nodup_sortedBy rank l)).mpr fun x => by
      rw [hMem, mem_sortedBy]
  exact hPerm.eq_of_pairwise (fun a b _ _ hab hba => absurd hab (lt_asymm hba)) hSorted
    (sortedBy_pairwise hRank l)

/-- **The first entries.** A list of entries in rank order that leaves out only worse
ones, and none before it is full. -/
theorem eq_take_sortedBy (hRank : Function.Injective rank)
    (hSorted : m.Pairwise fun x y => rank x < rank y) (hMem : ∀ x ∈ m, x ∈ l)
    (hLength : m.length ≤ limit)
    (hRest : ∀ x ∈ l, x ∉ m → m.length = limit ∧ ∀ y ∈ m, rank y < rank x) :
    m = (sortedBy rank l).take limit := by
  have hSplit : m ++ (sortedBy rank l).filter (fun x => x ∉ m) = sortedBy rank l := by
    apply eq_sortedBy hRank
    · refine List.pairwise_append.mpr ⟨hSorted, (sortedBy_pairwise hRank l).filter _, ?_⟩
      intro x hx y hy
      simp only [List.mem_filter, mem_sortedBy, decide_eq_true_eq] at hy
      exact (hRest y hy.1 hy.2).2 x hx
    · intro x
      by_cases hx : x ∈ m
      · simp [hx, hMem x hx]
      · simp [hx]
  cases hLeft : (sortedBy rank l).filter (fun x => x ∉ m) with
  | nil =>
    rw [hLeft, List.append_nil] at hSplit
    rw [← hSplit, List.take_of_length_le hLength]
  | cons x rest =>
    have hx : x ∈ (sortedBy rank l).filter (fun x => x ∉ m) := by
      rw [hLeft]
      exact List.mem_cons_self
    simp only [List.mem_filter, mem_sortedBy, decide_eq_true_eq] at hx
    rw [← hSplit, ← (hRest x hx.1 hx.2).1, List.take_left]

omit [DecidableEq α] in
/-- In rank order the better entries are those in front. -/
theorem countP_before {front back : List α} {x : α}
    (hSorted : (front ++ x :: back).Pairwise fun y z => rank y < rank z) :
    (front ++ x :: back).countP (fun y => rank y < rank x) = front.length := by
  obtain ⟨-, hBack, hCross⟩ := List.pairwise_append.mp hSorted
  have hFront : front.countP (fun y => rank y < rank x) = front.length :=
    List.countP_eq_length.mpr fun y hy => by simpa using hCross y hy x List.mem_cons_self
  have hRest : (x :: back).countP (fun y => rank y < rank x) = 0 :=
    List.countP_eq_zero.mpr fun y hy => by
      rcases List.mem_cons.mp hy with rfl | hy
      · simp
      · simpa using le_of_lt ((List.pairwise_cons.mp hBack).1 y hy)
  rw [List.countP_append, hFront, hRest, Nat.add_zero]

theorem length_sortedBy (rank : α → β) (l : List α) : (sortedBy rank l).length = l.dedup.length :=
  List.length_mergeSort _

/-- An entry is among the first when fewer than that many are better. -/
theorem mem_take_sortedBy (hRank : Function.Injective rank) {x : α} :
    x ∈ (sortedBy rank l).take limit ↔
      x ∈ l ∧ l.dedup.countP (fun y => rank y < rank x) < limit := by
  have hMem : x ∈ l ↔ x ∈ sortedBy rank l := mem_sortedBy.symm
  have hCount : l.dedup.countP (fun y => rank y < rank x) =
      (sortedBy rank l).countP (fun y => rank y < rank x) :=
    ((List.mergeSort_perm _ _).countP_eq _).symm
  rw [hMem, hCount]
  have hSorted := sortedBy_pairwise hRank l
  generalize sortedBy rank l = order at hSorted ⊢
  constructor
  · intro hx
    refine ⟨List.mem_of_mem_take hx, ?_⟩
    obtain ⟨front, back, hSplit⟩ := List.append_of_mem hx
    have hOrder : order = front ++ x :: (back ++ order.drop limit) := by
      rw [← List.cons_append, ← List.append_assoc, ← hSplit, List.take_append_drop]
    have hShort := congrArg List.length hSplit
    rw [List.length_take, List.length_append, List.length_cons] at hShort
    rw [hOrder, countP_before (hOrder ▸ hSorted)]
    omega
  · rintro ⟨hx, hCount⟩
    obtain ⟨front, back, rfl⟩ := List.append_of_mem hx
    rw [countP_before hSorted] at hCount
    rw [List.take_append, List.mem_append]
    right
    rw [show limit - front.length = limit - front.length - 1 + 1 by omega, List.take_succ_cons]
    exact List.mem_cons_self

end Sorted

/-- A bounded scan ends with the first keys of the order. -/
theorem TopRanked.map_key {γ : Type*} [DecidableEq γ] {f : γ → β} (hf : Function.Injective f)
    {key : α → γ} {limit : Nat} {l : List γ} {ranked : List α}
    (h : TopRanked rank limit (l.map f) ranked) (hKey : ∀ x ∈ ranked, rank x = f (key x)) :
    ranked.map key = (sortedBy f l).take limit := by
  refine eq_take_sortedBy hf ?_ ?_ (by simpa using h.bounded) ?_
  · refine List.pairwise_map.mpr (h.sorted.imp_of_mem fun {x y} hx hy hLess => ?_)
    rwa [hKey x hx, hKey y hy] at hLess
  · intro y hy
    obtain ⟨x, hx, rfl⟩ := List.mem_map.mp hy
    obtain ⟨z, hz, hRank⟩ := List.mem_map.mp (h.drawn x hx)
    rw [hKey x hx] at hRank
    exact hf hRank ▸ hz
  · intro y hy hOut
    obtain ⟨hLength, hLess⟩ := h.rest (f y) (List.mem_map_of_mem hy) fun hIn => by
      obtain ⟨x, hx, hRank⟩ := List.mem_map.mp hIn
      rw [hKey x hx] at hRank
      exact hOut (hf hRank ▸ List.mem_map_of_mem hx)
    refine ⟨by simpa using hLength, fun z hz => ?_⟩
    obtain ⟨x, hx, rfl⟩ := List.mem_map.mp hz
    rw [← hKey x hx]
    exact hLess x hx

/-! ## Running minima -/

/-- The best entry seen so far among those that qualify. -/
structure RunningBest (rank : α → β) (Fits : α → Prop) (seen : List α) (current : Option α) :
    Prop where
  found : ∀ x, current = some x → x ∈ seen ∧ Fits x ∧ ∀ y ∈ seen, Fits y → rank x ≤ rank y
  absent : current = none → ∀ y ∈ seen, ¬Fits y

theorem RunningBest.nil (rank : α → β) (Fits : α → Prop) : RunningBest rank Fits [] none :=
  ⟨by simp, by simp⟩

/-- An entry that does not qualify is passed over. -/
theorem RunningBest.skip {Fits : α → Prop} {seen : List α} {current : Option α} {x : α}
    (h : RunningBest rank Fits seen current) (hx : ¬Fits x) :
    RunningBest rank Fits (seen ++ [x]) current := by
  refine ⟨fun y hy => ?_, fun hNone y hy => ?_⟩
  · obtain ⟨hSeen, hFits, hLeast⟩ := h.found y hy
    refine ⟨List.mem_append_left _ hSeen, hFits, fun z hz hFit => ?_⟩
    rcases List.mem_append.mp hz with hz | hz
    · exact hLeast z hz hFit
    · exact absurd hFit (List.mem_singleton.mp hz ▸ hx)
  · rcases List.mem_append.mp hy with hy | hy
    · exact h.absent hNone y hy
    · exact List.mem_singleton.mp hy ▸ hx

/-- One that does replaces a worse one. -/
theorem RunningBest.keep {Fits : α → Prop} {seen : List α} {current : Option α} {x : α}
    (h : RunningBest rank Fits seen current) (hx : Fits x) {better : Bool}
    (hBetter : better = true ↔ ∀ y, current = some y → rank x < rank y) :
    RunningBest rank Fits (seen ++ [x]) (if better then some x else current) := by
  cases better with
  | true =>
    have hLess := hBetter.mp rfl
    refine ⟨fun y hy => ?_, by simp⟩
    obtain rfl : x = y := by simpa using hy
    refine ⟨by simp, hx, fun z hz hFit => ?_⟩
    rcases List.mem_append.mp hz with hz | hz
    · cases hCurrent : current with
      | none => exact absurd hFit (h.absent hCurrent z hz)
      | some y => exact le_of_lt (lt_of_lt_of_le (hLess y hCurrent)
          ((h.found y hCurrent).2.2 z hz hFit))
    · rw [List.mem_singleton.mp hz]
  | false =>
    have hKept : ∃ y, current = some y ∧ rank y ≤ rank x := by
      by_contra hNone
      push Not at hNone
      exact absurd (hBetter.mpr hNone) (by simp)
    obtain ⟨y, hCurrent, hLe⟩ := hKept
    refine ⟨fun z hz => ?_, fun hNone => by simp [hCurrent] at hNone⟩
    obtain ⟨hSeen, hFits, hLeast⟩ := h.found z (by simpa using hz)
    obtain rfl : y = z := by simpa [hCurrent] using hz
    refine ⟨List.mem_append_left _ hSeen, hFits, fun w hw hFit => ?_⟩
    rcases List.mem_append.mp hw with hw | hw
    · exact hLeast w hw hFit
    · rw [List.mem_singleton.mp hw]
      exact hLe

/-! ## The next entry of a cycle -/

/-- The least entry above the cursor, or the least of all when there is none. -/
def IsNext (rank : α → β) (order : List α) (cursor : Option β) (next : α) : Prop :=
  next ∈ order ∧
    ((∃ c ∈ cursor, c < rank next ∧ ∀ x ∈ order, c < rank x → rank next ≤ rank x) ∨
      (∀ c ∈ cursor, ∀ x ∈ order, rank x ≤ c) ∧ ∀ x ∈ order, rank next ≤ rank x)

/-- **From the rank of an entry the cursor moves to the entry after it.** -/
theorem IsNext.eq_getElem {order : List α} {next : α} {i : Nat} {hi : i < order.length}
    (hSorted : order.Pairwise fun x y => rank x < rank y)
    (h : IsNext rank order (some (rank order[i])) next) :
    order[(i + 1) % order.length]? = some next := by
  have hLt := List.pairwise_iff_getElem.mp hSorted
  have hInj (j k : Nat) (hj : j < order.length) (hk : k < order.length)
      (hLe : rank order[j] ≤ rank order[k]) : j ≤ k := by
    by_contra hLess
    exact absurd hLe (not_le.mpr (hLt k j hk hj (by omega)))
  obtain ⟨hMem, h⟩ := h
  obtain ⟨j, hj, rfl⟩ := List.mem_iff_getElem.mp hMem
  have hIndex : (i + 1) % order.length = j := by
    by_cases hEnd : i + 1 < order.length
    · rw [Nat.mod_eq_of_lt hEnd]
      have hAbove := hLt i (i + 1) hi hEnd (by omega)
      rcases h with ⟨c, hc, hGreater, hLeast⟩ | ⟨hNone, -⟩
      · obtain rfl : rank order[i] = c := by simpa using hc
        have hFirst := hInj j (i + 1) hj hEnd (hLeast _ (List.getElem_mem hEnd) hAbove)
        have hAfter : ¬j ≤ i := fun hLe => by
          rcases Nat.lt_or_eq_of_le hLe with hBefore | rfl
          · exact lt_asymm hGreater (hLt j i hj hi hBefore)
          · exact lt_irrefl _ hGreater
        omega
      · exact absurd (hNone _ rfl _ (List.getElem_mem hEnd)) (not_le.mpr hAbove)
    · have hLast : i + 1 = order.length := by omega
      rw [hLast, Nat.mod_self]
      rcases h with ⟨c, hc, hGreater, -⟩ | ⟨-, hLeast⟩
      · obtain rfl : rank order[i] = c := by simpa using hc
        have := hInj j i hj hi
        rcases Nat.lt_or_ge i j with hBefore | hLe
        · omega
        · rcases Nat.lt_or_eq_of_le hLe with hBefore | rfl
          · exact absurd hGreater (lt_asymm (hLt j i hj hi hBefore))
          · exact absurd hGreater (lt_irrefl _)
      · have := hInj j 0 hj (by omega) (hLeast _ (List.getElem_mem _))
        omega
  rw [hIndex, List.getElem?_eq_getElem hj]

end MyOwnMesh.Foundation

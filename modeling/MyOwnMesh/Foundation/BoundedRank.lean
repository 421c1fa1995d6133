import Mathlib.Algebra.Order.Ring.Nat
import Mathlib.Data.List.Basic
import Mathlib.Data.List.InsertIdx

/-!
# The best candidates of a scan

A scan that keeps its best `limit` candidates in rank order, as a sorted vector
with binary search does. `Ranked` says what the scan knows after any number of
candidates; its head is the best of all it has seen.
-/

namespace MyOwnMesh.Foundation

variable {α β : Type*} [LinearOrder β]

/-- Insert a candidate at its place; a full list loses its last entry, or keeps the
candidate out. -/
def insertBounded (order : α → α → Ordering) (limit : Nat) (ranked : List α) (candidate : α) :
    List α :=
  if limit = 0 ∨ (ranked.length = limit ∧
      ranked.getLast?.all fun last => order candidate last != .lt) then ranked
  else
    let position := (ranked.takeWhile fun entry => order entry candidate == .lt).length
    let kept := if ranked.length = limit then ranked.dropLast else ranked
    kept.insertIdx position candidate

/-- Nothing but the candidate is new. -/
theorem mem_insertBounded {order : α → α → Ordering} {limit : Nat} {ranked : List α}
    {candidate x : α} (h : x ∈ insertBounded order limit ranked candidate) :
    x ∈ ranked ∨ x = candidate := by
  unfold insertBounded at h
  split at h
  · exact .inl h
  · rcases List.eq_or_mem_of_mem_insertIdx h with hNew | hOld
    · exact .inr hNew
    · split at hOld
      · exact .inl (List.dropLast_subset _ hOld)
      · exact .inl hOld

/-- The list holds the ranks of some of the seen candidates in order, the best one
first. -/
structure Ranked (rank : α → β) (limit : Nat) (seen : List β) (ranked : List α) : Prop where
  bounded : ranked.length ≤ limit
  sorted : ranked.Pairwise fun x y => rank x < rank y
  drawn : ∀ x ∈ ranked, rank x ∈ seen
  best : ∀ b ∈ seen, ∃ x ∈ ranked.head?, rank x ≤ b

namespace Ranked

variable {rank : α → β} {limit : Nat} {seen : List β} {ranked : List α} {candidate : α}

theorem nil (rank : α → β) (limit : Nat) : Ranked rank limit [] [] := by
  constructor <;> simp

/-- The head is the best of all that was seen. -/
theorem head (h : Ranked rank limit seen ranked) {b : β} (hSeen : b ∈ seen)
    (hBest : ∀ c ∈ seen, b ≤ c) : ∃ x ∈ ranked.head?, rank x = b := by
  obtain ⟨x, hHead, hLe⟩ := h.best b hSeen
  have hMem : x ∈ ranked := List.mem_of_mem_head? hHead
  exact ⟨x, hHead, le_antisymm hLe (hBest _ (h.drawn x hMem))⟩

/-- A candidate of a rank already held changes nothing. -/
theorem skip (h : Ranked rank limit seen ranked) (candidate : α) {x : α} (hx : x ∈ ranked)
    (hRank : rank x = rank candidate) : Ranked rank limit (seen ++ [rank candidate]) ranked := by
  refine ⟨h.bounded, h.sorted, fun y hy => List.mem_append_left _ (h.drawn y hy),
    fun b hb => ?_⟩
  rcases List.mem_append.mp hb with hb | hb
  · exact h.best b hb
  · rw [List.mem_singleton.mp hb, ← hRank]
    exact h.best _ (h.drawn x hx)

theorem congr (h : Ranked rank limit seen ranked) {other : List α}
    (hRanks : other.map rank = ranked.map rank) : Ranked rank limit seen other := by
  have hMem (x : α) (hx : x ∈ other) : ∃ y ∈ ranked, rank y = rank x := by
    have hRank : rank x ∈ ranked.map rank := hRanks ▸ List.mem_map_of_mem hx
    exact List.mem_map.mp hRank
  refine ⟨?_, ?_, fun x hx => ?_, fun b hb => ?_⟩
  · have hLength := congrArg List.length hRanks
    rw [List.length_map, List.length_map] at hLength
    rw [hLength]
    exact h.bounded
  · apply List.pairwise_map.mp
    rw [hRanks]
    exact List.pairwise_map.mpr h.sorted
  · obtain ⟨y, hy, hRank⟩ := hMem x hx
    rw [← hRank]
    exact h.drawn y hy
  · obtain ⟨y, hHead, hLe⟩ := h.best b hb
    have hHeads := congrArg List.head? hRanks
    rw [List.head?_map, List.head?_map, hHead] at hHeads
    obtain ⟨x, hx, hRank⟩ := Option.map_eq_some_iff.mp hHeads
    exact ⟨x, hx, hRank ▸ hLe⟩

/-- What a place in a sorted list separates. -/
theorem split_at (order : α → α → Ordering)
    (hOrder : ∀ x y, order x y = .lt ↔ rank x < rank y)
    (hSorted : ranked.Pairwise fun x y => rank x < rank y)
    (hNew : ∀ x ∈ ranked, rank x ≠ rank candidate) :
    ∃ front back, ranked = front ++ back ∧
      (ranked.takeWhile fun entry => order entry candidate == .lt) = front ∧
      (∀ x ∈ front, rank x < rank candidate) ∧ ∀ x ∈ back, rank candidate < rank x := by
  induction ranked with
  | nil => exact ⟨[], [], rfl, rfl, by simp, by simp⟩
  | cons x rest ih =>
    obtain ⟨hFirst, hRest⟩ := List.pairwise_cons.mp hSorted
    by_cases hBefore : order x candidate = .lt
    · obtain ⟨front, back, hSplit, hTake, hFront, hBack⟩ :=
        ih hRest fun y hy => hNew y (List.mem_cons_of_mem x hy)
      refine ⟨x :: front, back, congrArg (List.cons x) hSplit, ?_, fun y hy => ?_, hBack⟩
      · rw [List.takeWhile_cons_of_pos (by simp [hBefore]), hTake]
      · rcases List.mem_cons.mp hy with rfl | hy
        · exact (hOrder y candidate).mp hBefore
        · exact hFront y hy
    · have hAfter : rank candidate < rank x := by
        rw [hOrder, not_lt] at hBefore
        exact lt_of_le_of_ne hBefore (hNew x List.mem_cons_self).symm
      refine ⟨[], x :: rest, rfl, ?_, by simp, fun y hy => ?_⟩
      · rw [List.takeWhile_cons_of_neg (by simp [hBefore])]
      · rcases List.mem_cons.mp hy with rfl | hy
        · exact hAfter
        · exact lt_trans hAfter (hFirst y hy)

theorem insertIdx_length (front back : List α) (x : α) :
    (front ++ back).insertIdx front.length x = front ++ x :: back := by
  induction front with
  | nil => rfl
  | cons y front ih => simp [ih]

/-- Placing a candidate between the better and the worse entries, some of the worst
of which may be dropped. -/
theorem place {front back kept : List α} (h : Ranked rank limit seen (front ++ back))
    (hFront : ∀ x ∈ front, rank x < rank candidate)
    (hBack : ∀ x ∈ back, rank candidate < rank x) (hKept : kept <+: back)
    (hBounded : (front ++ candidate :: kept).length ≤ limit) :
    Ranked rank limit (seen ++ [rank candidate]) (front ++ candidate :: kept) := by
  have hOld (x : α) (hx : x ∈ kept) : x ∈ back := hKept.subset hx
  obtain ⟨hFrontSorted, hBackSorted, hCross⟩ := List.pairwise_append.mp h.sorted
  refine ⟨hBounded, List.pairwise_append.mpr ⟨hFrontSorted, List.pairwise_cons.mpr
    ⟨fun x hx => hBack x (hOld x hx), hBackSorted.sublist hKept.sublist⟩, fun x hx y hy => ?_⟩,
    fun x hx => ?_, fun b hb => ?_⟩
  · rcases List.mem_cons.mp hy with rfl | hy
    · exact hFront x hx
    · exact hCross x hx y (hOld y hy)
  · rcases List.mem_append.mp hx with hx | hx
    · exact List.mem_append_left _ (h.drawn x (List.mem_append_left _ hx))
    · rcases List.mem_cons.mp hx with rfl | hx
      · exact List.mem_append_right _ List.mem_cons_self
      · exact List.mem_append_left _ (h.drawn x (List.mem_append_right _ (hOld x hx)))
  · cases front with
    | nil =>
      refine ⟨candidate, rfl, ?_⟩
      rcases List.mem_append.mp hb with hb | hb
      · obtain ⟨x, hHead, hLe⟩ := h.best b hb
        exact le_of_lt (lt_of_lt_of_le (hBack x (List.mem_of_mem_head? hHead)) hLe)
      · rw [List.mem_singleton.mp hb]
    | cons y front =>
      refine ⟨y, rfl, ?_⟩
      rcases List.mem_append.mp hb with hb | hb
      · obtain ⟨x, hHead, hLe⟩ := h.best b hb
        obtain rfl := Option.some.inj hHead
        exact hLe
      · rw [List.mem_singleton.mp hb]
        exact le_of_lt (hFront y List.mem_cons_self)

/-- **Where a candidate goes.** Behind the better entries of a list in order: a full
list of better ones keeps it out, a full list loses its worst entry, any other list
grows. -/
theorem insertBounded_cases (order : α → α → Ordering) (candidate : α)
    (hOrder : ∀ x y, order x y = .lt ↔ rank x < rank y) (hLimit : 1 ≤ limit)
    (hSorted : ranked.Pairwise fun x y => rank x < rank y)
    (hNew : ∀ x ∈ ranked, rank x ≠ rank candidate) :
    ∃ front back, ranked = front ++ back ∧ (∀ x ∈ front, rank x < rank candidate) ∧
      (∀ x ∈ back, rank candidate < rank x) ∧
      ((back = [] ∧ front.length = limit ∧
          insertBounded order limit ranked candidate = front) ∨
        (∃ kept last, back = kept ++ [last] ∧ (front ++ back).length = limit ∧
          insertBounded order limit ranked candidate = front ++ candidate :: kept) ∨
        (front ++ back).length ≠ limit ∧
          insertBounded order limit ranked candidate = front ++ candidate :: back) := by
  obtain ⟨front, back, rfl, hTake, hFront, hBack⟩ := split_at order hOrder hSorted hNew
  refine ⟨front, back, rfl, hFront, hBack, ?_⟩
  unfold insertBounded
  rw [hTake]
  split
  · next hFull =>
    obtain ⟨hLength, hLast⟩ : (front ++ back).length = limit ∧ _ :=
      hFull.resolve_left (by omega)
    have hEmpty : back = [] := by
      cases hBackLast : back.getLast? with
      | none => exact List.getLast?_eq_none_iff.mp hBackLast
      | some last =>
        rw [List.getLast?_append, hBackLast] at hLast
        have hWorse := hBack last (List.mem_of_getLast? hBackLast)
        rw [← hOrder] at hWorse
        simp [hWorse] at hLast
    subst hEmpty
    rw [List.append_nil] at hLength ⊢
    exact .inl ⟨rfl, hLength, rfl⟩
  · next hRoom =>
    dsimp only
    by_cases hLength : (front ++ back).length = limit
    · have hBackNe : back ≠ [] := by
        intro hEmpty
        subst hEmpty
        apply hRoom
        refine .inr ⟨hLength, ?_⟩
        cases hLast : (front ++ []).getLast? with
        | none => rfl
        | some last =>
          have hMem : last ∈ front := by simpa using List.mem_of_getLast? hLast
          have hBefore := hFront last hMem
          have hNot : order candidate last ≠ .lt := fun hLt =>
            lt_asymm hBefore ((hOrder _ _).mp hLt)
          simp [hNot]
      refine .inr (.inl ⟨back.dropLast, back.getLast hBackNe,
        (List.dropLast_concat_getLast hBackNe).symm, hLength, ?_⟩)
      rw [if_pos hLength, List.dropLast_append_of_ne_nil hBackNe, insertIdx_length]
    · rw [if_neg hLength, insertIdx_length]
      exact .inr (.inr ⟨hLength, rfl⟩)

theorem insert (h : Ranked rank limit seen ranked) (order : α → α → Ordering) (candidate : α)
    (hOrder : ∀ x y, order x y = .lt ↔ rank x < rank y) (hLimit : 1 ≤ limit)
    (hNew : ∀ x ∈ ranked, rank x ≠ rank candidate) :
    Ranked rank limit (seen ++ [rank candidate])
      (insertBounded order limit ranked candidate) := by
  have hBounded := h.bounded
  obtain ⟨front, back, rfl, hFront, hBack, ⟨rfl, hLength, hFull⟩ |
    ⟨kept, last, rfl, hLength, hEvict⟩ | ⟨hLength, hGrow⟩⟩ :=
      insertBounded_cases order candidate hOrder hLimit h.sorted hNew
  · rw [hFull]
    rw [List.append_nil] at h
    refine ⟨h.bounded, h.sorted, fun x hx => List.mem_append_left _ (h.drawn x hx),
      fun b hb => ?_⟩
    rcases List.mem_append.mp hb with hb | hb
    · exact h.best b hb
    · cases front with
      | nil => simp at hLength; omega
      | cons x front =>
        rw [List.mem_singleton.mp hb]
        exact ⟨x, rfl, le_of_lt (hFront x List.mem_cons_self)⟩
  · rw [hEvict]
    apply h.place hFront hBack ⟨[last], rfl⟩
    simp only [List.length_append, List.length_cons, List.length_nil] at hLength ⊢
    omega
  · rw [hGrow]
    apply h.place hFront hBack ⟨[], List.append_nil back⟩
    simp only [List.length_append, List.length_cons] at hLength hBounded ⊢
    omega

end Ranked

/-! ## Whole scans -/

omit [LinearOrder β] in
/-- A whole scan: each item adds its ranks to what was seen. `Fine` holds of every
rank the scan can see. -/
theorem foldl_seen {ι : Type*} {P : List β → List α → Prop} {step : List α → ι → List α}
    {ranks : ι → List β} (Fine : β → Prop) (hFine : ∀ i, ∀ b ∈ ranks i, Fine b) (items : List ι)
    (hNil : P [] []) (hStep : ∀ i ∈ items, ∀ seen ranked, (∀ b ∈ seen, Fine b) → P seen ranked →
      P (seen ++ ranks i) (step ranked i)) : P (items.flatMap ranks) (items.foldl step []) := by
  have hScan : ∀ (rest : List ι), (∀ i ∈ rest, i ∈ items) → ∀ (seen : List β) (ranked : List α),
      (∀ b ∈ seen, Fine b) → P seen ranked →
      P (seen ++ rest.flatMap ranks) (rest.foldl step ranked) := by
    intro rest
    induction rest with
    | nil =>
      intro _ seen ranked _ h
      simpa using h
    | cons i rest ih =>
      intro hItems seen ranked hSeen h
      rw [List.flatMap_cons, ← List.append_assoc, List.foldl_cons]
      apply ih fun j hj => hItems j (List.mem_cons_of_mem i hj)
      · intro b hb
        rcases List.mem_append.mp hb with hb | hb
        · exact hSeen b hb
        · exact hFine i b hb
      · exact hStep i (hItems i List.mem_cons_self) seen ranked hSeen h
  exact hScan items (fun _ hi => hi) [] [] (by simp) hNil

/-! ## The best candidates and no others -/

/-- What the list leaves out is worse than all it holds, and it leaves out nothing
before it is full. -/
structure TopRanked (rank : α → β) (limit : Nat) (seen : List β) (ranked : List α) : Prop
    extends Ranked rank limit seen ranked where
  rest : ∀ b ∈ seen, b ∉ ranked.map rank → ranked.length = limit ∧ ∀ x ∈ ranked, rank x < b

namespace TopRanked

variable {rank : α → β} {limit : Nat} {seen : List β} {ranked : List α} {candidate : α}

theorem nil (rank : α → β) (limit : Nat) : TopRanked rank limit [] [] :=
  ⟨Ranked.nil rank limit, by simp⟩

theorem skip (h : TopRanked rank limit seen ranked) (candidate : α) {x : α} (hx : x ∈ ranked)
    (hRank : rank x = rank candidate) : TopRanked rank limit (seen ++ [rank candidate]) ranked := by
  refine ⟨h.toRanked.skip candidate hx hRank, fun b hb hOut => ?_⟩
  rcases List.mem_append.mp hb with hb | hb
  · exact h.rest b hb hOut
  · rw [List.mem_singleton.mp hb, ← hRank] at hOut
    exact absurd (List.mem_map_of_mem hx) hOut

theorem congr (h : TopRanked rank limit seen ranked) {other : List α}
    (hRanks : other.map rank = ranked.map rank) : TopRanked rank limit seen other := by
  refine ⟨h.toRanked.congr hRanks, fun b hb hOut => ?_⟩
  rw [hRanks] at hOut
  obtain ⟨hLength, hLess⟩ := h.rest b hb hOut
  have hSame := congrArg List.length hRanks
  rw [List.length_map, List.length_map] at hSame
  refine ⟨hSame.trans hLength, fun x hx => ?_⟩
  obtain ⟨y, hy, hRank⟩ := List.mem_map.mp (hRanks ▸ List.mem_map_of_mem hx)
  exact hRank ▸ hLess y hy

theorem insert (h : TopRanked rank limit seen ranked) (order : α → α → Ordering) (candidate : α)
    (hOrder : ∀ x y, order x y = .lt ↔ rank x < rank y) (hLimit : 1 ≤ limit)
    (hNew : ∀ x ∈ ranked, rank x ≠ rank candidate) :
    TopRanked rank limit (seen ++ [rank candidate])
      (insertBounded order limit ranked candidate) := by
  refine ⟨h.toRanked.insert order candidate hOrder hLimit hNew, fun b hb hOut => ?_⟩
  have hSorted := h.sorted
  obtain ⟨front, back, rfl, hFront, hBack, ⟨rfl, hLength, hFull⟩ |
    ⟨kept, last, rfl, hLength, hEvict⟩ | ⟨hLength, hGrow⟩⟩ :=
      Ranked.insertBounded_cases order candidate hOrder hLimit h.sorted hNew
  · rw [hFull] at hOut ⊢
    rw [List.append_nil] at h
    rcases List.mem_append.mp hb with hb | hb
    · exact h.rest b hb hOut
    · rw [List.mem_singleton.mp hb]
      exact ⟨hLength, hFront⟩
  · rw [hEvict] at hOut ⊢
    have hOld : b ∈ seen := by
      refine (List.mem_append.mp hb).resolve_right fun hSame => hOut ?_
      simp [List.mem_singleton.mp hSame]
    have hLast : rank last ≤ b := by
      by_cases hKnown : b ∈ (front ++ (kept ++ [last])).map rank
      · have hEq : rank last = b := by
          simp only [List.map_append, List.map_cons, List.mem_append, List.mem_cons,
            List.map_nil, List.not_mem_nil, or_false] at hKnown hOut
          rcases hKnown with hKnown | hKnown | hKnown
          · exact absurd (.inl hKnown) hOut
          · exact absurd (.inr (.inr hKnown)) hOut
          · exact hKnown.symm
        exact le_of_eq hEq
      · exact le_of_lt ((h.rest b hOld hKnown).2 last (by simp))
    refine ⟨?_, fun x hx => lt_of_lt_of_le ?_ hLast⟩
    · simp only [List.length_append, List.length_cons, List.length_nil] at hLength ⊢
      omega
    · rw [← List.append_assoc] at hSorted
      have hBefore := (List.pairwise_append.mp hSorted).2.2
      rcases List.mem_append.mp hx with hx | hx
      · exact hBefore x (List.mem_append_left _ hx) last List.mem_cons_self
      · rcases List.mem_cons.mp hx with rfl | hx
        · exact hBack last (by simp)
        · exact hBefore x (List.mem_append_right _ hx) last List.mem_cons_self
  · rw [hGrow] at hOut
    have hOld : b ∈ seen := by
      refine (List.mem_append.mp hb).resolve_right fun hSame => hOut ?_
      simp [List.mem_singleton.mp hSame]
    have hUnknown : b ∉ (front ++ back).map rank := fun hKnown => hOut (by
      simp only [List.map_append, List.map_cons, List.mem_append, List.mem_cons] at hKnown ⊢
      exact hKnown.imp_right .inr)
    exact absurd (h.rest b hOld hUnknown).1 hLength

end TopRanked

end MyOwnMesh.Foundation

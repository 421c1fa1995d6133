import MyOwnMesh.Topology.Ranking

/-!
# The rotation of parent candidates

A leaf that looks for a parent asks for one configured hub after another; the answer
before is its cursor. The scan keeps two running minima, the best hub and the best
one behind the cursor. Asked again and again it goes through all hubs in rank order
and starts over.
-/

namespace MyOwnMesh.Topology

open Foundation

/-! ## The scan -/

def rankTupleCmp (leftScore : Nat) (leftKey : String) (rightScore : Nat) (rightKey : String) :
    Ordering :=
  (compare rightScore leftScore).then (compare leftKey rightKey)

/-- A configured hub, its key and its score. -/
structure ParentCandidate where
  configured : String
  key : String
  score : Nat

/-- The two minima of the scan. -/
structure ParentScan where
  best : Option ParentCandidate
  bestAfter : Option ParentCandidate

/-- `is_none_or` with a smaller rank. -/
def ParentCandidate.beats (candidate : ParentCandidate) (current : Option ParentCandidate) :
    Bool :=
  current.all fun current =>
    rankTupleCmp candidate.score candidate.key current.score current.key == .lt

section Scan

variable [Rendezvous]

/-- One configured hub. The cursor is a score with its key. -/
def ParentScan.visit (root leaf : String) (cursor : Option (Nat × String)) (scan : ParentScan)
    (configured : String) : ParentScan :=
  let key := pubkeyPart configured
  if key = root ∨ key = leaf then scan
  else
    let candidate : ParentCandidate := ⟨configured, key, rendezvousScore leaf key⟩
    let isAfter := cursor.any fun c => rankTupleCmp candidate.score key c.1 c.2 == .gt
    { best := if candidate.beats scan.best then some candidate else scan.best
      bestAfter :=
        if isAfter && candidate.beats scan.bestAfter then some candidate else scan.bestAfter }

/-- The best hub after the cursor, or the best of all. -/
def nextParentCandidate (root : String) (hubs : List String) (leaf : String)
    (after : Option String) : Option String :=
  let leaf := pubkeyPart leaf
  let cursor := after.map fun id => (rendezvousScore leaf (pubkeyPart id), pubkeyPart id)
  let scan := hubs.foldl (ParentScan.visit (pubkeyPart root) leaf cursor) ⟨none, none⟩
  (scan.bestAfter.or scan.best).map ParentCandidate.configured

/-- The first answers when each one is the cursor of the next question. -/
def parentCandidates (root : String) (hubs : List String) (leaf : String) :
    Nat → Option String → List String
  | 0, _ => []
  | n + 1, after =>
    match nextParentCandidate root hubs leaf after with
    | none => []
    | some hub => hub :: parentCandidates root hubs leaf n (some hub)

/-! ## The minima -/

def ParentCandidate.rank (candidate : ParentCandidate) : Natᵒᵈ ×ₗ String :=
  toLex (OrderDual.toDual candidate.score, candidate.key)

/-- The candidate a configured hub is visited as. -/
def parentCandidate (leaf configured : String) : ParentCandidate :=
  ⟨configured, pubkeyPart configured, rendezvousScore leaf (pubkeyPart configured)⟩

omit [Rendezvous] in
theorem rankTupleCmp_eq_lt (a b : Nat) (k l : String) : rankTupleCmp a k b l = .lt ↔
    toLex (OrderDual.toDual a, k) < toLex (OrderDual.toDual b, l) :=
  rankedOrder_eq_lt ⟨a, k⟩ ⟨b, l⟩

omit [Rendezvous] in
theorem rankTupleCmp_eq_gt (a b : Nat) (k l : String) : rankTupleCmp a k b l = .gt ↔
    toLex (OrderDual.toDual b, l) < toLex (OrderDual.toDual a, k) := by
  rw [← rankTupleCmp_eq_lt]
  unfold rankTupleCmp
  rw [Ordering.then_eq_gt, Ordering.then_eq_lt, compare_gt_iff_gt, compare_gt_iff_gt,
    compare_lt_iff_lt, compare_lt_iff_lt, compare_eq_iff_eq, compare_eq_iff_eq]
  simp only [eq_comm]

omit [Rendezvous] in
theorem beats_iff (candidate : ParentCandidate) (current : Option ParentCandidate) :
    candidate.beats current = true ↔ ∀ y, current = some y → candidate.rank < y.rank := by
  cases current with
  | none => simp [ParentCandidate.beats]
  | some y => simp [ParentCandidate.beats, rankTupleCmp_eq_lt, ParentCandidate.rank]

/-- A hub that may become the parent. -/
def ParentCandidate.Fits (root leaf : String) (candidate : ParentCandidate) : Prop :=
  candidate.key ≠ root ∧ candidate.key ≠ leaf

/-- One that may and stands behind the cursor. -/
def ParentCandidate.FitsAfter (root leaf : String) (cursor : Option (Nat × String))
    (candidate : ParentCandidate) : Prop :=
  candidate.Fits root leaf ∧ ∃ c ∈ cursor, toLex (OrderDual.toDual c.1, c.2) < candidate.rank

/-- What the scan knows of the hubs it has visited. -/
structure ParentScan.Knows (root leaf : String) (cursor : Option (Nat × String))
    (seen : List ParentCandidate) (scan : ParentScan) : Prop where
  best : RunningBest ParentCandidate.rank (ParentCandidate.Fits root leaf) seen scan.best
  bestAfter : RunningBest ParentCandidate.rank (ParentCandidate.FitsAfter root leaf cursor) seen
    scan.bestAfter

theorem ParentScan.Knows.visit {root leaf : String} {cursor : Option (Nat × String)}
    {seen : List ParentCandidate} {scan : ParentScan} (h : scan.Knows root leaf cursor seen)
    (configured : String) :
    (scan.visit root leaf cursor configured).Knows root leaf cursor
      (seen ++ [parentCandidate leaf configured]) := by
  unfold ParentScan.visit
  dsimp only
  split
  · next hSkip =>
    have hUnfit : ¬(parentCandidate leaf configured).Fits root leaf := fun hFits =>
      hSkip.elim hFits.1 hFits.2
    exact ⟨h.best.skip hUnfit, h.bestAfter.skip fun hFits => hUnfit hFits.1⟩
  · next hKept =>
    rw [not_or] at hKept
    have hFits : (parentCandidate leaf configured).Fits root leaf := hKept
    refine ⟨h.best.keep hFits (beats_iff _ _), ?_⟩
    cases hAfter : cursor.any fun c => rankTupleCmp
        (rendezvousScore leaf (pubkeyPart configured)) (pubkeyPart configured) c.1 c.2 == .gt with
    | false =>
      refine h.bestAfter.skip fun hBehind => ?_
      obtain ⟨c, hc, hLess⟩ := hBehind.2
      rw [Option.mem_def.mp hc, Option.any_some, beq_eq_false_iff_ne] at hAfter
      exact hAfter ((rankTupleCmp_eq_gt _ _ _ _).mpr hLess)
    | true =>
      obtain ⟨c, rfl, hGreater⟩ : ∃ c, cursor = some c ∧ rankTupleCmp
          (rendezvousScore leaf (pubkeyPart configured)) (pubkeyPart configured) c.1 c.2 = .gt := by
        cases cursor with
        | none => simp at hAfter
        | some c => exact ⟨c, rfl, by simpa using hAfter⟩
      have hBehind : (parentCandidate leaf configured).FitsAfter root leaf (some c) :=
        ⟨hFits, c, rfl, (rankTupleCmp_eq_gt _ _ _ _).mp hGreater⟩
      exact h.bestAfter.keep hBehind (beats_iff _ _)

theorem ParentScan.knows_foldl (root leaf : String) (cursor : Option (Nat × String))
    (hubs : List String) :
    (hubs.foldl (ParentScan.visit root leaf cursor) ⟨none, none⟩).Knows root leaf cursor
      (hubs.map (parentCandidate leaf)) := by
  induction hubs using List.reverseRecOn with
  | nil => exact ⟨RunningBest.nil _ _, RunningBest.nil _ _⟩
  | append_singleton hubs hub ih =>
    rw [List.foldl_append, List.map_append]
    exact ih.visit hub

/-! ## The rotation -/

/-- The distinct hubs a leaf may choose as its parent, in rank order. -/
def parentOrder (root : String) (hubs : List String) (leaf : String) : List String :=
  sortedBy (rankFor (pubkeyPart leaf))
    ((hubs.map pubkeyPart).filter fun key => key ≠ pubkeyPart root ∧ key ≠ pubkeyPart leaf)

variable {root leaf : String} {hubs : List String} {after : Option String}

theorem parentOrder_pairwise (root : String) (hubs : List String) (leaf : String) :
    (parentOrder root hubs leaf).Pairwise fun x y =>
      rankFor (pubkeyPart leaf) x < rankFor (pubkeyPart leaf) y :=
  sortedBy_pairwise (rankFor_injective _) _

theorem mem_parentOrder {key : String} : key ∈ parentOrder root hubs leaf ↔
    ∃ hub ∈ hubs, (parentCandidate (pubkeyPart leaf) hub).Fits (pubkeyPart root) (pubkeyPart leaf) ∧
      pubkeyPart hub = key := by
  unfold parentOrder
  rw [mem_sortedBy, List.mem_filter, List.mem_map]
  constructor
  · rintro ⟨⟨hub, hHub, rfl⟩, hFits⟩
    rw [decide_eq_true_eq] at hFits
    exact ⟨hub, hHub, hFits, rfl⟩
  · rintro ⟨hub, hHub, hFits, rfl⟩
    refine ⟨⟨hub, hHub, rfl⟩, ?_⟩
    rw [decide_eq_true_eq]
    exact hFits

/-- **The answer is the next hub of the order.** -/
theorem nextParentCandidate_isNext {hub : String}
    (h : nextParentCandidate root hubs leaf after = some hub) :
    IsNext (rankFor (pubkeyPart leaf)) (parentOrder root hubs leaf)
      (after.map fun id => rankFor (pubkeyPart leaf) (pubkeyPart id)) (pubkeyPart hub) := by
  unfold nextParentCandidate at h
  dsimp only at h
  have hKnows := ParentScan.knows_foldl (pubkeyPart root) (pubkeyPart leaf)
    (after.map fun id => (rendezvousScore (pubkeyPart leaf) (pubkeyPart id), pubkeyPart id)) hubs
  obtain ⟨candidate, hChosen, rfl⟩ := Option.map_eq_some_iff.mp h
  rcases Option.or_eq_some_iff.mp hChosen with hAfter | ⟨hNone, hBest⟩
  · obtain ⟨hSeen, ⟨hFits, c, hc, hLess⟩, hLeast⟩ := hKnows.bestAfter.found _ hAfter
    obtain ⟨hub, hHub, rfl⟩ := List.mem_map.mp hSeen
    refine ⟨mem_parentOrder.mpr ⟨hub, hHub, hFits, rfl⟩, .inl ?_⟩
    obtain ⟨id, rfl, rfl⟩ := Option.map_eq_some_iff.mp (Option.mem_def.mp hc)
    refine ⟨_, rfl, hLess, fun x hx hBehind => ?_⟩
    obtain ⟨other, hOther, hOtherFits, rfl⟩ := mem_parentOrder.mp hx
    exact hLeast _ (List.mem_map_of_mem hOther) ⟨hOtherFits, _, rfl, hBehind⟩
  · obtain ⟨hSeen, hFits, hLeast⟩ := hKnows.best.found _ hBest
    obtain ⟨hub, hHub, rfl⟩ := List.mem_map.mp hSeen
    refine ⟨mem_parentOrder.mpr ⟨hub, hHub, hFits, rfl⟩, .inr ⟨fun c hc x hx => ?_,
      fun x hx => ?_⟩⟩
    · obtain ⟨id, rfl, rfl⟩ := Option.map_eq_some_iff.mp (Option.mem_def.mp hc)
      obtain ⟨other, hOther, hOtherFits, rfl⟩ := mem_parentOrder.mp hx
      by_contra hBehind
      exact hKnows.bestAfter.absent hNone _ (List.mem_map_of_mem hOther)
        ⟨hOtherFits, _, rfl, not_le.mp hBehind⟩
    · obtain ⟨other, hOther, hOtherFits, rfl⟩ := mem_parentOrder.mp hx
      exact hLeast _ (List.mem_map_of_mem hOther) hOtherFits

/-- Without an answer there is no hub to choose. -/
theorem parentOrder_eq_nil (h : nextParentCandidate root hubs leaf after = none) :
    parentOrder root hubs leaf = [] := by
  unfold nextParentCandidate at h
  dsimp only at h
  have hKnows := ParentScan.knows_foldl (pubkeyPart root) (pubkeyPart leaf)
    (after.map fun id => (rendezvousScore (pubkeyPart leaf) (pubkeyPart id), pubkeyPart id)) hubs
  have hNone := (Option.or_eq_none_iff.mp (Option.map_eq_none_iff.mp h)).2
  refine List.eq_nil_iff_forall_not_mem.mpr fun key hKey => ?_
  obtain ⟨hub, hHub, hFits, -⟩ := mem_parentOrder.mp hKey
  exact hKnows.best.absent hNone _ (List.mem_map_of_mem hHub) hFits

/-- With the first answer at some place of the order, the answers run on from there. -/
theorem parentCandidates_run (hOrder : parentOrder root hubs leaf ≠ []) (n : Nat) :
    ∀ {after : Option String} {r : Nat},
      (∀ hub, nextParentCandidate root hubs leaf after = some hub →
      (parentOrder root hubs leaf)[r % (parentOrder root hubs leaf).length]? =
        some (pubkeyPart hub)) →
    (parentCandidates root hubs leaf n after).length = n ∧
      ∀ k < n, ((parentCandidates root hubs leaf n after).map pubkeyPart)[k]? =
        (parentOrder root hubs leaf)[(r + k) % (parentOrder root hubs leaf).length]? := by
  induction n with
  | zero => simp [parentCandidates]
  | succ n ih =>
    intro after r hFirst
    have hLength := List.length_pos_iff.mpr hOrder
    cases hNext : nextParentCandidate root hubs leaf after with
    | none => exact absurd (parentOrder_eq_nil hNext) hOrder
    | some hub =>
      have hPlace := hFirst hub hNext
      obtain ⟨hLt, hEq⟩ := List.getElem?_eq_some_iff.mp hPlace
      have hRest := @ih (some hub) (r + 1) fun next hAnswer => by
        have hIs := nextParentCandidate_isNext hAnswer
        rw [Option.map_some, ← hEq] at hIs
        rw [← IsNext.eq_getElem (parentOrder_pairwise root hubs leaf) hIs,
          Nat.mod_add_mod]
      rw [parentCandidates, hNext]
      refine ⟨by simp [hRest.1], fun k hk => ?_⟩
      cases k with
      | zero => simpa using hPlace.symm
      | succ k =>
        rw [List.map_cons, List.getElem?_cons_succ, hRest.2 k (by omega)]
        congr 2
        omega

/-- **The rotation.** From any cursor the answers name every hub but the root and the
leaf once, in rank order up to a rotation, and then repeat. -/
theorem parent_candidates_rotate (root : String) (hubs : List String) (leaf : String)
    (after : Option String) : ∃ order : List String,
      (∀ key, key ∈ order ↔
        key ∈ hubs.map pubkeyPart ∧ key ≠ pubkeyPart root ∧ key ≠ pubkeyPart leaf) ∧
      order.Pairwise (fun x y => rankFor (pubkeyPart leaf) x < rankFor (pubkeyPart leaf) y) ∧
      (∃ r, (parentCandidates root hubs leaf order.length after).map pubkeyPart =
        order.rotate r) ∧
      ∀ n, ((parentCandidates root hubs leaf (order.length + n) after).map pubkeyPart).drop
        order.length = (parentCandidates root hubs leaf n after).map pubkeyPart := by
  refine ⟨parentOrder root hubs leaf, fun key => by simp [parentOrder],
    parentOrder_pairwise root hubs leaf, ?_⟩
  by_cases hOrder : parentOrder root hubs leaf = []
  · have hNone (n : Nat) : parentCandidates root hubs leaf n after = [] := by
      cases n with
      | zero => rfl
      | succ n =>
        cases hNext : nextParentCandidate root hubs leaf after with
        | none => rw [parentCandidates, hNext]
        | some hub => simpa [hOrder] using (nextParentCandidate_isNext hNext).1
    simp [hOrder, hNone]
  · have hLength := List.length_pos_iff.mpr hOrder
    obtain ⟨r, hFirst⟩ : ∃ r, ∀ hub, nextParentCandidate root hubs leaf after = some hub →
        (parentOrder root hubs leaf)[r % (parentOrder root hubs leaf).length]? =
          some (pubkeyPart hub) := by
      cases hNext : nextParentCandidate root hubs leaf after with
      | none => exact absurd (parentOrder_eq_nil hNext) hOrder
      | some hub =>
        obtain ⟨r, hr, hEq⟩ := List.mem_iff_getElem.mp (nextParentCandidate_isNext hNext).1
        refine ⟨r, fun other hOther => ?_⟩
        rw [Nat.mod_eq_of_lt hr, List.getElem?_eq_getElem hr, hEq, Option.some.inj hOther]
    have hRun (n : Nat) := parentCandidates_run hOrder n hFirst
    refine ⟨⟨r, List.ext_getElem? fun k => ?_⟩, fun n => List.ext_getElem? fun k => ?_⟩
    · by_cases hk : k < (parentOrder root hubs leaf).length
      · rw [(hRun _).2 k hk, List.getElem?_rotate hk, Nat.add_comm]
      · rw [List.getElem?_eq_none (by simp [(hRun _).1]; omega),
          List.getElem?_eq_none (by simp; omega)]
    · rw [List.getElem?_drop]
      by_cases hk : k < n
      · rw [(hRun _).2 _ (by omega), (hRun n).2 k hk]
        congr 1
        rw [show r + ((parentOrder root hubs leaf).length + k) =
          (r + k) + (parentOrder root hubs leaf).length by omega, Nat.add_mod_right]
      · rw [List.getElem?_eq_none (by simp [(hRun _).1]; omega),
          List.getElem?_eq_none (by simp [(hRun _).1]; omega)]

end Scan

end MyOwnMesh.Topology

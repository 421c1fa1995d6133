import MyOwnMesh.Semantic.AdmissionSpec
import MyOwnMesh.Semantic.Capture
import MyOwnMesh.Semantic.Rebuild

/-!
# Undoing an admission

A rollback record is `Undoable` for a base graph and a current one when it holds
the base value of every row the two differ in, and the scalars of the base. An
admission changes recorded rows only (`ChangesWithin`), whatever way it ends; so
the record stays undoable, and restoring it gives the base back.
-/

namespace MyOwnMesh.Semantic

open Foundation

/-! ## Changing -/

/-- `g'` differs from `g` in recorded rows only. Facts are only added, and only
added facts gain a selector entry; the owner's configuration stays. -/
structure ChangesWithin (r : GraphRollback) (g g' : FactGraph) : Prop where
  facts : ∀ id : FactId, id ∉ r.facts → g'.facts[id]? = g.facts[id]?
  quarantined : ∀ id : FactId, id ∉ r.quarantined → g'.quarantined[id]? = g.quarantined[id]?
  missing : ∀ id : FactId, id ∉ r.quarantineMissing →
    g'.quarantineMissing[id]? = g.quarantineMissing[id]?
  waiting : ∀ id : FactId, id ∉ r.waitingByDependency →
    g'.waitingByDependency[id]? = g.waitingByDependency[id]?
  ready : ∀ id : FactId, id ∉ r.readyQuarantine → (id ∈ g'.readyQuarantine ↔ id ∈ g.readyQuarantine)
  quarantinedByAuthor : ∀ author : DeviceId, author ∉ r.quarantinedByAuthor →
    g'.quarantinedByAuthor[author]? = g.quarantinedByAuthor[author]?
  retainedByAuthor : ∀ author : DeviceId, author ∉ r.retainedByAuthor →
    g'.retainedByAuthor[author]? = g.retainedByAuthor[author]?
  provenance : ∀ id : FactId, id ∉ r.authorityProvenance →
    g'.authorityProvenance[id]? = g.authorityProvenance[id]?
  authorityHeads : ∀ subject : DeviceId, subject ∉ r.authorityHeads →
    g'.authorityHeadsIndex[subject]? = g.authorityHeadsIndex[subject]?
  cellHeads : ∀ cell : ExclusiveCell, cell ∉ r.cellHeads →
    g'.cellHeadsIndex[cell]? = g.cellHeadsIndex[cell]?
  grows : ∀ id : FactId, id ∈ g.facts → id ∈ g'.facts
  selectors : ∀ (subject : DeviceId) (entry : FactId × FactId), entry.1 ∈ g.facts →
    (entry ∈ g'.authoritySelectorIndex.getD subject ∅ ↔
      entry ∈ g.authoritySelectorIndex.getD subject ∅)
  order : g.admissionOrder <+: g'.admissionOrder
  owner : g'.policyLimits = g.policyLimits ∧ g'.contextId = g.contextId ∧
    g'.authorityRoots = g.authorityRoots ∧ g'.policy = g.policy ∧
    g'.stagedColdPending = g.stagedColdPending
  deferral : g'.deferProjectionCommitment = g.deferProjectionCommitment

namespace ChangesWithin

variable {r : GraphRollback} {g g' g'' : FactGraph}

theorem refl (r : GraphRollback) (g : FactGraph) : ChangesWithin r g g :=
  ⟨fun _ _ => rfl, fun _ _ => rfl, fun _ _ => rfl, fun _ _ => rfl, fun _ _ => Iff.rfl,
    fun _ _ => rfl, fun _ _ => rfl, fun _ _ => rfl, fun _ _ => rfl, fun _ _ => rfl, fun _ h => h,
    fun _ _ _ => Iff.rfl, List.prefix_refl _, ⟨rfl, rfl, rfl, rfl, rfl⟩, rfl⟩

theorem trans (h : ChangesWithin r g g') (h' : ChangesWithin r g' g'') : ChangesWithin r g g'' :=
  ⟨fun a ha => (h'.facts a ha).trans (h.facts a ha),
    fun a ha => (h'.quarantined a ha).trans (h.quarantined a ha),
    fun a ha => (h'.missing a ha).trans (h.missing a ha),
    fun a ha => (h'.waiting a ha).trans (h.waiting a ha),
    fun a ha => (h'.ready a ha).trans (h.ready a ha),
    fun a ha => (h'.quarantinedByAuthor a ha).trans (h.quarantinedByAuthor a ha),
    fun a ha => (h'.retainedByAuthor a ha).trans (h.retainedByAuthor a ha),
    fun a ha => (h'.provenance a ha).trans (h.provenance a ha),
    fun a ha => (h'.authorityHeads a ha).trans (h.authorityHeads a ha),
    fun a ha => (h'.cellHeads a ha).trans (h.cellHeads a ha),
    fun a ha => h'.grows a (h.grows a ha),
    fun d p hp => (h'.selectors d p (h.grows _ hp)).trans (h.selectors d p hp),
    h.order.trans h'.order, ⟨h'.owner.1.trans h.owner.1, h'.owner.2.1.trans h.owner.2.1,
      h'.owner.2.2.1.trans h.owner.2.2.1, h'.owner.2.2.2.1.trans h.owner.2.2.2.1,
      h'.owner.2.2.2.2.trans h.owner.2.2.2.2⟩, h'.deferral.trans h.deferral⟩

theorem of_cacheOnly (h : CacheOnly g g') : ChangesWithin r g g' := by
  rw [h]
  exact { refl r g with }

variable {cost : FactCost}

theorem retainAuthor {author : DeviceId} (h : r.HasAuthor author) :
    ChangesWithin r g (g.retainAuthor author cost) :=
  { refl r g with
    retainedByAuthor := fun _ ha => getElem?_insert_of_ne fun hEq => ha (hEq ▸ h.retained) }

theorem getElem?_releaseCount {counts : OrdMap DeviceId (Nat × Nat)} {author a : DeviceId}
    {bytes : Nat} (hNe : author ≠ a) :
    (FactGraph.releaseCount counts author bytes)[a]? = counts[a]? := by
  unfold FactGraph.releaseCount
  split
  · rfl
  · split
    · exact getElem?_erase_of_ne hNe
    · exact getElem?_insert_of_ne hNe

theorem releaseAuthor {author : DeviceId} (h : r.HasAuthor author) :
    ChangesWithin r g (g.releaseAuthor author cost) :=
  { refl r g with
    retainedByAuthor := fun _ ha => getElem?_releaseCount fun hEq => ha (hEq ▸ h.retained) }

variable {dependency id : FactId}

theorem eraseReady (h : r.HasRow id) :
    ChangesWithin r g { g with readyQuarantine := g.readyQuarantine.erase id } :=
  { refl r g with
    ready := fun a ha => by
      have hNe : id ≠ a := fun hEq => ha (hEq ▸ h.ready)
      rw [mem_erase_iff]
      exact and_iff_right hNe }

variable {fact : SignedFact}

/-- A fact waits: its own rows, its author and the entries of what it misses. -/
theorem storeQuarantined {retainedReserved : Bool} (hRow : r.HasRow fact.id)
    (hAuthor : r.HasAuthor fact.content.author)
    (hMissing : ∀ d ∈ cost.missing, d ∈ r.waitingByDependency) :
    ChangesWithin r g (g.storeQuarantined fact cost retainedReserved) := by
  have hStored : ChangesWithin r g (g.storeQuarantined fact cost true) :=
    { refl r g with
      waiting := fun a ha => by
        refine getElem?_foldl_of_notMem (fun m key hNe => ?_) fun hMem =>
          ha (hMissing a (mem_setOfList.mp (Std.ExtTreeSet.mem_toList.mp hMem)))
        rw [getElem?_addTo, if_neg hNe]
      missing := fun _ ha => getElem?_insert_of_ne fun hEq => ha (hEq ▸ hRow.missing)
      quarantinedByAuthor := fun _ ha =>
        getElem?_insert_of_ne fun hEq => ha (hEq ▸ hAuthor.quarantined)
      quarantined := fun _ ha => getElem?_insert_of_ne fun hEq => ha (hEq ▸ hRow.quarantined) }
  cases retainedReserved with
  | true => exact hStored
  | false => exact hStored.trans (retainAuthor hAuthor)

private theorem getElem?_dropWaiter (waiter : FactId) {a : FactId}
    (m : OrdMap FactId (OrdSet FactId)) (key : FactId) (hNe : key ≠ a) :
    (FactGraph.dropWaiter m waiter key)[a]? = m[a]? := by
  unfold FactGraph.dropWaiter
  split
  · rfl
  · split
    · exact getElem?_erase_of_ne hNe
    · exact getElem?_insert_of_ne hNe

/-- A waiter leaves: its rows, its author and the entries of what it missed. -/
theorem unstoreQuarantined (hRow : r.HasRow id) (hAuthor : r.HasAuthor fact.content.author)
    (hMissing : ∀ d ∈ g.quarantineMissing.getD id ∅, d ∈ r.waitingByDependency) :
    ChangesWithin r g (g.unstoreQuarantined fact id cost) :=
  { refl r g with
    quarantined := fun _ ha => getElem?_erase_of_ne fun hEq => ha (hEq ▸ hRow.quarantined)
    ready := (eraseReady (g := g) hRow).ready
    missing := fun _ ha => getElem?_erase_of_ne fun hEq => ha (hEq ▸ hRow.missing)
    waiting := fun a ha => getElem?_foldl_of_notMem (getElem?_dropWaiter id) fun hMem =>
      ha (hMissing a (Std.ExtTreeSet.mem_toList.mp hMem))
    quarantinedByAuthor := fun _ ha => getElem?_releaseCount fun hEq =>
      ha (hEq ▸ hAuthor.quarantined) }

private theorem wakeWaiter {waiter : FactId} (hRow : r.HasRow waiter) :
    ChangesWithin r g (g.wakeWaiter dependency waiter) := by
  unfold FactGraph.wakeWaiter
  cases g.quarantineMissing[waiter]? with
  | none => exact refl r g
  | some missing =>
    refine { refl r g with
      missing := fun _ ha => getElem?_insert_of_ne fun hEq => ha (hEq ▸ hRow.missing)
      ready := fun a ha => ?_ }
    dsimp only
    split
    · rw [mem_insert_iff]
      exact or_iff_right fun hEq => ha (hEq ▸ hRow.ready)
    · exact Iff.rfl

private theorem foldl_wakeWaiter (waiters : List FactId)
    (hRows : ∀ waiter ∈ waiters, r.HasRow waiter) :
    ChangesWithin r g (waiters.foldl (FactGraph.wakeWaiter dependency) g) := by
  apply List.foldlRecOn
  · exact refl r g
  · exact fun current h waiter hWaiter => h.trans (wakeWaiter (hRows waiter hWaiter))

/-- A stored fact wakes its waiters: their missing sets and the ready set. -/
theorem wakeDependency (h : r.HasWaiters g dependency) :
    ChangesWithin r g (g.wakeDependency dependency) := by
  unfold FactGraph.wakeDependency
  cases hGet : g.waitingByDependency[dependency]? with
  | none => exact refl r g
  | some waiters =>
    have hErased : ChangesWithin r g
        { g with waitingByDependency := g.waitingByDependency.erase dependency } :=
      { refl r g with
        waiting := fun _ ha => getElem?_erase_of_ne fun hEq => ha (hEq ▸ h.entry) }
    refine hErased.trans (foldl_wakeWaiter waiters.toList fun waiter hMem => h.rows waiter ?_)
    unfold GraphRollback.waitersOf
    rwa [getD_eq_getElem?_getD, hGet]

private theorem getElem?_replaceHeads {κ : Type} [Ord κ] [Std.TransOrd κ] [Std.LawfulEqOrd κ]
    (facts : Facts) (id : FactId) {a : κ} (m : OrdMap κ (OrdSet FactId)) (key : κ)
    (hNe : key ≠ a) : (FactGraph.replaceHeads facts id m key)[a]? = m[a]? :=
  getElem?_insert_of_ne hNe

/-- A stored fact: its own row, the planned provenance rows and its head entries. -/
theorem storedGraph [Platform] {changes : AuthorityProvenance} {bytes : Nat}
    {cache : Option (Nat × Projection)} (hRow : r.HasRow fact.id) (hIndexes : r.HasIndexes g fact)
    (hNew : fact.id ∉ g.facts) (hPlan : g.plannedProvenance fact = .ok changes) :
    ChangesWithin r g (storedGraph g fact cost changes bytes cache) := by
  unfold Semantic.storedGraph
  rw [storeAdmitted_eq]
  refine { refl r g with
    facts := fun _ ha => getElem?_insert_of_ne fun hEq => ha (hEq ▸ hRow.facts)
    provenance := fun id hId => ?_
    authorityHeads := fun subject hSubject =>
      getElem?_foldl_of_notMem (getElem?_replaceHeads _ _) fun hMem =>
        hSubject (hIndexes.lineages subject (List.mem_filter.mp hMem).1)
    cellHeads := fun cell hCell =>
      getElem?_foldl_of_notMem (getElem?_replaceHeads _ _) fun hMem =>
        hCell (hIndexes.cells cell (mem_setOfList.mp (Std.ExtTreeSet.mem_toList.mp hMem)))
    grows := fun id hId => ?_
    selectors := fun subject entry hEntry => ?_
    order := List.prefix_append _ _ }
  · have hNone : changes[id]? = none := by
      rw [Std.ExtTreeMap.getElem?_eq_none]
      intro hMem
      rcases plannedProvenance_keys hPlan id hMem with rfl | ⟨hAll, hFact⟩
      · exact hId hIndexes.own
      · exact hId (hIndexes.related hAll id hFact)
    dsimp only
    rw [Std.ExtTreeMap.getElem?_union, hNone, Option.none_or]
  · exact Std.ExtTreeMap.mem_insert.mpr (.inr hId)
  · dsimp only
    unfold FactGraph.addSelector
    split
    · rw [mem_addTo]
      refine or_iff_right fun h => hNew ?_
      rwa [← h.2] at hEntry
    · exact Iff.rfl

end ChangesWithin

/-! ## One admission -/

section Admission

variable [Platform] {r : GraphRollback} {g g' : FactGraph} {fact : SignedFact}
  {retainedReserved : Bool} {supplied : Option Projection} {validatedCost : Option FactCost}
  {stagedCold : List FactId}

omit [Platform] in
private theorem GraphRollback.HasIndexes.of_cacheOnly (h : r.HasIndexes g fact)
    (hCache : CacheOnly g g') : r.HasIndexes g' fact := by
  rw [hCache]
  exact ⟨h.own, h.related, h.lineages, h.cells⟩

private theorem Inserted.changes {cost : FactCost} {previous : Projection}
    (h : Inserted g fact cost retainedReserved previous stagedCold g')
    (hRow : r.HasRow fact.id) (hAuthor : r.HasAuthor fact.content.author)
    (hIndexes : r.HasIndexes g fact) (hWaiters : r.HasWaiters g fact.id)
    (hNew : fact.id ∉ g.facts) : ChangesWithin r g g' := by
  obtain ⟨changes, bytes, hPlan, -, -, rfl⟩ := h.exists_plan
  have hStored : ChangesWithin r g (storedGraph g fact cost changes bytes (some (g.generation + 1,
      storedProjection g fact cost changes bytes previous stagedCold))) :=
    .storedGraph hRow hIndexes hNew hPlan.plan
  have hWake : ∀ stored : FactGraph, stored.waitingByDependency = g.waitingByDependency →
      r.HasWaiters stored fact.id := fun stored hEq =>
    ⟨hWaiters.entry, fun waiter hMem => hWaiters.rows waiter (by
      unfold GraphRollback.waitersOf at hMem ⊢
      rwa [hEq] at hMem)⟩
  have hWaiting : (storedGraph g fact cost changes bytes (some (g.generation + 1,
      storedProjection g fact cost changes bytes previous stagedCold))).waitingByDependency =
      g.waitingByDependency := by
    simp only [storedGraph, storeAdmitted_eq]
  cases retainedReserved with
  | true => exact hStored.trans (.wakeDependency (hWake _ hWaiting))
  | false =>
    exact (hStored.trans (.retainAuthor hAuthor)).trans (.wakeDependency (hWake _ hWaiting))

/-- **A successful admission changes recorded rows only.** -/
theorem Admitted.changes {admission : Admission}
    (h : Admitted g fact retainedReserved supplied validatedCost stagedCold admission g')
    (hRecord : ∀ cost, CostOf g fact validatedCost cost → r.HasAdmission g fact cost.missing)
    (hNew : ∀ cost, CostOf g fact validatedCost cost → fact.id ∉ g.facts) :
    ChangesWithin r g g' := by
  cases h with
  | alreadyPresent _ _ hRead => exact .of_cacheOnly hRead.cacheOnly
  | @quarantined cost s hCost _ hRead _ _ =>
    have hHas := hRecord cost hCost
    exact ChangesWithin.trans (.of_cacheOnly hRead.cacheOnly)
      (.storeQuarantined hHas.row hHas.author hHas.dependencies)
  | @inserted cost s t _ hCost hMissing _ _ hRead hInserted =>
    have hHas := hRecord cost hCost
    have hCache := hRead.cacheOnly
    refine ChangesWithin.trans (.of_cacheOnly hCache) (hInserted.changes hHas.row hHas.author
      (hHas.indexes.of_cacheOnly hCache) ?_ ?_)
    · rw [hCache]
      exact ⟨(hHas.waiters hMissing).entry, (hHas.waiters hMissing).rows⟩
    · rw [hCache]
      exact hNew cost hCost

/-- **A failed admission changes recorded rows only.** -/
theorem AdmitFailed.changes {error : SemanticError} (h : AdmitFailed g fact validatedCost error g')
    (hRecord : ∀ cost, CostOf g fact validatedCost cost → r.HasAdmission g fact cost.missing)
    (hNew : ∀ cost, CostOf g fact validatedCost cost → fact.id ∉ g.facts) :
    ChangesWithin r g g' := by
  rcases h with hRead | ⟨-, cost, t, changes, bytes, cache, -, hCost, -, hRead, hPlan, rfl⟩
  · exact .of_cacheOnly hRead.cacheOnly
  · have hHas := hRecord cost hCost
    have hCache := hRead.cacheOnly
    refine ChangesWithin.trans (.of_cacheOnly hCache)
      (.storedGraph hHas.row (hHas.indexes.of_cacheOnly hCache) ?_ hPlan)
    rw [hCache]
    exact hNew cost hCost

end Admission

/-! ## Undoable records -/

/-- The record `r` leads from `g` back to `base`. -/
structure Undoable (r : GraphRollback) (base g : FactGraph) : Prop where
  rows : RowsCovered r base g
  scalars : r.blank = (GraphRollback.new base).blank
  grows : ∀ id : FactId, id ∈ base.facts → id ∈ g.facts
  selectors : ∀ (subject : DeviceId) (entry : FactId × FactId), entry.1 ∈ base.facts →
    (entry ∈ g.authoritySelectorIndex.getD subject ∅ ↔
      entry ∈ base.authoritySelectorIndex.getD subject ∅)
  order : base.admissionOrder <+: g.admissionOrder
  owner : g.policyLimits = base.policyLimits ∧ g.contextId = base.contextId ∧
    g.authorityRoots = base.authorityRoots ∧ g.policy = base.policy ∧
    g.stagedColdPending = base.stagedColdPending

namespace Undoable

variable {r r' : GraphRollback} {base g g' : FactGraph}

/-- Recording more keeps a record undoable. -/
theorem capture (h : Undoable r base g) (hCaptures : Captures g r r') : Undoable r' base g :=
  ⟨hCaptures.covered base h.rows, hCaptures.scalars.trans h.scalars, h.grows, h.selectors, h.order,
    h.owner⟩

/-- Changing recorded rows keeps a record undoable. -/
theorem change (h : Undoable r base g) (hChanges : ChangesWithin r g g') : Undoable r base g' :=
  ⟨⟨h.rows.facts.update hChanges.facts, h.rows.quarantined.update hChanges.quarantined,
      h.rows.missing.update hChanges.missing, h.rows.waiting.update hChanges.waiting,
      h.rows.ready.update hChanges.ready,
      h.rows.quarantinedByAuthor.update hChanges.quarantinedByAuthor,
      h.rows.retainedByAuthor.update hChanges.retainedByAuthor,
      h.rows.provenance.update hChanges.provenance,
      h.rows.authorityHeads.update hChanges.authorityHeads,
      h.rows.cellHeads.update hChanges.cellHeads⟩,
    h.scalars, fun id hId => hChanges.grows id (h.grows id hId),
    fun d p hp => (hChanges.selectors d p (h.grows _ hp)).trans (h.selectors d p hp),
    h.order.trans hChanges.order, hChanges.owner.1.trans h.owner.1,
    hChanges.owner.2.1.trans h.owner.2.1, hChanges.owner.2.2.1.trans h.owner.2.2.1,
    hChanges.owner.2.2.2.1.trans h.owner.2.2.2.1, hChanges.owner.2.2.2.2.trans h.owner.2.2.2.2⟩

end Undoable

theorem Undoable.new (g : FactGraph) : Undoable (GraphRollback.new g) g g :=
  ⟨rowsCovered_new g, rfl, fun _ h => h, fun _ _ _ => Iff.rfl, List.prefix_refl _, rfl, rfl, rfl, rfl,
    rfl⟩

/-! ## Restoring -/

/-- `rows` holds what a rebuild of `base` reads. -/
structure RebuildInput (base rows : FactGraph) : Prop where
  facts : rows.facts = base.facts
  count : rows.admittedFactCount = base.admittedFactCount
  limits : rows.policyLimits = base.policyLimits
  staged : rows.stagedColdPending = base.stagedColdPending
  provenance : rows.authorityProvenance = base.authorityProvenance
  authorityHeads : rows.authorityHeadsIndex = base.authorityHeadsIndex
  cellHeads : rows.cellHeadsIndex = base.cellHeadsIndex
  selectors : ∀ (subject : DeviceId) (entry : FactId × FactId), entry.1 ∈ base.facts →
    (entry ∈ rows.authoritySelectorIndex.getD subject ∅ ↔
      entry ∈ base.authoritySelectorIndex.getD subject ∅)

/-- Every rebuild from the rows of the graph gives its derived indexes. -/
def Rebuildable [Platform] (base : FactGraph) : Prop :=
  ∀ rows, RebuildInput base rows → base.withIndexes rows.rebuildIndexes = base

variable {r : GraphRollback} {base g : FactGraph}

/-- Rows are recorded whatever the caches hold and whether the commitment is deferred. -/
theorem Undoable.reframed (h : Undoable r base g) (entries : SparseEntries)
    (cache : Option (Nat × Projection)) (deferred : Bool) :
    Undoable { r with projectionSparse := entries } base
      { g with projectionCache := cache, deferProjectionCommitment := deferred } :=
  ⟨⟨h.rows.facts, h.rows.quarantined, h.rows.missing, h.rows.waiting, h.rows.ready,
      h.rows.quarantinedByAuthor, h.rows.retainedByAuthor, h.rows.provenance,
      h.rows.authorityHeads, h.rows.cellHeads⟩,
    h.scalars, h.grows, h.selectors, h.order, h.owner⟩

theorem Undoable.rebuildInput (h : Undoable r base g) :
    RebuildInput base (r.restoreRows { g with projectionCache := none }) where
  facts := restoreEntries_of_covers h.rows.facts
  count := congrArg GraphRollback.admittedFactCount h.scalars
  limits := h.owner.1
  staged := h.owner.2.2.2.2
  provenance := restoreEntries_of_covers h.rows.provenance
  authorityHeads := restoreEntries_of_covers h.rows.authorityHeads
  cellHeads := restoreEntries_of_covers h.rows.cellHeads
  selectors := h.selectors

private theorem Undoable.scalar_eq (h : Undoable r base g) {α : Type} (field : GraphRollback → α)
    (hField : ∀ r, field r = field r.blank) : field r = field (GraphRollback.new base) := by
  rw [hField r, h.scalars, ← hField]

/-- The cache a rollback leaves: the captured entries put back into the current
projection, accepted under the root of the projection cached before. -/
def rolledBackCache [Platform] (base : FactGraph) (entries : SparseEntries)
    (current : Option Projection) : Option (Nat × Projection) :=
  base.projectionCache.bind fun (generation, cached) =>
    let projection := (current.getD (Projection.fromGraph base)).restoreSparseEntries entries
    if projection.commitmentRoot = cached.commitmentRoot then some (generation, projection) else none

private theorem Undoable.restoredCache_eq [Platform] (h : Undoable r base g)
    (current : Option Projection) :
    r.restoredCache base current = rolledBackCache base r.projectionSparse current := by
  unfold GraphRollback.restoredCache
  rw [h.scalar_eq GraphRollback.projectionFull fun _ => rfl,
    h.scalar_eq GraphRollback.projectionCacheFence fun _ => rfl]
  unfold rolledBackCache GraphRollback.new
  cases base.projectionCache <;> rfl

/-- The restored rows: those of the base, beside what a rebuild recomputes or the
record sets afterwards. -/
private theorem Undoable.restoreRows_eq (h : Undoable r base g) :
    r.restoreRows { g with projectionCache := none } =
      { base with
        admissionOrder := g.admissionOrder
        authorityFactsIndex := g.authorityFactsIndex
        authoritySelectorIndex := g.authoritySelectorIndex
        cellsIndex := g.cellsIndex
        standDownIndex := g.standDownIndex
        indexedFactCount := g.indexedFactCount
        indexedRevision := g.indexedRevision
        deferProjectionCommitment := g.deferProjectionCommitment
        coldHistorySinceRetirement := g.coldHistorySinceRetirement
        projectionCache := none } := by
  unfold GraphRollback.restoreRows
  dsimp only
  rw [restoreEntries_of_covers h.rows.facts, restoreEntries_of_covers h.rows.quarantined,
    restoreEntries_of_covers h.rows.missing, restoreEntries_of_covers h.rows.waiting,
    restoreMembers_of_covers h.rows.ready, restoreEntries_of_covers h.rows.quarantinedByAuthor,
    restoreEntries_of_covers h.rows.retainedByAuthor, restoreEntries_of_covers h.rows.provenance,
    restoreEntries_of_covers h.rows.authorityHeads, restoreEntries_of_covers h.rows.cellHeads,
    h.owner.1, h.owner.2.1, h.owner.2.2.1, h.owner.2.2.2.1, h.owner.2.2.2.2,
    h.scalar_eq GraphRollback.admittedBytes fun _ => rfl,
    h.scalar_eq GraphRollback.admittedFactCount fun _ => rfl,
    h.scalar_eq GraphRollback.derivedIndexBytes fun _ => rfl,
    h.scalar_eq GraphRollback.quarantinedBytes fun _ => rfl,
    h.scalar_eq GraphRollback.admittedDependencyEdges fun _ => rfl,
    h.scalar_eq GraphRollback.quarantinedDependencyEdges fun _ => rfl,
    h.scalar_eq GraphRollback.generation fun _ => rfl,
    h.scalar_eq GraphRollback.factsRevision fun _ => rfl]
  rfl

/-- **An undoable record restores its base**, up to the deferral of its
commitment, which the record does not hold, and the projection cache, which is
rebuilt from the captured entries. -/
theorem Undoable.restore_eq [Platform] (h : Undoable r base g) (hRebuild : Rebuildable base) :
    r.restore g = { base with
      projectionCache :=
        rolledBackCache base r.projectionSparse (g.projectionCache.map Prod.snd)
      deferProjectionCommitment := g.deferProjectionCommitment } := by
  have hFull : r.projectionFull = none := h.scalar_eq GraphRollback.projectionFull fun _ => rfl
  have hIndexes := hRebuild _ h.rebuildInput
  have hFrame := (r.restoreRows { g with projectionCache := none }).rebuildIndexes_frame
  have hOrder : g.admissionOrder.take r.admissionOrderLen = base.admissionOrder := by
    rw [h.scalar_eq GraphRollback.admissionOrderLen fun _ => rfl]
    exact (List.prefix_iff_eq_take.mp h.order).symm
  rw [← h.restoredCache_eq]
  unfold GraphRollback.restore
  rw [hFull]
  simp only [Option.isSome_none, Bool.false_eq_true, if_false]
  generalize (r.restoreRows { g with projectionCache := none }).rebuildIndexes = rebuilt
    at hIndexes hFrame
  rw [h.restoreRows_eq] at hFrame
  have hBase : rebuilt = { (base.withIndexes rebuilt).withLedger rebuilt with
      deferProjectionCommitment := g.deferProjectionCommitment
      coldHistorySinceRetirement := g.coldHistorySinceRetirement } := hFrame
  rw [hIndexes] at hBase
  rw [hOrder, h.scalar_eq GraphRollback.admittedBytes fun _ => rfl,
    h.scalar_eq GraphRollback.admittedFactCount fun _ => rfl,
    h.scalar_eq GraphRollback.derivedIndexBytes fun _ => rfl,
    h.scalar_eq GraphRollback.quarantinedBytes fun _ => rfl,
    h.scalar_eq GraphRollback.admittedDependencyEdges fun _ => rfl,
    h.scalar_eq GraphRollback.quarantinedDependencyEdges fun _ => rfl,
    h.scalar_eq GraphRollback.indexedFactCount fun _ => rfl,
    h.scalar_eq GraphRollback.indexedRevision fun _ => rfl,
    h.scalar_eq GraphRollback.coldHistorySinceRetirement fun _ => rfl,
    h.scalar_eq GraphRollback.stagedColdPending fun _ => rfl]
  rw [hBase]
  rfl

end MyOwnMesh.Semantic

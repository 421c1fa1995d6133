import MyOwnMesh.Semantic.Batch
import MyOwnMesh.Semantic.Commitment
import MyOwnMesh.Semantic.Undo

/-!
# The steps of a run

Whatever program the owner runs on a graph without staged history, the graph
goes through few kinds of steps: the projection is read or taken out, a fact is
stored or has to wait, a waiter leaves the quarantine, a refused input is undone
inside a group. `Step` lists them with all the program has checked by then, and
`Trace` is any sequence of them. The programs are related to traces once, in the
modules that follow; an invariant is then shown for the steps only.
-/

namespace MyOwnMesh.Semantic

open Foundation

variable [Platform]

/-- The projections an admission that stores nothing can leave in the cache. -/
def EarlyCurrent (g : FactGraph) (current : Option Projection) : Prop :=
  current = none ∨ current = some (Projection.fromGraph g) ∨
    current = g.projectionCache.map Prod.snd

/-- The verdict on a candidate, reached in `g` or in `g` with a fresh projection. -/
def JudgedIn (g : FactGraph) (fact : SignedFact) : Prop :=
  ∃ s, CacheOnly g s ∧ (s.projection = g.projection ∨ s.projection = Projection.fromGraph g) ∧
    Judged s fact

/-- One step of a run. A refused input that was not stored is always undone as
an early one; `late` says whether the run may also undo a stored one. -/
inductive Step (late : Prop) : FactGraph → FactGraph → Prop
  | observe {g : FactGraph} : Step late g g.observed
  | take {g : FactGraph} : Step late g { g with projectionCache := none }
  | wait {g : FactGraph} {fact : SignedFact} {cost : FactCost} {retainedReserved : Bool} :
      Offered g fact cost → cost.missing ≠ [] →
      g.isAuthorizedSigner fact.content.author = true →
      g.reserveQuarantine fact cost retainedReserved = .ok () →
      Step late g (g.storeQuarantined fact cost retainedReserved)
  | insert {g t g' : FactGraph} {fact : SignedFact} {cost : FactCost} {retainedReserved : Bool} :
      Screened g fact cost → cost.missing = [] → JudgedIn g fact → CacheOnly g t →
      Inserted t fact cost retainedReserved g.projectionForUpdate [] g' → Step late g g'
  | withdraw {g : FactGraph} {id : FactId} {fact : SignedFact} {cost : FactCost} :
      g.quarantined[id]? = some fact → g.factCost fact = .ok cost →
      Step late g (g.unstoreQuarantined fact id cost)
  | release {g : FactGraph} {author : DeviceId} {cost : FactCost} :
      Step late g (g.releaseAuthor author cost)
  | unready {g : FactGraph} {id : FactId} : g.quarantined[id]? = none →
      Step late g { g with readyQuarantine := g.readyQuarantine.erase id }
  | defer {g : FactGraph} : Step late g g.beginDeferredProjectionCommitment
  | settle {g : FactGraph} : Step late g g.finishDeferredProjectionCommitment
  | undo {g : FactGraph} {impact : ProjectionImpact} {current : Option Projection} :
      g.deferProjectionCommitment = true → late ∨ EarlyCurrent g current →
      Step late g { g with
        projectionCache := rolledBackCache g
          (g.projectionForUpdate.sparseEntries impact.cells impact.subjects) current }

def Trace (late : Prop) : FactGraph → FactGraph → Prop := Relation.ReflTransGen (Step late)

/-! ## What a step changes -/

/-- `g'` has the facts, indexes, counters and configuration of `g`: it may differ
in the quarantine, the author accounts and the cached projection. -/
def CoreFrame (g g' : FactGraph) : Prop :=
  g' = { g with
    quarantined := g'.quarantined
    quarantinedBytes := g'.quarantinedBytes
    quarantinedDependencyEdges := g'.quarantinedDependencyEdges
    quarantinedByAuthor := g'.quarantinedByAuthor
    retainedByAuthor := g'.retainedByAuthor
    quarantineMissing := g'.quarantineMissing
    waitingByDependency := g'.waitingByDependency
    readyQuarantine := g'.readyQuarantine
    deferProjectionCommitment := g'.deferProjectionCommitment
    projectionCache := g'.projectionCache }

namespace CoreFrame

omit [Platform]

variable {g g' g'' : FactGraph}

theorem refl (g : FactGraph) : CoreFrame g g := rfl

theorem trans (h : CoreFrame g g') (h' : CoreFrame g' g'') : CoreFrame g g'' := by
  unfold CoreFrame at *
  rw [h', h]

theorem of_cacheOnly (h : CacheOnly g g') : CoreFrame g g' := by
  rw [h]
  rfl

private theorem foldl_wakeWaiter (dependency : FactId) (waiters : List FactId) (g : FactGraph) :
    CoreFrame g (waiters.foldl (FactGraph.wakeWaiter dependency) g) := by
  apply List.foldlRecOn
  · exact refl g
  · intro current h waiter _
    refine trans h ?_
    unfold FactGraph.wakeWaiter
    split <;> rfl

theorem wakeDependency (g : FactGraph) (dependency : FactId) :
    CoreFrame g (g.wakeDependency dependency) := by
  unfold FactGraph.wakeDependency
  split
  · exact refl g
  · rename_i waiters _
    have hErased : CoreFrame g
        { g with waitingByDependency := g.waitingByDependency.erase dependency } := rfl
    exact hErased.trans (foldl_wakeWaiter dependency waiters.toList _)

theorem storeQuarantined (g : FactGraph) (fact : SignedFact) (cost : FactCost)
    (retainedReserved : Bool) : CoreFrame g (g.storeQuarantined fact cost retainedReserved) := by
  cases retainedReserved <;> rfl

end CoreFrame

/-- A stored candidate: the graph right after an insertion, up to quarantine,
author accounts and cache. -/
structure Stored (g : FactGraph) (fact : SignedFact) (cost : FactCost) (g' : FactGraph) : Prop where
  exists_plan : ∃ retainedReserved changes bytes,
    InsertPlan g fact cost retainedReserved changes bytes ∧
    g.admittedBytes + cost.encodedBytes + bytes ≤ min u64Max g.policyLimits.maxDatabaseBytes ∧
    CoreFrame (storedGraph g fact cost changes bytes none) g'

variable {fact : SignedFact} {cost : FactCost}

variable {g g' : FactGraph}

theorem Inserted.stored {retainedReserved : Bool} {previous : Projection}
    (h : Inserted g fact cost retainedReserved previous [] g') : Stored g fact cost g' := by
  obtain ⟨changes, bytes, hPlan, hU64, hFits, rfl⟩ := h.exists_plan
  refine ⟨retainedReserved, changes, bytes, hPlan,
    Nat.le_trans (Nat.le_add_right _ _) (Nat.le_min.mpr ⟨hU64, hFits⟩), ?_⟩
  refine CoreFrame.trans ?_ (CoreFrame.wakeDependency _ _)
  cases retainedReserved <;> rfl

/-- Plans and counters do not read the cache. -/
theorem Stored.of_cacheOnly {t : FactGraph} (hCache : CacheOnly g t) (h : Stored t fact cost g') :
    Stored g fact cost g' := by
  rw [hCache] at h
  obtain ⟨retainedReserved, changes, bytes, ⟨hResidency, hPlan, hReserved⟩, hFits, hFrame⟩ :=
    h.exists_plan
  refine ⟨retainedReserved, changes, bytes, ⟨hResidency, hPlan, hReserved⟩, hFits, ?_⟩
  unfold storedGraph at hFrame ⊢
  rw [storeAdmitted_eq] at hFrame ⊢
  exact hFrame

/-- **A step stores a candidate or leaves facts and indexes alone.** -/
theorem Step.core {late : Prop} (h : Step late g g') :
    CoreFrame g g' ∨ ∃ fact cost, Screened g fact cost ∧ cost.missing = [] ∧ JudgedIn g fact ∧
      Stored g fact cost g' := by
  cases h with
  | observe => exact .inl (.of_cacheOnly (observed_cacheOnly g))
  | wait _ _ _ _ => exact .inl (.storeQuarantined g _ _ _)
  | insert hScreened hMissing hJudged hCache hInserted =>
    exact .inr ⟨_, _, hScreened, hMissing, hJudged, hInserted.stored.of_cacheOnly hCache⟩
  | _ => exact .inl rfl

/-! ## Shape of the quarantine -/

/-- A cost lists the dependencies that are not resident. -/
theorem factCost_missing (h : g.factCost fact = .ok cost) :
    cost.missing = fact.dependencies.filter fun dependency => !g.facts.contains dependency := by
  unfold FactGraph.factCost at h
  simp only [except_bind_eq_ok] at h
  obtain ⟨_, -, _, -, _, -, _, -, _, -, _, -, h⟩ := h
  cases h
  rfl

theorem missing_subset (h : g.factCost fact = .ok cost) : cost.missing ⊆ fact.dependencies := by
  rw [factCost_missing h]
  exact fun d hd => (List.mem_filter.mp hd).1

/-- Waiting facts are stored under their identities and miss dependencies only. -/
def QuarantineShape (g : FactGraph) : Prop :=
  ∀ (id : FactId) (fact : SignedFact), g.quarantined[id]? = some fact →
    fact.id = id ∧ ∀ d ∈ g.quarantineMissing.getD id ∅, d ∈ fact.dependencies

namespace QuarantineShape

variable {g g' : FactGraph}

omit [Platform] in
theorem congr (h : QuarantineShape g) (hFacts : g'.quarantined = g.quarantined)
    (hMissing : g'.quarantineMissing = g.quarantineMissing) : QuarantineShape g' := by
  unfold QuarantineShape
  rw [hFacts, hMissing]
  exact h

omit [Platform] in
theorem storeQuarantined (h : QuarantineShape g) {retainedReserved : Bool}
    (hMissing : cost.missing ⊆ fact.dependencies) :
    QuarantineShape (g.storeQuarantined fact cost retainedReserved) := by
  have hStored : QuarantineShape (g.storeQuarantined fact cost true) := by
    intro id waiter hGet
    have hGet : (g.quarantined.insert fact.id fact)[id]? = some waiter := hGet
    change _ ∧ ∀ d ∈ (g.quarantineMissing.insert fact.id _).getD id ∅, _
    rw [getElem?_insert_eq] at hGet
    rw [getD_eq_getElem?_getD, getElem?_insert_eq]
    by_cases hEq : fact.id = id
    · rw [if_pos hEq] at hGet ⊢
      cases hGet
      exact ⟨hEq, fun d hd => hMissing (mem_setOfList.mp hd)⟩
    · rw [if_neg hEq] at hGet ⊢
      rw [← getD_eq_getElem?_getD]
      exact h id waiter hGet
  cases retainedReserved with
  | true => exact hStored
  | false => exact hStored.congr rfl rfl

omit [Platform] in
theorem unstoreQuarantined (h : QuarantineShape g) {id : FactId} :
    QuarantineShape (g.unstoreQuarantined fact id cost) := by
  intro a waiter hGet
  have hGet : (g.quarantined.erase id)[a]? = some waiter := hGet
  change _ ∧ ∀ d ∈ (g.quarantineMissing.erase id).getD a ∅, _
  rw [getElem?_erase_eq] at hGet
  rw [getD_eq_getElem?_getD, getElem?_erase_eq]
  by_cases hEq : id = a
  · rw [if_pos hEq] at hGet
    cases hGet
  · rw [if_neg hEq] at hGet ⊢
    rw [← getD_eq_getElem?_getD]
    exact h a waiter hGet

omit [Platform] in
private theorem wakeWaiter (h : QuarantineShape g) (dependency waiter : FactId) :
    QuarantineShape (g.wakeWaiter dependency waiter) := by
  unfold FactGraph.wakeWaiter
  cases hGet : g.quarantineMissing[waiter]? with
  | none => exact h
  | some missing =>
    intro id fact hFact
    obtain ⟨hId, hDeps⟩ := h id fact hFact
    refine ⟨hId, fun d hd => ?_⟩
    dsimp only at hd
    rw [getD_eq_getElem?_getD, getElem?_insert_eq] at hd
    by_cases hEq : waiter = id
    · rw [if_pos hEq, Option.getD_some] at hd
      refine hDeps d ?_
      rw [getD_eq_getElem?_getD, ← hEq, hGet]
      exact (mem_erase_iff.mp hd).2
    · rw [if_neg hEq, ← getD_eq_getElem?_getD] at hd
      exact hDeps d hd

omit [Platform] in
theorem wakeDependency (h : QuarantineShape g) (dependency : FactId) :
    QuarantineShape (g.wakeDependency dependency) := by
  unfold FactGraph.wakeDependency
  split
  · exact h
  · rename_i waiters _
    refine List.foldlRecOn waiters.toList _ (h.congr rfl rfl) fun g hg waiter _ => ?_
    exact hg.wakeWaiter dependency waiter

theorem inserted (h : QuarantineShape g) {retainedReserved : Bool} {previous : Projection}
    (hInserted : Inserted g fact cost retainedReserved previous [] g') : QuarantineShape g' := by
  obtain ⟨changes, bytes, -, -, -, rfl⟩ := hInserted.exists_plan
  refine wakeDependency ?_ fact.id
  have hStored : QuarantineShape (storedGraph g fact cost changes bytes (some (g.generation + 1,
      storedProjection g fact cost changes bytes previous []))) := by
    unfold storedGraph
    rw [storeAdmitted_eq]
    exact h.congr rfl rfl
  cases retainedReserved with
  | true => exact hStored
  | false => exact hStored.congr rfl rfl

theorem step {late : Prop} (hStep : Step late g g') (h : QuarantineShape g) :
    QuarantineShape g' := by
  cases hStep with
  | observe =>
    rw [observed_cacheOnly g]
    exact h.congr rfl rfl
  | wait hOffered _ _ _ => exact h.storeQuarantined (missing_subset hOffered.costed)
  | insert _ _ _ hCache hInserted =>
    refine inserted ?_ hInserted
    rw [hCache]
    exact h.congr rfl rfl
  | withdraw _ _ => exact h.unstoreQuarantined
  | _ => exact h.congr rfl rfl

end QuarantineShape

/-! ## Current indexes and commitments -/

omit [Platform] in
theorem CoreFrame.indexesCurrent_eq (h : CoreFrame g g') :
    g'.indexesCurrent = g.indexesCurrent := by
  rw [h]
  rfl

omit [Platform] in
theorem storedGraph_indexesCurrent (g : FactGraph) (fact : SignedFact) (cost : FactCost)
    (changes : AuthorityProvenance) (bytes : Nat) (cache : Option (Nat × Projection)) :
    (storedGraph g fact cost changes bytes cache).indexesCurrent = true := by
  unfold storedGraph FactGraph.indexesCurrent
  rw [storeAdmitted_eq]
  simp

theorem Step.indexesCurrent {late : Prop} (h : Step late g g')
    (hCurrent : g.indexesCurrent = true) : g'.indexesCurrent = true := by
  rcases h.core with hFrame | ⟨fact, cost, -, -, -, hStored⟩
  · rw [hFrame.indexesCurrent_eq]
    exact hCurrent
  · obtain ⟨_, changes, bytes, -, -, hFrame⟩ := hStored.exists_plan
    rw [hFrame.indexesCurrent_eq]
    exact storedGraph_indexesCurrent g fact cost changes bytes none

omit [Platform] in
/-- Waking waiters leaves the cached projection alone. -/
theorem wakeDependency_cache (g : FactGraph) (dependency : FactId) :
    (g.wakeDependency dependency).projectionCache = g.projectionCache ∧
      (g.wakeDependency dependency).deferProjectionCommitment = g.deferProjectionCommitment := by
  unfold FactGraph.wakeDependency
  split
  · exact ⟨rfl, rfl⟩
  · rename_i waiters _
    refine List.foldlRecOn (motive := fun h : FactGraph => h.projectionCache = g.projectionCache ∧
      h.deferProjectionCommitment = g.deferProjectionCommitment) waiters.toList _ ⟨rfl, rfl⟩
      fun h hh waiter _ => ?_
    unfold FactGraph.wakeWaiter
    split <;> exact hh

/-- The commitment of the cached projection is the one of its maps, outside a
deferred interval. -/
def CommittedCache (g : FactGraph) : Prop :=
  g.deferProjectionCommitment = false → ∀ generation projection,
    g.projectionCache = some (generation, projection) → projection.Committed

namespace CommittedCache

variable {g g' : FactGraph}

theorem congr (h : CommittedCache g) (hCache : g'.projectionCache = g.projectionCache)
    (hDefer : g'.deferProjectionCommitment = g.deferProjectionCommitment) : CommittedCache g' := by
  unfold CommittedCache
  rw [hCache, hDefer]
  exact h

theorem of_none (h : g.projectionCache = none) : CommittedCache g := by
  intro _ generation projection hGet
  rw [h] at hGet
  cases hGet

theorem observed (h : CommittedCache g) : CommittedCache g.observed := by
  unfold FactGraph.observed
  split
  · intro _ generation projection hGet
    cases hGet
    exact Projection.committed_fromGraph g
  · exact h

theorem readOnly (h : CommittedCache g) (hRead : ReadOnly g g') : CommittedCache g' := by
  rcases hRead with rfl | rfl
  · exact h
  · exact h.observed

theorem projectionForUpdate (h : CommittedCache g) (hDefer : g.deferProjectionCommitment = false) :
    g.projectionForUpdate.Committed := by
  unfold FactGraph.projectionForUpdate FactGraph.cachedProjection
  cases hCache : g.projectionCache with
  | none => exact Projection.committed_fromGraph g
  | some entry =>
    dsimp only
    split
    · exact h hDefer _ _ hCache
    · exact Projection.committed_fromGraph g

theorem inserted {retainedReserved : Bool} {previous : Projection}
    (hPrevious : g.deferProjectionCommitment = false → previous.Committed)
    (hInserted : Inserted g fact cost retainedReserved previous [] g') : CommittedCache g' := by
  obtain ⟨changes, bytes, -, -, -, rfl⟩ := hInserted.exists_plan
  have hStored : CommittedCache (storedGraph g fact cost changes bytes (some (g.generation + 1,
      storedProjection g fact cost changes bytes previous []))) := by
    intro hDefer generation projection hGet
    cases hGet
    have hDeferred : (storedGraph g fact cost changes bytes none).deferProjectionCommitment =
        false := hDefer
    unfold storedProjection FactGraph.updatedProjection
    rw [if_neg (by rw [hDeferred]; exact Bool.false_ne_true)]
    refine Projection.Committed.updateFromGraph (hPrevious ?_) _ _ _
    unfold storedGraph at hDeferred
    rwa [storeAdmitted_eq] at hDeferred
  cases retainedReserved with
  | true => exact hStored.congr (wakeDependency_cache _ _).1 (wakeDependency_cache _ _).2
  | false => exact hStored.congr (wakeDependency_cache _ _).1 (wakeDependency_cache _ _).2

theorem step {late : Prop} (hStep : Step late g g') (h : CommittedCache g) : CommittedCache g' := by
  cases hStep with
  | observe => exact h.observed
  | take => exact .of_none rfl
  | @wait fact cost retainedReserved _ _ _ _ =>
    cases retainedReserved <;> exact h.congr rfl rfl
  | @insert t _ fact cost retainedReserved _ _ _ hCache hInserted =>
    refine inserted (fun hDefer => h.projectionForUpdate ?_) hInserted
    rw [hCache] at hDefer
    exact hDefer
  | defer => exact fun hDefer => by cases hDefer
  | settle =>
    intro _ generation projection hGet
    obtain ⟨⟨_, cached⟩, -, hEq⟩ := Option.map_eq_some_iff.mp hGet
    cases hEq
    exact Projection.committed_rebuildCommitment cached
  | undo hDefer _ =>
    intro hNot
    rw [show _ = true from hDefer] at hNot
    cases hNot
  | _ => exact h.congr rfl rfl

end CommittedCache

end MyOwnMesh.Semantic

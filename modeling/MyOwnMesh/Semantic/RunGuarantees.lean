import MyOwnMesh.Semantic.ExclusiveCells
import MyOwnMesh.Semantic.History

/-!
# What every run guarantees

Whatever its owner has called, a graph is what its facts make it: indexes, ledger
and the projection from scratch do not depend on the order of admission or on what
was given up in between. A call that is given up changes the cache only, and what
was admitted stays, in an order that follows the dependencies.
-/

namespace MyOwnMesh.Semantic

open Foundation FactGraph

/-! ## Reservations -/

section Reservations

variable {g : FactGraph} {fact : SignedFact} {cost : FactCost}

private theorem le_of_checkedTotal {dimension : SemanticCapacityDimension}
    {current additional limit total : Nat}
    (h : checkedTotal dimension current additional limit = .ok total) :
    current + additional ≤ limit := by
  by_contra hOver
  unfold checkedTotal checkCapacity at h
  rw [if_pos (Nat.lt_of_not_le hOver)] at h
  dsimp only at h
  split at h <;> cases h

private theorem reserveEdges_ok (h : g.reserveEdges cost = .ok ()) :
    g.admittedDependencyEdges + g.quarantinedDependencyEdges + cost.dependencyEdges ≤
      g.policyLimits.maxDependencyEdges := by
  unfold reserveEdges at h
  split at h
  · cases h
  obtain ⟨_, h, -⟩ := except_bind_eq_ok.mp h
  exact le_of_checkedTotal h

private theorem reserveQuarantine_ok {reserved : Bool}
    (h : g.reserveQuarantine fact cost reserved = .ok ()) :
    g.quarantined.size + 1 ≤ g.policyLimits.maxQuarantinedFacts ∧
      g.quarantinedBytes + cost.encodedBytes ≤ g.policyLimits.maxQuarantinedBytes ∧
      g.reserveEdges cost = .ok () := by
  replace h : g.reserveQuarantine fact cost true = .ok () := by
    cases reserved
    exacts [(except_bind_eq_ok.mp h).choose_spec.2, h]
  obtain ⟨_, hFacts, h⟩ := except_bind_eq_ok.mp h
  obtain ⟨_, hBytes, h⟩ := except_bind_eq_ok.mp h
  obtain ⟨⟨⟩, hEdges, -⟩ := except_bind_eq_ok.mp h
  exact ⟨le_of_checkedTotal hFacts, le_of_checkedTotal hBytes, hEdges⟩

private theorem reserveAdmitted_ok {reserved : Bool}
    (h : g.reserveAdmitted fact cost reserved = .ok ()) :
    g.admittedFactCount + 1 ≤ g.policyLimits.maxAdmittedFacts ∧
      g.admittedBytes + cost.encodedBytes ≤ g.policyLimits.maxAdmittedBytes ∧
      g.reserveEdges cost = .ok () := by
  replace h : g.reserveAdmitted fact cost true = .ok () := by
    cases reserved
    exacts [(except_bind_eq_ok.mp h).choose_spec.2, h]
  obtain ⟨_, hFacts, h⟩ := except_bind_eq_ok.mp h
  obtain ⟨_, hBytes, h⟩ := except_bind_eq_ok.mp h
  dsimp only at h
  split at h
  · cases h
  · obtain ⟨_, -, hEdges⟩ := except_bind_eq_ok.mp h
    exact ⟨le_of_checkedTotal hFacts, le_of_checkedTotal hBytes, hEdges⟩

end Reservations

/-! ## Reading a graph -/

/-- The facts and indexes of `g`, in another graph. -/
private def reading (base g : FactGraph) : FactGraph :=
  { base.withIndexes g with
    facts := g.facts
    indexedFactCount := g.facts.size
    factsRevision := 0
    indexedRevision := 0 }

section Reading

variable {g : FactGraph} (base : FactGraph) (hCurrent : g.indexesCurrent = true)
include hCurrent

private theorem reading_current : (reading base g).indexesCurrent = g.indexesCurrent := by
  rw [hCurrent]
  simp [FactGraph.indexesCurrent, reading]

private theorem authoritative_reading :
    (reading base g).factIsAuthoritative = g.factIsAuthoritative := by
  have hLineage (subject : DeviceId) :
      (reading base g).authorityLineage subject = g.authorityLineage subject := by
    unfold authorityLineage rawAuthorityUseHeads
    rw [reading_current base hCurrent]
    rfl
  funext id
  unfold factIsAuthoritative authoritativeFor
  simp only [hLineage]
  rfl

private theorem cellHeads_reading : (reading base g).cellHeads = g.cellHeads := by
  funext cell
  unfold cellHeads rawCellHeads
  rw [reading_current base hCurrent, authoritative_reading base hCurrent]
  rfl

/-- The projection from scratch reads facts and indexes only. -/
private theorem fromGraph_reading [Platform] :
    Projection.fromGraph (reading base g) = Projection.fromGraph g := by
  have hCell : (reading base g).projectedCell = g.projectedCell := by
    funext cell
    unfold projectedCell
    rw [cellHeads_reading base hCurrent]
    rfl
  have hStandDown : (reading base g).projectedStandDown = g.projectedStandDown := by
    unfold projectedStandDown indexedStandDownCandidates projectedMembershipRestoration
    rw [reading_current base hCurrent, authoritative_reading base hCurrent,
      cellHeads_reading base hCurrent]
    rfl
  unfold Projection.fromGraph indexedCells
  rw [hCell, hStandDown, reading_current base hCurrent]
  rfl

end Reading

variable [Platform] {g g' : FactGraph}

/-- **Equal facts, equal state.** Two runs that admitted the same facts, in whatever
orders and under whatever limits, have the same indexes and ledger, the same cell
heads and the same projection from scratch. -/
theorem derived_state_of_facts {bootstrap bootstrap' : VerifiedBootstrap}
    {limits limits' : SemanticAdmissionPolicy} (h : Reachable bootstrap limits g)
    (h' : Reachable bootstrap' limits' g') (hFacts : g'.facts = g.facts) :
    g.withIndexes g' = g ∧ g'.derivedIndexBytes = g.derivedIndexBytes ∧
      g'.cellHeads = g.cellHeads ∧ Projection.fromGraph g' = Projection.fromGraph g := by
  have hIndexes := h.settled.exact.indexes_eq h'.settled.exact hFacts
  have hReading : reading g g' = reading g g := by
    unfold reading
    rw [hIndexes, hFacts]
    rfl
  refine ⟨hIndexes, ?_, ?_, ?_⟩
  · calc g'.derivedIndexBytes = indexBytes (g.withIndexes g') := h'.settled.ledger
      _ = g.derivedIndexBytes := by rw [hIndexes, h.settled.ledger]
  · rw [← cellHeads_reading g h'.settled.current, hReading, cellHeads_reading g h.settled.current]
  · rw [← fromGraph_reading g h'.settled.current, hReading, fromGraph_reading g h.settled.current]

omit [Platform] in
/-- The two grants of one role, admitted in either order. -/
theorem derived_state_of_facts_siblings : let _ : Platform := samplePlatform
    Projection.fromGraph (runCalls (.fromBootstrapWithPolicy sampleBootstrap sampleLimits)
      (siblingGrants.reverse.map .admitted)) = Projection.fromGraph siblingGraph := by
  have hFacts : let _ : Platform := samplePlatform
      (runCalls (.fromBootstrapWithPolicy sampleBootstrap sampleLimits)
        (siblingGrants.reverse.map .admitted)).facts = siblingGraph.facts := by
    decide +kernel
  intro _
  exact (derived_state_of_facts ⟨siblingGrants.map .admitted, rfl⟩
    ⟨siblingGrants.reverse.map .admitted, rfl⟩ hFacts).2.2.2

/-! ## What holds after any run -/

variable (bootstrap : VerifiedBootstrap) (limits : SemanticAdmissionPolicy)
  (calls : List OwnerCall)

private theorem settled_after :
    Settled (runCalls (.fromBootstrapWithPolicy bootstrap limits) calls) :=
  Reachable.settled ⟨calls, rfl⟩

/-- **What is admitted is sound.** After any run every admitted fact is verified and of
this mesh, all it depends on is admitted, and none depends on itself. -/
theorem admitted_facts_sound (calls : List OwnerCall) :
    let g := runCalls (.fromBootstrapWithPolicy bootstrap limits) calls
    CausalFacts g.facts ∧ ∀ (id : FactId) (fact : SignedFact), g.facts[id]? = some fact →
      Credible g.contextId fact :=
  ⟨(settled_after bootstrap limits calls).causal, (settled_after bootstrap limits calls).credible⟩

/-- **The quarantine indexes are exact.** After any run they say what each waiting fact
still misses, who waits for what, and which are ready. -/
theorem quarantine_indexes_exact :
    QuarantineExact (runCalls (.fromBootstrapWithPolicy bootstrap limits) calls) :=
  (settled_after bootstrap limits calls).quarantine

/-- **Rebuilding changes nothing.** After any run a rebuild finds the indexes as they
were maintained. -/
theorem rebuild_finds_maintained_indexes (calls : List OwnerCall) :
    let g := runCalls (.fromBootstrapWithPolicy bootstrap limits) calls
    g.withIndexes g.rebuildIndexes = g :=
  (settled_after bootstrap limits calls).rebuildable _
    ⟨rfl, rfl, rfl, rfl, rfl, rfl, rfl, fun _ _ _ => Iff.rfl⟩

/-- **The projection is committed.** After any run the commitment a reader is handed is
the one of the cells and stand-downs handed with it. -/
theorem projection_committed_after_run :
    (runCalls (.fromBootstrapWithPolicy bootstrap limits) calls).projection.Committed := by
  have hSettled := settled_after bootstrap limits calls
  unfold FactGraph.projection
  rw [if_pos hSettled.current]
  exact hSettled.committed.projectionForUpdate hSettled.deferral

/-! ## Calls that are given up -/

private theorem journaled_dropped (h : Settled g) (fact : SignedFact) :
    CacheOnly g ((OwnerCall.journaled fact false).run g) := by
  have hMeets : Meets _ _ (exec (admitJournaled fact) g) :=
    admitJournaled_spec h.restorable g rfl
  unfold OwnerCall.run
  dsimp only
  split
  · rename_i journal after hExec
    rw [hExec] at hMeets
    obtain ⟨s, hRead, hJournaled⟩ := hMeets
    show CacheOnly g (journal.undo after)
    -- a journal that stored nothing has nothing to undo
    rcases hJournaled.undone (h.restorable.readOnly hRead).rebuildable with
      hSame | ⟨current, hUndone⟩
    · rw [hSame]
      exact hRead.cacheOnly
    · exact hRead.cacheOnly.trans hUndone.cacheOnly
  · rename_i error after hExec
    rw [hExec] at hMeets
    -- refused by the checks, or undone after an apply phase that failed
    rcases hMeets with hRead | ⟨s, hRead, current, hUndone, -⟩
    · exact hRead.cacheOnly
    · exact hRead.cacheOnly.trans hUndone.cacheOnly

private theorem grouped_dropped (h : Settled g) (facts : List SignedFact) :
    CacheOnly g ((OwnerCall.grouped facts false).run g) := by
  have hMeets : Meets _ _ (exec (admitJournaledBatchWithHistory facts []) g) :=
    admitJournaledBatchWithHistory_spec h.toSound h.deferral g rfl
  unfold OwnerCall.run
  dsimp only
  split
  · rename_i journal after hExec
    rw [hExec] at hMeets
    obtain ⟨current, hUndone⟩ := hMeets.undone
    exact hUndone.cacheOnly
  · rename_i error after hExec
    rw [hExec] at hMeets
    rcases hMeets with rfl | ⟨current, hUndone⟩
    · exact rfl
    · exact hUndone.cacheOnly

/-- **A call that is given up leaves no trace.** After a dropped journal or a failed call
only the cached projection may differ. -/
theorem given_up_call_changes_cache_only (fact : SignedFact) (facts : List SignedFact) :
    let g := runCalls (.fromBootstrapWithPolicy bootstrap limits) calls
    CacheOnly g ((OwnerCall.journaled fact false).run g) ∧
      CacheOnly g ((OwnerCall.grouped facts false).run g) ∧
      (∀ error after, exec (admitFact fact) g = (.error error, after) → CacheOnly g after) ∧
      ∀ error after, exec retryQuarantined g = (.error error, after) → CacheOnly g after := by
  intro g
  have hSettled : Settled g := settled_after bootstrap limits calls
  refine ⟨journaled_dropped hSettled fact, grouped_dropped hSettled facts,
    fun error after hExec => ?_, fun error after hExec => ?_⟩
  · have hMeets : Meets _ _ (exec (admitFact fact) g) :=
      admitFact_spec hSettled.current hSettled.rebuildable hSettled.committed g rfl
    rw [hExec] at hMeets
    obtain ⟨current, -, hUndone⟩ := hMeets
    exact hUndone.cacheOnly
  · have hMeets := retryQuarantined_spec hSettled.current hSettled.rebuildable
      hSettled.quarantine.shape hSettled.committed g rfl
    rw [hExec] at hMeets
    obtain ⟨current, hUndone⟩ := hMeets
    exact hUndone.cacheOnly

/-! ## What was admitted stays -/

/-- What every step keeps without reading the cache holds after any calls. -/
theorem runCalls_keeps {P : FactGraph → Prop} (hStep : ∀ {g g'}, Step True g g' → P g → P g')
    (hCache : ∀ {g g'}, CacheOnly g g' → P g → P g') (calls : List OwnerCall) :
    ∀ g : FactGraph, Settled g → P g → P (runCalls g calls) := by
  have hTrace {g g' : FactGraph} (hTrace : Trace True g g') (h : P g) : P g' := by
    induction hTrace with
    | refl => exact h
    | tail _ hLast ih => exact hStep hLast ih
  induction calls with
  | nil => exact fun g _ h => h
  | cons call calls ih =>
    intro g hSettled h
    have hEffect := call.run_effect hSettled.toSound hSettled.deferral
    refine ih _ (hSettled.effect hEffect) ?_
    cases hEffect with
    | kept hKept _ => exact hTrace hKept h
    | undone hRead hUndone => exact hCache (hRead.cacheOnly.trans hUndone.cacheOnly) h

theorem Stored.order {fact : SignedFact} {cost : FactCost} (h : Stored g fact cost g') :
    g'.admissionOrder = g.admissionOrder ++ [fact.id] := by
  obtain ⟨_, changes, bytes, -, -, hFrame⟩ := h.exists_plan
  rw [hFrame]
  unfold storedGraph
  rw [storeAdmitted_eq]

/-- The log lists the admitted facts, each after its dependencies. -/
structure Logged (g : FactGraph) : Prop where
  listed : ∀ id : FactId, id ∈ g.admissionOrder ↔ id ∈ g.facts
  once : g.admissionOrder.Nodup
  causal : ∀ (earlier : List FactId) (id : FactId), earlier ++ [id] <+: g.admissionOrder →
    dependenciesIn g.facts id ⊆ earlier

/-- A step appends to the log at most the fact it inserts. -/
theorem Logged.step (hStep : Step True g g') (h : Logged g) : Logged g' := by
  rcases hStep.core with hFrame | ⟨fact, cost, hScreened, hMissing, -, hStored⟩
  · rw [hFrame]
    exact ⟨h.listed, h.once, h.causal⟩
  have hFacts := hStored.grown.1
  have hOrder := hStored.order
  have hNew : fact.id ∉ g.admissionOrder := fun hMem => hScreened.fresh ((h.listed _).mp hMem)
  refine ⟨fun id => ?_, ?_, fun earlier id hPrefix => ?_⟩
  · rw [hOrder, hFacts, List.mem_append, List.mem_singleton, h.listed, Std.ExtTreeMap.mem_insert,
      Std.LawfulEqOrd.compare_eq_iff_eq, or_comm, eq_comm]
  · rw [hOrder, List.nodup_append]
    exact ⟨h.once, List.nodup_singleton _, fun a ha b hb hEq =>
      hNew (List.mem_singleton.mp hb ▸ hEq ▸ ha)⟩
  · rw [hOrder, List.prefix_concat_iff] at hPrefix
    rcases hPrefix with hWhole | hPrefix
    · -- all the new fact depends on is resident, hence in the log before it
      obtain ⟨rfl, hLast⟩ := List.append_inj' hWhole rfl
      obtain rfl := List.singleton_inj.mp hLast
      have hGet : g'.facts[fact.id]? = some fact := by
        rw [hFacts, getElem?_insert_eq, if_pos rfl]
      rw [dependenciesIn_of_getElem? hGet]
      exact fun d hd => (h.listed d).mpr
        (dependencies_resident (factCost_missing hScreened.costed) hMissing d hd)
    · have hOld : fact.id ≠ id := fun hEq => hNew (hEq ▸ hPrefix.subset (by simp))
      have hSame : dependenciesIn g'.facts id = dependenciesIn g.facts id := by
        unfold dependenciesIn
        rw [hFacts, getElem?_insert_eq, if_neg hOld]
      rw [hSame]
      exact h.causal earlier id hPrefix

/-- **The admission log is causal.** After any run it lists the admitted facts once
each, every one after all it depends on. -/
theorem admission_log_causal :
    Logged (runCalls (.fromBootstrapWithPolicy bootstrap limits) calls) := by
  refine runCalls_keeps Logged.step (fun hCache h => ?_) calls _ ⟨empty_sound _ _ _ _, rfl⟩ ?_
  · rw [hCache]
    exact ⟨h.listed, h.once, h.causal⟩
  · refine ⟨fun id => ?_, List.nodup_nil, fun earlier id hPrefix => ?_⟩
    · simp [FactGraph.fromBootstrapWithPolicy, FactGraph.empty]
    · simp [FactGraph.fromBootstrapWithPolicy, FactGraph.empty] at hPrefix

/-- **Admission is final.** Whatever is called later, the log only grows, an admitted
fact stays, and so does the graph of its causal past. -/
theorem admission_final (more : List OwnerCall) :
    let g := runCalls (.fromBootstrapWithPolicy bootstrap limits) calls
    let g' := runCalls g more
    g.admissionOrder <+: g'.admissionOrder ∧ Within g.facts g'.facts ∧
      ∀ (id : FactId) (fact : SignedFact), g.facts[id]? = some fact →
        g'.exactPast fact = g.exactPast fact := by
  intro g g'
  have hSettled : Settled g := settled_after bootstrap limits calls
  have hKept : g.admissionOrder <+: g'.admissionOrder ∧ Within g.facts g'.facts ∧
      SameProject g g' := by
    refine runCalls_keeps (P := fun s => g.admissionOrder <+: s.admissionOrder ∧
        Within g.facts s.facts ∧ SameProject g s) (fun hStep h => ?_) (fun hCache h => ?_) more g
      hSettled ⟨List.prefix_refl _, fun _ _ h => h, .refl g⟩
    · rcases hStep.core with hFrame | ⟨fact, cost, hScreened, -, -, hStored⟩
      · refine ⟨?_, ?_, h.2.2.trans (.of_coreFrame hFrame)⟩ <;> rw [hFrame]
        exacts [h.1, h.2.1]
      · refine ⟨hStored.order ▸ h.1.trans (List.prefix_append ..), ?_,
          h.2.2.trans hStored.grown.2⟩
        rw [hStored.grown.1]
        exact fun a b hGet => within_insert hScreened.fresh a b (h.2.1 a b hGet)
    · refine ⟨?_, ?_, h.2.2.trans (.of_coreFrame (.of_cacheOnly hCache))⟩ <;> rw [hCache]
      exacts [h.1, h.2.1]
  exact ⟨hKept.1, hKept.2.1, fun id fact hGet =>
    exactPast_within hSettled.causal hKept.2.1 hKept.2.2 (hSettled.causal.closed hGet)⟩

/-! ## What the counters say -/

/-- The encoded bytes a fact is charged. -/
def chargedBytes (fact : SignedFact) : Nat := (Platform.encodedLen fact).getD 0

omit [Platform] in
/-- The dependency edges a fact is charged. -/
def chargedEdges (fact : SignedFact) : Nat :=
  fact.dependencies.length + fact.content.authorityUses.length

/-- Two counters are the sums over a fact map. -/
def Sums (facts : Facts) (bytes edges : Nat) : Prop :=
  bytes = mapSum chargedBytes facts ∧ edges = mapSum chargedEdges facts

/-- The counters are exact and within the limits. -/
structure Metered (g : FactGraph) : Prop where
  admitted : Sums g.facts g.admittedBytes g.admittedDependencyEdges
  quarantined : Sums g.quarantined g.quarantinedBytes g.quarantinedDependencyEdges
  admittedFacts : g.admittedFactCount ≤ g.policyLimits.maxAdmittedFacts
  admittedBytes : g.admittedBytes ≤ g.policyLimits.maxAdmittedBytes
  quarantinedFacts : g.quarantined.size ≤ g.policyLimits.maxQuarantinedFacts
  quarantinedBytes : g.quarantinedBytes ≤ g.policyLimits.maxQuarantinedBytes
  edges : g.admittedDependencyEdges + g.quarantinedDependencyEdges ≤
    g.policyLimits.maxDependencyEdges

section Counters

variable {fact : SignedFact} {cost : FactCost} {facts : Facts} {bytes edges : Nat}

private theorem factCost_charge (h : g.factCost fact = .ok cost) :
    cost.encodedBytes = chargedBytes fact ∧ cost.dependencyEdges = chargedEdges fact := by
  unfold FactGraph.factCost at h
  simp only [except_bind_eq_ok] at h
  obtain ⟨charge, hCharge, _, -, _, -, _, -, _, -, _, -, h⟩ := h
  cases h
  unfold factEncodedAndEdges checkedAddBytes at hCharge
  split at hCharge
  · cases hCharge
  · next hLen =>
    obtain ⟨_, hEdges, hCharge⟩ := except_bind_eq_ok.mp hCharge
    split at hEdges <;> cases hEdges
    cases hCharge
    exact ⟨by rw [chargedBytes, hLen]; rfl, rfl⟩

private theorem Sums.insert (h : Sums facts bytes edges) (hNew : fact.id ∉ facts)
    (hCost : g.factCost fact = .ok cost) :
    Sums (facts.insert fact.id fact) (bytes + cost.encodedBytes)
      (edges + cost.dependencyEdges) := by
  have hNone : facts[fact.id]? = none := Std.ExtTreeMap.getElem?_eq_none hNew
  have hBytes := mapSum_insert chargedBytes facts fact.id fact
  have hEdges := mapSum_insert chargedEdges facts fact.id fact
  rw [hNone] at hBytes hEdges
  rw [Sums, (factCost_charge hCost).1, (factCost_charge hCost).2, h.1, h.2]
  exact ⟨hBytes.symm, hEdges.symm⟩

private theorem Sums.erase {id : FactId} (h : Sums facts bytes edges)
    (hGet : facts[id]? = some fact) (hCost : g.factCost fact = .ok cost) :
    Sums (facts.erase id) (bytes - cost.encodedBytes) (edges - cost.dependencyEdges) := by
  have hSum (weight : SignedFact → Nat) :
      mapSum weight facts - weight fact = mapSum weight (facts.erase id) := by
    have hUpdate := mapSum_update weight facts (facts.erase id) id fun k hk => by
      rw [getElem?_erase_eq, if_neg (Ne.symm hk)]
    rw [getElem?_erase_eq, if_pos rfl, hGet] at hUpdate
    exact Nat.sub_eq_of_eq_add hUpdate.symm
  rw [Sums, (factCost_charge hCost).1, (factCost_charge hCost).2, h.1, h.2]
  exact ⟨hSum _, hSum _⟩

private theorem Metered.wakeDependency (h : Metered g) (d : FactId) :
    Metered (g.wakeDependency d) := by
  unfold FactGraph.wakeDependency
  split
  · exact h
  · refine List.foldlRecOn _ _ ⟨h.1, h.2, h.3, h.4, h.5, h.6, h.7⟩ fun s hs waiter _ => ?_
    unfold wakeWaiter
    split
    exacts [hs, ⟨hs.1, hs.2, hs.3, hs.4, hs.5, hs.6, hs.7⟩]

/-- A step keeps the counters exact and within the limits. -/
theorem Metered.step (hStep : Step True g g') (h : Metered g) : Metered g' := by
  cases hStep with
  | observe =>
    rw [observed_cacheOnly g]
    exact ⟨h.1, h.2, h.3, h.4, h.5, h.6, h.7⟩
  | @wait fact cost reserved hOffered _ _ hReserved =>
    obtain ⟨hFacts, hBytes, hEdges⟩ := reserveQuarantine_ok hReserved
    have hSums := h.quarantined.insert hOffered.notQuarantined hOffered.costed
    have hTotal := reserveEdges_ok hEdges
    rw [Nat.add_assoc] at hTotal
    have hSize : (g.quarantined.insert fact.id fact).size ≤ _ :=
      Std.ExtTreeMap.size_insert_le.trans hFacts
    cases reserved <;> exact ⟨h.1, hSums, h.3, h.4, hSize, hBytes, hTotal⟩
  | @insert t _ fact cost reserved hScreened _ _ hCache hInserted =>
    rw [hCache] at hInserted
    obtain ⟨changes, bytes, hPlan, -, -, rfl⟩ := hInserted.exists_plan
    obtain ⟨hFacts, hBytes, hEdges⟩ := reserveAdmitted_ok hPlan.reserved
    have hSums := h.admitted.insert hScreened.fresh hScreened.costed
    have hTotal := reserveEdges_ok hEdges
    rw [Nat.add_right_comm] at hTotal
    refine Metered.wakeDependency ?_ fact.id
    unfold storedGraph
    rw [storeAdmitted_eq]
    cases reserved <;> exact ⟨hSums, h.2, hFacts, hBytes, h.5, h.6, hTotal⟩
  | @withdraw id fact cost hGet hCost =>
    have hSize : (g.quarantined.erase id).size ≤ g.quarantined.size := Std.ExtTreeMap.size_erase_le
    exact ⟨h.1, h.quarantined.erase hGet hCost, h.3, h.4, hSize.trans h.5,
      (Nat.sub_le ..).trans h.6, (Nat.add_le_add_left (Nat.sub_le ..) _).trans h.7⟩
  | _ => exact ⟨h.1, h.2, h.3, h.4, h.5, h.6, h.7⟩

end Counters

/-- **The counters are exact.** After any run bytes and edges are the sums over the
facts admitted and waiting, and none exceeds its limit. -/
theorem counters_exact_within_limits (calls : List OwnerCall) :
    let g := runCalls (.fromBootstrapWithPolicy bootstrap limits) calls
    Metered g ∧ g.admittedFactCount = g.facts.size := by
  refine ⟨runCalls_keeps Metered.step (fun hCache h => ?_) calls _ ⟨empty_sound _ _ _ _, rfl⟩ ?_,
    (settled_after bootstrap limits calls).count⟩
  · rw [hCache]
    exact ⟨h.1, h.2, h.3, h.4, h.5, h.6, h.7⟩
  · exact ⟨⟨rfl, rfl⟩, ⟨rfl, rfl⟩, Nat.zero_le _, Nat.zero_le _, Nat.zero_le _, Nat.zero_le _,
      Nat.zero_le _⟩

end MyOwnMesh.Semantic

import MyOwnMesh.Semantic.History

/-!
# The residency ledger

`derivedIndexBytes` is kept up to date with the exact change of every insertion, restored by
a rollback and measured again by a retirement. As long as no history has been retired it is
what a scan of all indexes finds. After a retirement it need not be: a stand-down proof that
was retired and comes back as a witness is not indexed again, and the rollback of an unrelated
request then indexes it without charging it.
-/

namespace MyOwnMesh.Semantic

open Foundation

variable [Platform]

/-! ## The scan -/

omit [Platform] in
/-- A scan of one index adds its bytes, as long as the total is representable. -/
theorem residencyOf_eq_ok {κ β : Type} [Ord κ] [Std.TransOrd κ] (g : FactGraph)
    (index : OrdMap κ β) (inlineBytes valueBytes : Nat) (count : β → Nat) (total : Nat)
    (hFits : total + mapSum (fun values => inlineBytes + count values * valueBytes) index ≤
      u64Max) :
    g.residencyOf index inlineBytes valueBytes count total =
      .ok (total + mapSum (fun values => inlineBytes + count values * valueBytes) index) := by
  unfold FactGraph.residencyOf
  unfold mapSum at hFits ⊢
  generalize index.toList = entries at hFits ⊢
  induction entries generalizing total with
  | nil => simp [pure, Except.pure]
  | cons entry entries ih =>
    obtain ⟨key, values⟩ := entry
    simp only [List.map_cons, List.sum_cons] at hFits ih ⊢
    have hEntry : g.checkedEntryBytes inlineBytes (count values) valueBytes =
        .ok (inlineBytes + count values * valueBytes) := by
      rw [checkedEntryBytes_eq, checkedSum, if_pos (by omega)]
    have hAdd : g.checkedAddBytes total (inlineBytes + count values * valueBytes) =
        .ok (total + (inlineBytes + count values * valueBytes)) := by
      rw [checkedAddBytes_eq, checkedSum, if_pos (by omega)]
    rw [List.foldlM_cons]
    refine except_bind_eq_ok.mpr ⟨_, except_bind_eq_ok.mpr ⟨_, hEntry, hAdd⟩, ?_⟩
    rw [ih _ (by omega), Nat.add_assoc]

theorem foldlM_cells_eq_ok (g : FactGraph) (cells : List ExclusiveCell) (total : Nat)
    (hFits : total + cells.length * Platform.sizeCell ≤ u64Max) :
    cells.foldlM (fun total _ => g.checkedAddBytes total Platform.sizeCell) total =
      .ok (total + cells.length * Platform.sizeCell) := by
  induction cells generalizing total with
  | nil => simp [pure, Except.pure]
  | cons cell cells ih =>
    rw [List.length_cons, Nat.succ_mul] at hFits ⊢
    have hAdd : g.checkedAddBytes total Platform.sizeCell = .ok (total + Platform.sizeCell) := by
      rw [checkedAddBytes_eq, checkedSum, if_pos (by omega)]
    rw [List.foldlM_cons]
    refine except_bind_eq_ok.mpr ⟨_, hAdd, ?_⟩
    rw [ih _ (by omega), Nat.add_assoc, Nat.add_comm Platform.sizeCell]

variable {g : FactGraph}

/-- The scan finds the bytes of all indexes. -/
theorem logicalIndexResidencyBytes_eq_ok (hFits : indexBytes g ≤ u64Max) :
    g.logicalIndexResidencyBytes = .ok (indexBytes g) := by
  have hSize : g.cellsIndex.toList.length = g.cellsIndex.size := Std.ExtTreeSet.length_toList
  unfold indexBytes setBytes rowBytes at hFits ⊢
  rw [← hSize] at hFits ⊢
  unfold FactGraph.logicalIndexResidencyBytes
  simp only [except_bind_eq_ok]
  refine ⟨_, residencyOf_eq_ok g g.cellHeadsIndex _ _ _ _ (by omega),
    _, residencyOf_eq_ok g g.authorityHeadsIndex _ _ _ _ (by omega),
    _, residencyOf_eq_ok g g.authorityFactsIndex _ _ _ _ (by omega),
    _, residencyOf_eq_ok g g.authoritySelectorIndex _ _ _ _ (by omega),
    _, residencyOf_eq_ok g g.authorityProvenance _ _ _ _ (by omega),
    _, foldlM_cells_eq_ok g _ _ (by omega), ?_⟩
  rw [residencyOf_eq_ok g g.standDownIndex _ _ _ _ (by omega), Nat.zero_add]

/-! ## Insertions -/

/-- What an insertion charged is what it was planned to charge. -/
theorem admitFact_charged {after : FactGraph} {fact : SignedFact} (h : Sound g)
    (hRun : exec (admitFact fact) g = (.ok .inserted, after)) :
    ∃ delta, g.exactIndexResidencyDelta fact = .ok delta ∧
      after.derivedIndexBytes + delta.removed = g.derivedIndexBytes + delta.added := by
  have hSpec : Triple (· = g) (admitFact fact) _ _ :=
    admitFact_spec h.current h.rebuildable h.committed
  have hMeets := hSpec g rfl
  rw [hRun] at hMeets
  have hAdmitted : Admitted g fact false none none [] .inserted after := hMeets
  cases hAdmitted with
  | inserted _ _ _ _ hRead hInserted =>
    obtain ⟨_, changes, bytes, hPlan, -, hFrame⟩ :=
      (hInserted.stored.of_cacheOnly hRead.cacheOnly).exists_plan
    obtain ⟨delta, hDelta, hRemoved, hBytes⟩ := hPlan.residency
    have hCharged : after.derivedIndexBytes = bytes := by
      rw [hFrame]
      rfl
    refine ⟨delta, hDelta, ?_⟩
    omega

/-! ## Retirement -/

/-- The scan reads nothing of what is set after the measurement. -/
theorem measured_scan (kept : FactGraph) (bytes count revision cold staged : Nat)
    (cache : Option (Nat × Projection)) :
    FactGraph.logicalIndexResidencyBytes
      { kept with
        derivedIndexBytes := bytes, indexedFactCount := count, factsRevision := revision,
        indexedRevision := revision, coldHistorySinceRetirement := cold,
        stagedColdPending := staged, projectionCache := cache } =
      kept.logicalIndexResidencyBytes := rfl

/-- A retirement leaves what a scan of the retained indexes finds. -/
theorem retireColdHistory_measured {bytes : Nat}
    (h : g.logicalIndexResidencyBytes = .ok g.derivedIndexBytes)
    (hScan : g.retireColdHistory.logicalIndexResidencyBytes = .ok bytes) :
    g.retireColdHistory.derivedIndexBytes = bytes := by
  unfold FactGraph.retireColdHistory at hScan ⊢
  split at hScan
  next hKept =>
    rw [if_pos hKept]
    exact Except.ok.inj (h.symm.trans hScan)
  next hRun =>
    rw [if_neg hRun]
    dsimp only at hScan ⊢
    rw [measured_scan] at hScan
    rw [hScan]
    rfl

/-! ## The ledger -/

theorem Reachable.call {bootstrap : VerifiedBootstrap} {limits : SemanticAdmissionPolicy}
    (h : Reachable bootstrap limits g) (call : OwnerCall) :
    Reachable bootstrap limits (call.run g) := by
  obtain ⟨calls, rfl⟩ := h
  refine ⟨calls ++ [call], ?_⟩
  rw [runCalls, runCalls, List.foldl_append]
  rfl

/-- **The residency ledger is exact while no history is retired.** In every graph reached
without a retirement, rolled back requests included, the ledger is what a scan finds; an
insertion changes the scan by exactly the change computed before it; and retirement leaves a
ledger that a scan of what it retains confirms. -/
theorem index_residency_exact {bootstrap : VerifiedBootstrap} {limits : SemanticAdmissionPolicy}
    {g : FactGraph} (h : Reachable bootstrap limits g) :
    g.logicalIndexResidencyBytes = .ok g.derivedIndexBytes ∧
    (∀ (fact : SignedFact) (after : FactGraph),
      exec (admitFact fact) g = (.ok .inserted, after) →
      ∃ delta total total', g.exactIndexResidencyDelta fact = .ok delta ∧
        g.logicalIndexResidencyBytes = .ok total ∧
        after.logicalIndexResidencyBytes = .ok total' ∧
        total' + delta.removed = total + delta.added) ∧
    ∀ bytes, g.retireColdHistory.logicalIndexResidencyBytes = .ok bytes →
      g.retireColdHistory.derivedIndexBytes = bytes := by
  have hSettled := h.settled
  have hExact : ∀ {g : FactGraph}, Reachable bootstrap limits g →
      g.logicalIndexResidencyBytes = .ok g.derivedIndexBytes := by
    intro g hReached
    have hSound := hReached.settled
    rw [hSound.ledger]
    exact logicalIndexResidencyBytes_eq_ok (Nat.le_trans hSound.fits (Nat.min_le_left _ _))
  refine ⟨hExact h, fun fact after hRun => ?_, fun bytes => retireColdHistory_measured (hExact h)⟩
  obtain ⟨delta, hDelta, hCharged⟩ := admitFact_charged hSettled.toSound hRun
  have hNext : OwnerCall.run g (.admitted fact) = after := congrArg Prod.snd hRun
  have hAfter : Reachable bootstrap limits after := hNext ▸ h.call (.admitted fact)
  exact ⟨delta, _, _, hDelta, hExact h, hExact hAfter, hCharged⟩

/-! ## A proof that comes back -/

section Sample

omit [Platform]

/-- The root evicts a device on the evidence of an attestation, grants it roles again and
admits it again; an attestation then cites the old eviction proof, and last comes a grant to
another device. -/
def returningProof : List SignedFact :=
  let root := sampleDevice 1
  let target := sampleDevice 3
  let grant := sampleFact root (.roleGrant target .member) [] []
  let evidence := sampleFact root (.attestation target grant.id .evict root [])
    [(root, [grant.id])] []
  let proof := sampleFact root (.evictionProof target [evidence.id])
    [(root, [evidence.id]), (target, [grant.id])] []
  let raised := sampleFact root (.roleGrant target .controller)
    [(root, [proof.id]), (target, [proof.id])] []
  let lowered := sampleFact root (.roleGrant target .member)
    [(root, [raised.id]), (target, [raised.id])] []
  let restored := sampleFact root (.membershipAdmit target)
    [(root, [lowered.id]), (target, [lowered.id])] []
  let citing := sampleFact root (.attestation target proof.id .approve root [])
    [(root, [restored.id])] []
  let other := sampleFact root (.roleGrant (sampleDevice 4) .member) [(root, [citing.id])] []
  [grant, evidence, proof, raised, lowered, restored, citing, other]

/-- Limits that retire history after every request. -/
def retiringLimits : SemanticAdmissionPolicy := { sampleLimits with maxHotHistoryFacts := 1 }

def restoredGraph : FactGraph :=
  @runCalls samplePlatform (.fromBootstrapWithPolicy sampleBootstrap retiringLimits)
    ((returningProof.take 6).map .admitted)

theorem restoredGraph_reachable :
    @Reachable samplePlatform sampleBootstrap retiringLimits restoredGraph :=
  ⟨(returningProof.take 6).map .admitted, rfl⟩

/-- The eviction proof is retired, and staged again for the attestation that cites it, with
its causal history: the first three facts. The commit retires what is not needed. -/
def citedGraph : FactGraph :=
  match exec (@admitJournaledBatchWithHistory samplePlatform [returningProof[6]]
      (returningProof.take 3)) (@FactGraph.retireColdHistory samplePlatform restoredGraph) with
  | (.ok journal, after) => @AggregateAdmissionJournal.commit samplePlatform journal after
  | (.error _, after) => after

def rolledBack (g : FactGraph) : FactGraph :=
  @OwnerCall.run samplePlatform g (.grouped [returningProof[7]] false)

/-- Before any retirement a rollback leaves an exact ledger. -/
theorem index_residency_exact_rolledBack :
    @FactGraph.logicalIndexResidencyBytes samplePlatform (rolledBack restoredGraph) =
      .ok (rolledBack restoredGraph).derivedIndexBytes := by
  let _ : Platform := samplePlatform
  have hReachable := restoredGraph_reachable.call (.grouped [returningProof[7]] false)
  exact (index_residency_exact hReachable).1

/-- After a retirement it need not: the proof that came back is indexed by the rollback, and
not charged. -/
theorem rolled_back_proof_uncharged :
    @Reachable samplePlatform sampleBootstrap retiringLimits restoredGraph ∧
      returningProof[2].id ∉ (@FactGraph.retireColdHistory samplePlatform restoredGraph).facts ∧
      returningProof[6].id ∈ citedGraph.facts ∧
      @FactGraph.logicalIndexResidencyBytes samplePlatform citedGraph =
        .ok citedGraph.derivedIndexBytes ∧
      (rolledBack citedGraph).derivedIndexBytes = 30 ∧
      @FactGraph.logicalIndexResidencyBytes samplePlatform (rolledBack citedGraph) = .ok 32 :=
  ⟨restoredGraph_reachable, by decide +kernel⟩

end Sample

end MyOwnMesh.Semantic

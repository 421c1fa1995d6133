import MyOwnMesh.Semantic.RetrySpec

/-!
# What a journaled admission does

A preflight only reads. The apply phase takes the cached projection out, admits
the candidate and retries the waiters it wakes; a failure of any part leaves the
graph before it, up to the restored cache. The journal of a success records the
way back, so that dropping it later has the same effect.
-/

namespace MyOwnMesh.Semantic

open Foundation

variable [Platform]

/-! ## Screening after a read -/

section Reads

variable {g g' : FactGraph} {fact : SignedFact}

theorem ReadOnly.semanticNoop_eq (h : ReadOnly g g') (body : FactBody) :
    g'.semanticNoop body = g.semanticNoop body := by
  unfold FactGraph.semanticNoop FactGraph.evaluator
  rw [h.projection_eq, h.cacheOnly]
  rfl

/-- A borrowed graph is the live one. -/
theorem causalPast_graph {causal : CausalAdmissionGraph} (h : g.causalPast fact = .ok causal)
    (hBorrowed : causal.borrowed = true) : causal.graph = g := by
  unfold FactGraph.causalPast at h
  split at h
  · cases h
    rfl
  · dsimp only at h
    split at h
    · cases h
    · split at h
      · cases h
        rfl
      · obtain ⟨owned, -, h⟩ := except_bind_eq_ok.mp h
        cases h
        cases hBorrowed

/-- The graph a candidate is judged in does not depend on the cache: an owned
closure is the same, and a live graph is borrowed with its own cache. -/
theorem CacheOnly.causalPast_eq (h : CacheOnly g g') :
    g'.causalPast fact = (g.causalPast fact).map fun causal =>
      if causal.borrowed then { causal with graph := g' } else causal := by
  obtain ⟨cache, rfl⟩ : ∃ cache, g' = { g with projectionCache := cache } := ⟨_, h⟩
  have hHeads : ({ g with projectionCache := cache } : FactGraph).currentHeadsAreComplete fact =
    g.currentHeadsAreComplete fact := rfl
  have hScoped (ids : List FactId) :
    ({ g with projectionCache := cache } : FactGraph).scopedGraph ids = g.scopedGraph ids := rfl
  unfold FactGraph.causalPast
  rw [hHeads]
  dsimp only
  split
  · rfl
  · split
    · rfl
    · split
      · rfl
      · rw [hScoped]
        cases g.scopedGraph _ <;> rfl

theorem ReadOnly.candidateNoop_eq (h : ReadOnly g g') :
    candidateNoop g' fact = candidateNoop g fact := by
  unfold candidateNoop
  split
  · rw [h.cacheOnly.causalPast_eq]
    cases hCausal : g.causalPast fact with
    | error error => rfl
    | ok causal =>
      refine congrArg Except.ok ?_
      dsimp only
      split
      · next hBorrowed => rw [causalPast_graph hCausal hBorrowed, h.semanticNoop_eq]
      · rfl
  · rw [h.semanticNoop_eq]

theorem ReadOnly.screened {cost : FactCost} (h : ReadOnly g g') (hScreened : Screened g fact cost) :
    Screened g' fact cost :=
  ⟨hScreened.toOffered.of_cacheOnly h.cacheOnly, fun hMissing => by
    rw [h.candidateNoop_eq]
    exact hScreened.effective hMissing⟩

end Reads

/-! ## The preflight -/

/-- What a preflight found, in the graph it leaves. -/
inductive Preflighted (g : FactGraph) (fact : SignedFact) : AdmissionPreflight → Prop
  | alreadyPresent : g.facts[fact.id]? = some fact ∨ g.quarantined[fact.id]? = some fact →
      Preflighted g fact (.new g fact .alreadyPresent none)
  | inserted {cost : FactCost} : Screened g fact cost → cost.missing = [] →
      g.reserveAdmitted fact cost false = .ok () →
      Preflighted g fact (.new g fact .inserted (some cost))
  | quarantined {cost : FactCost} : Screened g fact cost → cost.missing ≠ [] →
      g.isAuthorizedSigner fact.content.author = true →
      g.reserveQuarantine fact cost false = .ok () →
      Preflighted g fact (.new g fact (.quarantined cost.missing) (some cost))

variable {g : FactGraph} {fact : SignedFact}

/-- **A preflight** only reads. -/
theorem preflightAdmission_spec :
    Triple (· = g) (preflightAdmission fact)
      (fun preflight g' => ReadOnly g g' ∧ Preflighted g' fact preflight)
      (fun _ g' => ReadOnly g g') := by
  unfold preflightAdmission
  refine triple_read (triple_bind (Q := fun _ g' => g' = g) ?_ fun _ => ?_)
  · unfold GraphM.refuseIf
    exact triple_ite (fun _ => triple_throw fun _ hs => .of_eq hs) fun _ => triple_pure fun _ hs => hs
  refine triple_bind screenFact_spec fun screened => triple_assume fun hScreened => ?_
  refine triple_of_forall fun s hs => ?_
  cases screened with
  | none =>
    refine triple_read (triple_pure ?_)
    rintro _ rfl
    refine ⟨hs, .alreadyPresent ?_⟩
    rw [hs.cacheOnly]
    exact hScreened
  | some cost =>
    refine triple_read (triple_ite (fun hMissing => ?_) fun hMissing => ?_)
    · refine triple_bind (Q := fun _ g' => g' = s ∧ s.reserveAdmitted fact cost false = .ok ())
        (triple_check (fun _ ha _ ht => ⟨ht, ha⟩) fun _ _ _ ht => ht ▸ hs) fun _ => ?_
      refine triple_pure ?_
      rintro _ ⟨rfl, hReserve⟩
      exact ⟨hs, .inserted (hs.screened hScreened) (List.isEmpty_iff.mp hMissing) hReserve⟩
    · refine triple_bind (checkQuarantineSigner_spec hs) fun _ => triple_assume fun hSigner => ?_
      refine triple_of_forall fun t ht => ?_
      refine triple_bind (Q := fun _ g' => g' = t ∧ s.reserveQuarantine fact cost false = .ok ())
        (triple_check (fun _ ha _ hu => ⟨hu, ha⟩) fun _ _ _ hu => hu ▸ ht) fun _ => ?_
      refine triple_pure ?_
      rintro _ ⟨rfl, hReserve⟩
      have hNew : ∀ u, ReadOnly g u → ∀ admission validated,
          AdmissionPreflight.new u fact admission validated = .new g fact admission validated := by
        intro u hu _ _
        rw [hu.cacheOnly]
        rfl
      rw [hNew s hs, ← hNew _ ht]
      refine ⟨ht, .quarantined (ht.screened hScreened)
        (fun hNil => hMissing (List.isEmpty_iff.mpr hNil)) ?_ ?_⟩
      · rw [ht.isAuthorizedSigner_eq, ← hs.isAuthorizedSigner_eq]
        exact hSigner
      · rw [hs.cacheOnly] at hReserve
        rw [ht.cacheOnly]
        exact hReserve

variable {preflight : AdmissionPreflight}

/-- A preflight stays valid for the graph it leaves. -/
theorem Preflighted.valid (h : Preflighted g fact preflight) :
    preflight.validateFor g fact = .ok () := by
  cases h <;> simp [AdmissionPreflight.validateFor, AdmissionPreflight.new]

theorem Preflighted.present (h : Preflighted g fact preflight)
    (hNone : preflight.admission = .alreadyPresent ∨ preflight.cost = none) :
    g.facts[fact.id]? = some fact ∨ g.quarantined[fact.id]? = some fact := by
  cases h with
  | alreadyPresent hPresent => exact hPresent
  | _ => simp [AdmissionPreflight.new] at hNone

theorem Preflighted.screened {cost : FactCost} (h : Preflighted g fact preflight)
    (hCost : preflight.cost = some cost) : Screened g fact cost := by
  cases h with
  | alreadyPresent _ => cases hCost
  | inserted hScreened _ _ => exact Option.some.inj hCost ▸ hScreened
  | quarantined hScreened _ _ _ => exact Option.some.inj hCost ▸ hScreened

/-! ## The record of an apply phase -/

/-- The sparse entries an apply phase captures. -/
def applyEntries (g : FactGraph) (fact : SignedFact) : SparseEntries :=
  let impact := potentialImpact g fact []
  g.projectionForUpdate.sparseEntries impact.cells impact.subjects

section Record

omit [Platform]

variable {g : FactGraph} {r r' : GraphRollback}

theorem Captures.of_cache {cache : Option (Nat × Projection)}
    (h : Captures { g with projectionCache := cache } r r') : Captures g r r' :=
  { h with
    covered := fun base hBase => by
      obtain ⟨hf, hq, hm, hw, hr, hqa, hra, hp, hah, hch⟩ := h.covered base
        ⟨hBase.facts, hBase.quarantined, hBase.missing, hBase.waiting, hBase.ready,
          hBase.quarantinedByAuthor, hBase.retainedByAuthor, hBase.provenance,
          hBase.authorityHeads, hBase.cellHeads⟩
      exact ⟨hf, hq, hm, hw, hr, hqa, hra, hp, hah, hch⟩ }

/-- The first sparse capture records exactly its entries. -/
theorem captureProjectionSparse_new {entries : SparseEntries}
    (h : r.projectionSparse = ⟨∅, ∅⟩) :
    (r.captureProjectionSparse entries).projectionSparse = entries := by
  unfold GraphRollback.captureProjectionSparse
  dsimp only
  rw [h]
  have hCells : entries.cells ∪ ∅ = entries.cells :=
    Std.ExtTreeMap.ext_getElem? fun k => by simp [Std.ExtTreeMap.getElem?_union]
  have hStandDown : entries.standDown ∪ ∅ = entries.standDown :=
    Std.ExtTreeMap.ext_getElem? fun k => by simp [Std.ExtTreeMap.getElem?_union]
  rw [hCells, hStandDown]

theorem Undoable.captureProjectionSparse {base : FactGraph} (h : Undoable r base g)
    (entries : SparseEntries) : Undoable (r.captureProjectionSparse entries) base g :=
  h.reframed _ _ _

/-- The record of an apply phase without staged history covers its admission. -/
theorem applyRollback_spec (g : FactGraph) (fact : SignedFact) (cost : FactCost)
    (entries : SparseEntries) :
    Undoable (applyRollback g fact cost entries [] none) g g ∧
      (applyRollback g fact cost entries [] none).projectionSparse = entries ∧
      (applyRollback g fact cost entries [] none).HasAdmission g fact cost.missing := by
  let closure := (GraphRollback.new g).captureWaiterClosure { g with projectionCache := none }
    (g.readyQuarantine.toList ++ [fact.id])
  let sparse := closure.captureProjectionSparse entries
  have hClosure : Captures g (GraphRollback.new g) closure :=
    Captures.of_cache (GraphRollback.captureWaiterClosure_spec _ _ _).1
  obtain ⟨hFact, hRow, -⟩ := sparse.captureFact_spec g fact.id
  obtain ⟨hProvenance, hIndexes⟩ :=
    (sparse.captureFact g fact.id).captureProvenanceAdmission_spec g fact
  let indexed := (sparse.captureFact g fact.id).captureProvenanceAdmission g fact
  obtain ⟨hAuthor, hHasAuthor⟩ := indexed.captureAuthor_spec g fact.content.author
  let own := indexed.captureAuthor g fact.content.author
  have hOwn : Captures g sparse own := (hFact.trans hProvenance).trans hAuthor
  -- The last captures depend on whether the fact is stored or has to wait.
  obtain ⟨hLast, hWaiters, hMissing⟩ : Captures g own (applyRollback g fact cost entries [] none) ∧
      (cost.missing = [] → (applyRollback g fact cost entries [] none).HasWaiters g fact.id) ∧
      ∀ d ∈ cost.missing, d ∈ (applyRollback g fact cost entries [] none).waitingByDependency := by
    have hEq : applyRollback g fact cost entries [] none =
        if cost.missing.isEmpty then own.captureDependency g fact.id
        else cost.missing.foldl (fun r d => r.captureDependency g d) own := rfl
    rw [hEq]
    split
    · next hEmpty =>
        obtain ⟨hCaptures, hWaiters⟩ := own.captureDependency_spec g fact.id
        rw [List.isEmpty_iff.mp hEmpty]
        exact ⟨hCaptures, fun _ => hWaiters, by simp⟩
    · next hNonempty =>
        obtain ⟨hCaptures, hAll⟩ := own.captureDependencies_spec g cost.missing
        exact ⟨hCaptures, fun hNil => absurd (List.isEmpty_iff.mpr hNil) hNonempty,
          fun d hd => (hAll d hd).entry⟩
  refine ⟨?_, ?_, hLast.row _ (hAuthor.row _ (hProvenance.row _ hRow)), hLast.author _ hHasAuthor,
    hLast.indexes (hAuthor.indexes hIndexes), hWaiters, hMissing⟩
  · exact (((Undoable.new g).capture hClosure).captureProjectionSparse entries).capture
      (hOwn.trans hLast)
  · rw [(hOwn.trans hLast).sparse]
    exact captureProjectionSparse_new hClosure.sparse

end Record

/-! ## The apply phase -/

/-- Releasing no overlay changes nothing. -/
@[simp] theorem FactGraph.removeStagedCold_nil (g : FactGraph) : g.removeStagedCold [] = g :=
  if_pos rfl

/-- A graph whose mutations can be undone. -/
structure Restorable (g : FactGraph) : Prop where
  current : g.indexesCurrent = true
  rebuildable : Rebuildable g
  shape : QuarantineShape g
  committed : CommittedCache g

/-- What a journal of a success stands for: nothing for a stored fact, otherwise
the admission, the waiters it woke, and the way back. -/
inductive Journaled (g : FactGraph) (fact : SignedFact) : AdmissionJournal → FactGraph → Prop
  | present {journal : AdmissionJournal} :
      g.facts[fact.id]? = some fact ∨ g.quarantined[fact.id]? = some fact →
      journal.admission = .alreadyPresent → journal.stagedCold = [] → journal.rollback = none →
      Journaled g fact journal g
  | applied {journal : AdmissionJournal} {cost : FactCost} {r : GraphRollback} {mid g' : FactGraph} :
      Screened g fact cost →
      Admitted { g with projectionCache := none } fact false (some g.projectionForUpdate)
        (some cost) [] journal.admission mid →
      RetryRun mid g' → journal.stagedCold = [] → journal.rollback = some r →
      Retrying g (applyEntries g fact) r g' → Journaled g fact journal g'

/-- What a failed apply phase leaves, and what may have caused it: a refusal
before anything was stored, an exhausted capacity, or a waiter. -/
def ApplyFailed (g : FactGraph) (fact : SignedFact) (error : SemanticError)
    (g' : FactGraph) : Prop :=
  ∃ current, Undone g (applyEntries g fact) current g' ∧
    (EarlyCurrent g current ∨ error.isCapacity = true ∨
      ∃ s id, Trace False g s ∧ WaiterRefused s id error)

section Apply

variable {g : FactGraph} {fact : SignedFact} {entries : SparseEntries}
  {r : GraphRollback}

private theorem failApply_spec {α : Type} {error : SemanticError} {Q : α → FactGraph → Prop}
    {s : FactGraph} (hRebuild : Rebuildable g) (h : Retrying g (applyEntries g fact) r s)
    (hCause : EarlyCurrent g (s.projectionCache.map Prod.snd) ∨ error.isCapacity = true ∨
      ∃ s id, Trace False g s ∧ WaiterRefused s id error) :
    Triple (· = s) (failApply r [] error) Q (ApplyFailed g fact) := by
  unfold failApply
  refine triple_bind (Q := fun _ g' => ApplyFailed g fact error g') (triple_modify ?_)
    fun _ => triple_throw fun _ h => h
  rintro _ rfl
  rw [FactGraph.removeStagedCold_nil]
  exact ⟨_, h.undone hRebuild, hCause⟩

/-- The last check of an apply phase, on the size of its delta. -/
private theorem finishApply_spec {cost : FactCost} {admission : Admission} {mid s : FactGraph}
    {delta : FactGraph → SemanticDelta} {batchLimit budget : Nat} (hRebuild : Rebuildable g)
    (hScreened : Screened g fact cost)
    (hAdmitted : Admitted { g with projectionCache := none } fact false
      (some g.projectionForUpdate) (some cost) [] admission mid)
    (hRun : RetryRun mid s) (h : Retrying g (applyEntries g fact) r s) :
    Triple (· = s) (do
      let after ← get
      if !(delta after).isBoundedAndUnique batchLimit then
        failApply r [] (.capacityExceeded .readyBatch batchLimit (delta after).rows.length)
      return (({ rollback := some r, stagedCold := [], delta := delta after, admission } :
        AdmissionJournal), budget))
      (fun result => Journaled g fact result.1) (ApplyFailed g fact) := by
  refine triple_read (triple_ite (fun _ => ?_) fun _ => triple_pure ?_)
  · exact triple_bind (failApply_spec hRebuild h (.inr (.inl rfl))) fun _ =>
      triple_pure fun _ hFalse => hFalse
  · rintro _ rfl
    exact .applied hScreened hAdmitted hRun rfl rfl h

/-- **The apply phase** of a preflighted candidate, with no staged history. -/
theorem applyPreflightJournaled_spec {preflight : AdmissionPreflight}
    {impactStagedCold : Option (List FactId)} {budget : Nat} (hReady : Restorable g)
    (hPreflight : Preflighted g fact preflight) (hStaged : impactStagedCold.getD [] = []) :
    Triple (· = g) (applyPreflightJournaled fact preflight [] none impactStagedCold budget)
      (fun result => Journaled g fact result.1) (ApplyFailed g fact) := by
  unfold applyPreflightJournaled
  refine triple_bind (Q := fun _ g' => g' = g) (triple_modify fun s hs => ?_) fun _ => ?_
  · rw [hs]
    exact if_pos hReady.current
  rw [hStaged]
  refine triple_read (triple_bind (Q := fun _ g' => g' = g)
    (triple_check (fun _ _ _ ht => ht) fun e he => ?_) fun _ => ?_)
  · rw [hPreflight.valid] at he
    cases he
  split
  · next hAdmission =>
      refine triple_pure ?_
      rintro _ rfl
      exact .present (hPreflight.present (.inl hAdmission)) rfl rfl rfl
  · next hCost _ =>
      refine triple_pure ?_
      rintro _ rfl
      exact .present (hPreflight.present (.inr hCost)) rfl rfl rfl
  next cost hCost _ =>
  have hScreened := hPreflight.screened hCost
  obtain ⟨hUndoable, hSparse, hRecord⟩ := applyRollback_spec g fact cost (applyEntries g fact)
  have hTaken : Retrying g (applyEntries g fact)
      (applyRollback g fact cost (applyEntries g fact) [] none) { g with projectionCache := none } :=
    ⟨hUndoable.change (.of_cacheOnly rfl), hSparse, hReady.shape.congr rfl rfl, hReady.current,
      .of_none rfl, rfl⟩
  have hCosts {P : FactCost → Prop} (h : P cost) (other : FactCost)
      (hOther : CostOf { g with projectionCache := none } fact (some cost) other) : P other := by
    rcases hOther with hEq | ⟨hNone, -⟩
    · exact Option.some.inj hEq ▸ h
    · cases hNone
  have hRecorded := hCosts (P := fun other => GraphRollback.HasAdmission
    (applyRollback g fact cost (applyEntries g fact) [] none) { g with projectionCache := none } fact
      other.missing) ⟨hRecord.row, hRecord.author, ⟨hRecord.indexes.own, hRecord.indexes.related,
      hRecord.indexes.lineages, hRecord.indexes.cells⟩,
      fun hNil => ⟨(hRecord.waiters hNil).entry, (hRecord.waiters hNil).rows⟩, hRecord.dependencies⟩
  have hFresh := hCosts (P := fun _ => fact.id ∉ g.facts) hScreened.fresh
  refine triple_run rfl ?_
  refine triple_bind (triple_tryCatch (admitInnerWithProjectionStaged_spec hReady.current)
    fun error => triple_of_forall fun failed hFailed => ?_) fun admission => ?_
  · refine failApply_spec hReady.rebuildable
      (hTaken.failed (hFailed.changes hRecorded hFresh) hFailed) (.inl ?_)
    rcases hFailed.earlyCurrent with h | h | h
    · exact .inl h
    · exact .inr (.inl h)
    · exact .inl h
  refine triple_of_forall fun mid hMid => ?_
  have hChanges := hMid.changes hRecorded hFresh
  have hTrace : Trace False g mid := hMid.trace_taken hScreened
  have hStored : Retrying g (applyEntries g fact)
      (applyRollback g fact cost (applyEntries g fact) [] none) mid := by
    obtain ⟨hShape, hCurrent, hCommitted⟩ :=
      hTrace.kept hReady.shape hReady.current hReady.committed
    exact hTaken.change hChanges hShape hCurrent hCommitted
  refine triple_ite (fun _ => triple_ite (fun _ => ?_) fun _ => ?_) fun _ => ?_
  · exact triple_bind (Q := fun _ _ => False)
      (failApply_spec hReady.rebuildable hStored (.inr (.inl rfl)))
      fun _ => triple_of_forall fun _ hFalse => hFalse.elim
  · refine triple_read ?_
    generalize hRun : StateT.run (ExceptT.run
      (retryQuarantinedBatchBounded g.policyLimits.maxReadyBatch [])) _ = outcome
    have hMeets : Meets (fun _ => OnTrack g (applyEntries g fact) (RetryRun mid))
        (OffTrack g (applyEntries g fact) (RetryRun mid)) outcome :=
      hRun ▸ retryQuarantinedBatchBounded_spec (keptByRetry_run mid) _ _ ⟨hStored, .refl⟩
    obtain ⟨result, state⟩ := outcome
    cases result with
    | ok _ =>
      exact triple_run rfl (triple_run rfl
        (finishApply_spec hReady.rebuildable hScreened hMid hMeets.2 hMeets.1))
    | error error =>
      refine triple_run rfl (triple_bind (Q := fun _ _ => False)
        (failApply_spec hReady.rebuildable hMeets.1 (.inr ?_))
        fun _ => triple_of_forall fun _ hFalse => hFalse.elim)
      rcases hMeets.2 with hCapacity | ⟨s, id, hReached, hRefused⟩
      · exact .inl hCapacity
      · exact .inr ⟨s, id, hTrace.trans hReached.trace, hRefused⟩
  · exact triple_run rfl (finishApply_spec hReady.rebuildable hScreened hMid .refl hStored)

end Apply

/-! ## One journaled admission -/

theorem Restorable.readOnly {s : FactGraph} (h : Restorable g) (hRead : ReadOnly g s) :
    Restorable s := by
  refine ⟨?_, ?_, ?_, h.committed.readOnly hRead⟩
  · rw [hRead.cacheOnly]
    exact h.current
  · rw [hRead.cacheOnly]
    intro rows hRows
    have hBase := h.rebuildable rows ⟨hRows.facts, hRows.count, hRows.limits, hRows.staged,
      hRows.provenance, hRows.authorityHeads, hRows.cellHeads, hRows.selectors⟩
    exact congrArg (fun base : FactGraph => { base with projectionCache := s.projectionCache }) hBase
  · rw [hRead.cacheOnly]
    exact h.shape.congr rfl rfl

/-- **A journaled admission**: a read, then an apply phase. -/
theorem admitJournaled_spec (hReady : Restorable g) :
    Triple (· = g) (admitJournaled fact)
      (fun journal g' => ∃ s, ReadOnly g s ∧ Journaled s fact journal g')
      (fun error g' => ReadOnly g g' ∨ ∃ s, ReadOnly g s ∧ ApplyFailed s fact error g') := by
  unfold admitJournaled
  refine triple_bind (preflightAdmission_spec.weakenError fun _ _ h => .inl h) fun preflight => ?_
  refine triple_of_forall ?_
  rintro s ⟨hRead, hPreflight⟩
  have hApply : Triple (· = s) (applyPreflightJournaled fact preflight [] none none 0)
      (fun result => Journaled s fact result.1) (ApplyFailed s fact) :=
    applyPreflightJournaled_spec (hReady.readOnly hRead) hPreflight rfl
  refine triple_bind (hApply.weakenError fun _ _ h => .inr ⟨s, hRead, h⟩) fun result => ?_
  exact triple_pure fun _ h => ⟨s, hRead, h⟩

namespace Journaled

variable {late : Prop} {g g' : FactGraph} {fact : SignedFact} {journal : AdmissionJournal}

theorem trace (h : Journaled g fact journal g') : Trace late g g' := by
  cases h with
  | present _ _ _ _ => exact .refl
  | applied hScreened hAdmitted hRun _ _ _ =>
    exact (hAdmitted.trace_taken hScreened).trans hRun.trace

theorem deferral (h : Journaled g fact journal g') :
    g'.deferProjectionCommitment = g.deferProjectionCommitment := by
  cases h with
  | present _ _ _ _ => rfl
  | applied _ _ _ _ _ hRetrying => exact hRetrying.deferral

/-- Keeping the journal keeps the graph. -/
theorem commit_eq (h : Journaled g fact journal g') : journal.commit g' = g' := by
  have hStaged : journal.stagedCold = [] := by
    cases h <;> assumption
  unfold AdmissionJournal.commit
  rw [hStaged]
  rfl

/-- Dropping the journal leads back, up to the restored cache. -/
theorem undone (h : Journaled g fact journal g') (hRebuild : Rebuildable g) :
    journal.undo g' = g ∨ ∃ current, Undone g (applyEntries g fact) current (journal.undo g') := by
  unfold AdmissionJournal.undo
  cases h with
  | present _ _ hStaged hNone =>
    rw [hStaged, hNone]
    exact .inl (FactGraph.removeStagedCold_nil g)
  | applied _ _ _ hStaged hSome hRetrying =>
    rw [hStaged, hSome, FactGraph.removeStagedCold_nil]
    exact .inr ⟨_, hRetrying.undone hRebuild⟩

end Journaled

end MyOwnMesh.Semantic

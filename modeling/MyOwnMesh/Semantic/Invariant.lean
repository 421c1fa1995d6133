import MyOwnMesh.Semantic.JournalSpec
import MyOwnMesh.Semantic.QuarantineSpec

/-!
# The invariant of a run

A graph without cold history is sound: its facts are verified, closed under
dependencies and acyclic, its indexes are those of the facts, its byte ledger is
the size of the indexes, and its quarantine indexes are exact. Every step keeps
this, and a sound graph can be rebuilt from its rows, so every failed or dropped
mutation leads back to it.
-/

namespace MyOwnMesh.Semantic

open Foundation

variable [Platform]

/-- What admission has checked of a resident fact by itself. -/
structure Credible (context : MeshContextId) (fact : SignedFact) : Prop where
  verified : fact.verify = .ok ()
  context : fact.content.meshContext = context
  selects : ∀ subject selected, fact.content.body.lineageSelector = some (subject, selected) →
    selected ∈ fact.content.body.support

/-- The facts of a graph, their indexes and their ledger. -/
structure SoundFacts (g : FactGraph) : Prop where
  causal : CausalFacts g.facts
  credible : ∀ (id : FactId) (fact : SignedFact), g.facts[id]? = some fact →
    Credible g.contextId fact
  exact : GraphExact g
  count : g.admittedFactCount = g.facts.size
  staged : g.stagedColdPending = 0
  current : g.indexesCurrent = true
  ledger : g.derivedIndexBytes = indexBytes g
  fits : indexBytes g ≤ min u64Max g.policyLimits.maxDatabaseBytes

/-- A graph without cold history, between any two steps. -/
structure Sound (g : FactGraph) : Prop extends SoundFacts g where
  quarantine : QuarantineExact g
  committed : CommittedCache g

/-! ## Sound graphs can be rebuilt -/

namespace SoundFacts

variable {g g' : FactGraph}

theorem selectedResident (h : SoundFacts g) : SelectedResident g.facts := by
  intro selector selected hSelected
  obtain ⟨⟨subject, _⟩, hSelector, rfl⟩ := Option.map_eq_some_iff.mp hSelected
  obtain ⟨fact, hGet, hBody⟩ := Option.bind_eq_some_iff.mp hSelector
  exact h.causal.closed hGet _ (SignedFact.mem_dependencies_of_support
    ((h.credible _ fact hGet).selects subject _ hBody))

theorem tableFits (h : SoundFacts g) : TableFits g g.authorityProvenance := by
  have hPart : mapSum rowBytes g.authorityProvenance ≤ indexBytes g := by
    unfold indexBytes
    omega
  have hFits := Nat.le_min.mp h.fits
  exact ⟨hPart.trans hFits.1, hPart.trans hFits.2⟩

/-- **A sound graph is rebuilt from its rows.** -/
theorem rebuildable (h : SoundFacts g) : Rebuildable g := by
  intro rows hRows
  have hFacts : rows.rebuildIndexes.facts = g.facts := by
    rw [rows.rebuildIndexes_frame]
    exact hRows.facts
  have hFull : ProvenanceOf rows.facts g.authorityProvenance := by
    rw [hRows.facts]
    exact h.exact.provenance
  refine h.exact.indexes_eq (FactGraph.rebuildIndexes_exact ?_ ?_ ?_ hFull ?_ ?_) hFacts
  · rw [hRows.facts]
    exact h.causal
  · rw [hRows.facts]
    exact h.selectedResident
  · rw [hRows.staged]
    exact h.staged
  · exact ⟨h.tableFits.1, hRows.limits ▸ h.tableFits.2⟩
  · rw [hRows.count, hRows.facts, h.count]

/-- The facts and indexes are all that counts. -/
theorem of_coreFrame (h : SoundFacts g) (hFrame : CoreFrame g g') : SoundFacts g' := by
  obtain ⟨⟨hAuthority, hSelectors, hCells, hStandDown⟩, ⟨hCellHeads, hAuthorityHeads⟩,
    hProvenance⟩ := h.exact
  rw [hFrame]
  exact ⟨h.causal, h.credible, ⟨⟨hAuthority, hSelectors, hCells, hStandDown⟩,
    ⟨hCellHeads, hAuthorityHeads⟩, hProvenance⟩, h.count, h.staged, h.current, h.ledger, h.fits⟩

end SoundFacts

/-! ## Storing a candidate -/

section Store

variable {g g' : FactGraph} {fact : SignedFact} {cost : FactCost}

omit [Platform] in
/-- A verdict on a lineage selector has checked that it cites its selection. -/
theorem selection_cited {causal : FactGraph} (h : causal.lineageVerdict fact = .ok ())
    {subject : DeviceId} {selected : FactId}
    (hSelector : fact.content.body.lineageSelector = some (subject, selected)) :
    selected ∈ fact.content.body.support := by
  unfold FactGraph.lineageVerdict at h
  obtain ⟨_, -, h⟩ := except_bind_eq_ok.mp h
  obtain ⟨_, h, -⟩ := except_bind_eq_ok.mp h
  unfold FactGraph.checkLineageResolution at h
  cases hBody : fact.content.body with
  | authorityLineageResolution cited citedHeads selectedHead =>
    rw [hBody] at h hSelector
    cases hSelector
    by_contra hNot
    have hMissing : (!citedHeads.contains selected) = true := by
      rw [Bool.not_eq_true', ← Bool.not_eq_true, List.contains_iff_mem]
      exact hNot
    dsimp only at h
    rw [if_pos hMissing] at h
    cases h
  | _ =>
    rw [hBody] at hSelector
    cases hSelector

omit [Platform] in
/-- Stored candidates have all their dependencies. -/
theorem dependencies_resident (hCost : cost.missing = fact.dependencies.filter fun dependency =>
    !g.facts.contains dependency) (hMissing : cost.missing = []) :
    ∀ d ∈ fact.dependencies, d ∈ g.facts := by
  intro d hd
  rw [hMissing, eq_comm, List.filter_eq_nil_iff] at hCost
  simpa using hCost d hd

omit [Platform] in
/-- The indexes of the resident facts, read in the grown map. -/
private theorem exact_grow (h : GraphExact g) (hFacts : CausalFacts g.facts)
    (hNew : fact.id ∉ g.facts) :
    MetadataAmong (g.facts.insert fact.id fact) (fun id => id ∈ g.facts) g ∧
      HeadsAmong (g.facts.insert fact.id fact) (fun id => id ∈ g.facts) g := by
  have hSame {id : FactId} (hId : id ∈ g.facts) :
      (g.facts.insert fact.id fact)[id]? = g.facts[id]? :=
    getElem?_insert_of_ne fun hEq => hNew (hEq ▸ hId)
  have hOrder (a b : FactId) (hb : b ∈ g.facts) :
      Depends g.facts a b ↔ Depends (g.facts.insert fact.id fact) a b :=
    (hFacts.depends_within (within_insert hNew) hb).symm
  have hAdvances (cell : ExclusiveCell) (id : FactId) : (id ∈ g.facts ∧ Advances g.facts cell id) ↔
      id ∈ g.facts ∧ Advances (g.facts.insert fact.id fact) cell id := by
    refine and_congr_right fun hId => ?_
    unfold Advances
    rw [hSame hId]
  have hExtends (subject : DeviceId) (id : FactId) :
      (id ∈ g.facts ∧ ExtendsLineage g.facts subject id) ↔
        id ∈ g.facts ∧ ExtendsLineage (g.facts.insert fact.id fact) subject id := by
    refine and_congr_right fun hId => ?_
    unfold ExtendsLineage
    rw [hSame hId]
  refine ⟨⟨?_, ?_, ?_, ?_⟩, ?_, ?_⟩
  · exact h.metadata.authorityFacts.congr fun _ id => and_congr_right fun hId => by rw [hSame hId]
  · exact h.metadata.selectors.congr fun _ entry => and_congr_right fun hId => by rw [hSame hId]
  · exact fun cell => (h.metadata.cells cell).trans (exists_congr (hAdvances cell))
  · exact h.metadata.standDown.congr fun _ id => and_congr_right fun hId => by rw [hSame hId]
  · exact h.heads.cellHeads.congr fun cell a =>
      isHead_congr (hAdvances cell) fun a b _ hb => hOrder a b hb.1
  · exact h.heads.authorityHeads.congr fun subject a =>
      isHead_congr (hExtends subject) fun a b _ hb => hOrder a b hb.1

/-- **Storing keeps the indexes exact.** -/
theorem storedGraph_exact (h : SoundFacts g) (hNew : fact.id ∉ g.facts)
    (hDeps : ∀ d ∈ fact.dependencies, d ∈ g.facts) {changes : AuthorityProvenance}
    (hPlan : g.plannedProvenance fact = .ok changes) (bytes : Nat) :
    GraphExact (storedGraph g fact cost changes bytes none) := by
  have hGet : (g.facts.insert fact.id fact)[fact.id]? = some fact := by
    rw [getElem?_insert_eq, if_pos rfl]
  have hDone (id : FactId) : id = fact.id ∨ id ∈ g.facts ↔ id ∈ g.facts.insert fact.id fact := by
    rw [mem_map_insert_iff, eq_comm]
  obtain ⟨hMeta, hHeads⟩ := exact_grow h.exact h.causal hNew
  let grown : FactGraph := { g with facts := g.facts.insert fact.id fact }
  have hMetaGrown : MetadataAmong grown.facts (fun id => id ∈ g.facts) grown :=
    ⟨hMeta.authorityFacts, hMeta.selectors, hMeta.cells, hMeta.standDown⟩
  have hHeadsGrown : HeadsAmong grown.facts (fun id => id ∈ g.facts) grown :=
    ⟨hHeads.cellHeads, hHeads.authorityHeads⟩
  have hMetaNew := (hMetaGrown.indexFactMetadata hGet).congr hDone
  have hHeadsNew := (hHeadsGrown.indexFactHeads (h.causal.insert hNew hDeps) hGet hNew
    fun b hb => not_depends_insert h.causal hNew hb).congr hDone
  unfold FactGraph.indexFactMetadata at hMetaNew
  unfold FactGraph.indexFactHeads at hHeadsNew
  have hGrown : grown.facts[fact.id]? = some fact := hGet
  rw [hGrown] at hMetaNew hHeadsNew
  have hFacts : (storedGraph g fact cost changes bytes none).facts =
      g.facts.insert fact.id fact := by
    unfold storedGraph
    rw [storeAdmitted_eq]
  refine GraphExact.of_facts hFacts ?_ ?_ ?_
  · unfold storedGraph
    rw [storeAdmitted_eq]
    exact ⟨hMetaNew.authorityFacts, hMetaNew.selectors, hMetaNew.cells, hMetaNew.standDown⟩
  · unfold storedGraph
    rw [storeAdmitted_eq]
    exact ⟨hHeadsNew.cellHeads, hHeadsNew.authorityHeads⟩
  · unfold storedGraph
    rw [storeAdmitted_eq]
    exact h.exact.provenance.plan_new h.staged h.causal h.selectedResident hNew hDeps hPlan

omit [Platform] in
/-- Valid content declares one AuthorityUse for each subject it acts on. -/
theorem FactContent.uses_of_validate {content : FactContent} (h : content.validate = .ok ()) :
    content.authorityUses.map AuthorityUse.subject =
      content.body.authorityUseSubjects content.author := by
  by_contra hUses
  unfold FactContent.validate at h
  dsimp only at h
  split at h
  · cases h
  · split at h
    · cases h
    · obtain ⟨_, -, h⟩ := except_bind_eq_ok.mp h
      cases h

theorem JudgedIn.credible (hScreened : Screened g fact cost) (h : JudgedIn g fact) :
    Credible g.contextId fact := by
  obtain ⟨_, -, -, causal, -, hVerdict⟩ := h
  obtain ⟨_, hLineage, -⟩ := except_bind_eq_ok.mp hVerdict
  exact ⟨hScreened.verified, hScreened.context, fun _ _ => selection_cited hLineage⟩

/-- **A stored candidate keeps the graph sound.** -/
theorem SoundFacts.stored (h : SoundFacts g) (hScreened : Screened g fact cost)
    (hMissing : cost.missing = []) (hJudged : JudgedIn g fact) (hStored : Stored g fact cost g') :
    SoundFacts g' := by
  obtain ⟨_, changes, bytes, hPlan, hFits, hFrame⟩ := hStored.exists_plan
  have hNew := hScreened.fresh
  have hDeps := dependencies_resident (factCost_missing hScreened.costed) hMissing
  obtain ⟨delta, hDelta, hRemoved, hBytes⟩ := hPlan.residency
  have hUses := FactContent.uses_of_validate (SignedFact.verify_ok hScreened.verified).1
  have hLedger : indexBytes (g.storeAdmitted fact cost changes) + delta.removed =
      indexBytes g + delta.added :=
    indexBytes_storeAdmitted h.causal hNew hDeps hUses h.exact.heads hDelta hPlan.plan
  have hIndexBytes : bytes = indexBytes (storedGraph g fact cost changes bytes none) := by
    have hSame : indexBytes (storedGraph g fact cost changes bytes none) =
        indexBytes (g.storeAdmitted fact cost changes) := rfl
    have hOld := h.ledger
    omega
  refine SoundFacts.of_coreFrame ⟨?_, ?_, storedGraph_exact h hNew hDeps hPlan.plan bytes, ?_, ?_,
    storedGraph_indexesCurrent g fact cost changes bytes none, hIndexBytes, ?_⟩ hFrame
  · unfold storedGraph
    rw [storeAdmitted_eq]
    exact h.causal.insert hNew hDeps
  · unfold storedGraph
    rw [storeAdmitted_eq]
    intro id stored hGet
    have hGet : (g.facts.insert fact.id fact)[id]? = some stored := hGet
    change Credible g.contextId stored
    rw [getElem?_insert_eq] at hGet
    split at hGet
    · exact Option.some.inj hGet ▸ hJudged.credible hScreened
    · exact h.credible id stored hGet
  · unfold storedGraph
    rw [storeAdmitted_eq]
    dsimp only
    rw [Std.ExtTreeMap.size_insert, if_neg, h.count]
    rwa [Std.ExtTreeMap.contains_iff_mem]
  · unfold storedGraph
    rw [storeAdmitted_eq]
    exact h.staged
  · rw [← hIndexBytes]
    have hLimits : (storedGraph g fact cost changes bytes none).policyLimits = g.policyLimits := by
      unfold storedGraph
      rw [storeAdmitted_eq]
    rw [hLimits]
    omega

end Store

namespace Sound

variable {g g' : FactGraph}

theorem restorable (h : Sound g) : Restorable g :=
  ⟨h.current, h.rebuildable, h.quarantine.shape, h.committed⟩

/-- **Every step keeps a sound graph sound.** -/
theorem step {late : Prop} (h : Sound g) (hStep : Step late g g') : Sound g' := by
  refine ⟨?_, h.quarantine.step hStep, h.committed.step hStep⟩
  rcases hStep.core with hFrame | ⟨fact, cost, hScreened, hMissing, hJudged, hStored⟩
  · exact h.toSoundFacts.of_coreFrame hFrame
  · exact h.toSoundFacts.stored hScreened hMissing hJudged hStored

theorem trace {late : Prop} (h : Sound g) (hTrace : Trace late g g') : Sound g' := by
  induction hTrace with
  | refl => exact h
  | tail _ hStep ih => exact ih.step hStep

/-- A mutation that was undone leaves a sound graph. -/
theorem undone {entries : SparseEntries} {current : Option Projection} (h : Sound g)
    (hUndone : Undone g entries current g') : Sound g' := by
  refine ⟨h.toSoundFacts.of_coreFrame (.of_cacheOnly hUndone.cacheOnly), ?_,
    hUndone.committedCache⟩
  rw [hUndone.eq]
  exact h.quarantine.congr rfl rfl rfl rfl rfl

end Sound

end MyOwnMesh.Semantic

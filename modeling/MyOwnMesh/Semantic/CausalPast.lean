import MyOwnMesh.Semantic.OwnerRun

/-!
# The exact causal past of a fact

Admission judges most candidates in the graph of their own dependency closure.
For an admitted fact this graph does not depend on what was admitted beside it:
the same closure has the same past in every larger graph. Where the program
borrows the live graph instead, what it reads there may differ from the past;
`BorrowAgrees` says that it does not.
-/

namespace MyOwnMesh.Semantic

open Foundation

namespace FactGraph

/-- The dependency closure of a fact, without the fact itself. -/
def pastIds (g : FactGraph) (fact : SignedFact) : List FactId :=
  traverse (dependenciesIn g.facts) g.facts.keys fact.dependencies

/-- The facts of the causal past of a fact, without indexes. -/
def rawPast (g : FactGraph) (fact : SignedFact) : FactGraph :=
  { FactGraph.empty g.contextId g.authorityRoots g.policy g.policyLimits with
    facts := keepEntries (fun id _ => (g.pastIds fact).contains id) g.facts }

/-- The graph of exactly the causal past of a fact, indexed from scratch. -/
def exactPast [Platform] (g : FactGraph) (fact : SignedFact) : FactGraph :=
  (g.rawPast fact).rebuildIndexes

end FactGraph

/-- Two graphs of one project under the same limits. -/
structure SameProject (g g' : FactGraph) : Prop where
  contextId : g'.contextId = g.contextId
  authorityRoots : g'.authorityRoots = g.authorityRoots
  policy : g'.policy = g.policy
  policyLimits : g'.policyLimits = g.policyLimits

namespace SameProject

variable {g g' g'' : FactGraph}

theorem refl (g : FactGraph) : SameProject g g := ⟨rfl, rfl, rfl, rfl⟩

theorem trans (h : SameProject g g') (h' : SameProject g' g'') : SameProject g g'' :=
  ⟨h'.contextId.trans h.contextId, h'.authorityRoots.trans h.authorityRoots,
    h'.policy.trans h.policy, h'.policyLimits.trans h.policyLimits⟩

theorem symm (h : SameProject g g') : SameProject g' g :=
  ⟨h.contextId.symm, h.authorityRoots.symm, h.policy.symm, h.policyLimits.symm⟩

theorem of_coreFrame (h : CoreFrame g g') : SameProject g g' := by
  rw [h]
  exact ⟨rfl, rfl, rfl, rfl⟩

end SameProject

/-! ## The facts of a past -/

section Facts

variable [Platform] {g g' : FactGraph} {fact : SignedFact}
variable {id : FactId}

omit [Platform] in
theorem mem_pastIds :
    id ∈ g.pastIds fact ↔ ∃ d ∈ fact.dependencies, d = id ∨ Depends g.facts id d :=
  mem_traverse_dependencies g.facts _ id

variable {stored : SignedFact}

omit [Platform] in
/-- A closure holds the dependencies of its facts. -/
theorem pastIds_closed {d : FactId} (hGet : g.facts[id]? = some stored) (hMem : id ∈ g.pastIds fact)
    (hd : d ∈ stored.dependencies) : d ∈ g.pastIds fact := by
  have hEdge : d ∈ dependenciesIn g.facts id := by
    rw [dependenciesIn_of_getElem? hGet]
    exact hd
  obtain ⟨top, hTop, rfl | hDepends⟩ := mem_pastIds.mp hMem
  · exact mem_pastIds.mpr ⟨top, hTop, .inr (.single hEdge)⟩
  · exact mem_pastIds.mpr ⟨top, hTop, .inr (.head hEdge hDepends)⟩

omit [Platform] in
theorem getElem?_rawPast :
    (g.rawPast fact).facts[id]? = some stored ↔
      g.facts[id]? = some stored ∧ id ∈ g.pastIds fact := by
  have hFacts : (g.rawPast fact).facts =
      keepEntries (fun id _ => (g.pastIds fact).contains id) g.facts := rfl
  rw [hFacts, getElem?_keepEntries, Option.filter_eq_some_iff]
  simp

theorem exactPast_facts (g : FactGraph) (fact : SignedFact) :
    (g.exactPast fact).facts = (g.rawPast fact).facts := by
  unfold FactGraph.exactPast
  rw [(g.rawPast fact).rebuildIndexes_frame]
  rfl

theorem exactPast_sameProject (g : FactGraph) (fact : SignedFact) :
    SameProject g (g.exactPast fact) := by
  unfold FactGraph.exactPast
  rw [(g.rawPast fact).rebuildIndexes_frame]
  exact ⟨rfl, rfl, rfl, rfl⟩

omit [Platform] in
/-- A fact depends on its closure. -/
theorem depends_of_mem_pastIds {below : FactId} (hGet : g.facts[id]? = some fact)
    (hMem : below ∈ g.pastIds fact) : Depends g.facts below id := by
  obtain ⟨d, hd, hBelow⟩ := mem_pastIds.mp hMem
  have hEdge : d ∈ dependenciesIn g.facts id := by
    rw [dependenciesIn_of_getElem? hGet]
    exact hd
  rcases hBelow with rfl | hDepends
  · exact .single hEdge
  · exact .tail hDepends hEdge

/-- The facts of a past are those of the graph in its closure. -/
theorem getElem?_exactPast :
    (g.exactPast fact).facts[id]? = some stored ↔
      g.facts[id]? = some stored ∧ id ∈ g.pastIds fact := by
  rw [exactPast_facts]
  exact getElem?_rawPast

omit [Platform] in
/-- A closure of resident dependencies is resident. -/
theorem mem_of_mem_pastIds (hFacts : CausalFacts g.facts)
    (hDeps : ∀ d ∈ fact.dependencies, d ∈ g.facts) (hId : id ∈ g.pastIds fact) : id ∈ g.facts := by
  obtain ⟨d, hd, rfl | hDepends⟩ := mem_pastIds.mp hId
  · exact hDeps d hd
  · exact hFacts.mem_of_depends hDepends

omit [Platform] in
/-- The facts of a past are a closed part of the graph. -/
theorem rawPast_causal (hFacts : CausalFacts g.facts) (fact : SignedFact) :
    Within (g.rawPast fact).facts g.facts ∧
      (∀ (id : FactId) (stored : SignedFact), (g.rawPast fact).facts[id]? = some stored →
        ∀ d ∈ stored.dependencies, d ∈ (g.rawPast fact).facts) ∧
      CausalFacts (g.rawPast fact).facts := by
  have hWithin : Within (g.rawPast fact).facts g.facts :=
    fun id stored h => (getElem?_rawPast.mp h).1
  have hClosed (id : FactId) (stored : SignedFact)
      (h : (g.rawPast fact).facts[id]? = some stored) :
      ∀ d ∈ stored.dependencies, d ∈ (g.rawPast fact).facts := by
    obtain ⟨hLive, hMem⟩ := getElem?_rawPast.mp h
    intro d hd
    obtain ⟨child, hChild⟩ := mem_iff_exists.mp (hFacts.closed hLive d hd)
    exact mem_iff_exists.mpr
      ⟨child, getElem?_rawPast.mpr ⟨hChild, pastIds_closed hLive hMem hd⟩⟩
  exact ⟨hWithin, hClosed, hFacts.restrict hWithin hClosed⟩

/-! ## Growth -/

omit [Platform] in
theorem rawPast_within (hFacts : CausalFacts g.facts) (hWithin : Within g.facts g'.facts)
    (hProject : SameProject g g') (hDeps : ∀ d ∈ fact.dependencies, d ∈ g.facts) :
    g'.rawPast fact = g.rawPast fact := by
  have hIds (id : FactId) : id ∈ g'.pastIds fact ↔ id ∈ g.pastIds fact := by
    rw [mem_pastIds, mem_pastIds]
    refine exists_congr fun d => and_congr_right fun hd => or_congr Iff.rfl ?_
    exact hFacts.depends_within hWithin (hDeps d hd)
  have hKept : keepEntries (fun id _ => (g'.pastIds fact).contains id) g'.facts =
      keepEntries (fun id _ => (g.pastIds fact).contains id) g.facts := by
    refine Std.ExtTreeMap.ext_getElem? fun id => ?_
    have hContains : (g'.pastIds fact).contains id = (g.pastIds fact).contains id := by
      rw [Bool.eq_iff_iff, List.contains_iff_mem, List.contains_iff_mem]
      exact hIds id
    rw [getElem?_keepEntries, getElem?_keepEntries, hContains]
    by_cases hId : id ∈ g.pastIds fact
    · obtain ⟨stored, hGet⟩ := mem_iff_exists.mp (mem_of_mem_pastIds hFacts hDeps hId)
      rw [hGet, hWithin id stored hGet]
    · have hNot : (g.pastIds fact).contains id = false := by
        rwa [← Bool.not_eq_true, List.contains_iff_mem]
      rw [hNot]
      cases g'.facts[id]? <;> cases g.facts[id]? <;> rfl
  unfold FactGraph.rawPast
  rw [hKept, hProject.contextId, hProject.authorityRoots, hProject.policy, hProject.policyLimits]

/-- **A past does not grow with the graph.** -/
theorem exactPast_within (hFacts : CausalFacts g.facts) (hWithin : Within g.facts g'.facts)
    (hProject : SameProject g g') (hDeps : ∀ d ∈ fact.dependencies, d ∈ g.facts) :
    g'.exactPast fact = g.exactPast fact :=
  congrArg FactGraph.rebuildIndexes (rawPast_within hFacts hWithin hProject hDeps)

end Facts

/-! ## Indexes of a past -/

section Exact

/-- The provenance of the kept facts by the kept selectors. -/
def restrictTable (keep : FactId → Bool) (table : AuthorityProvenance) : AuthorityProvenance :=
  table |> mapEntries fun id row =>
    if keep id && !(keepEntries (fun selector _ => keep selector) row).isEmpty then
      some (keepEntries (fun selector _ => keep selector) row)
    else none

variable {small large : Facts} {keep : FactId → Bool} {table : AuthorityProvenance}

theorem getElem?_restrictTable (id selector : FactId) :
    ((restrictTable keep table).getD id ∅)[selector]? =
      if keep id && keep selector then (table.getD id ∅)[selector]? else none := by
  unfold restrictTable
  rw [getD_eq_getElem?_getD, getD_eq_getElem?_getD, getElem?_mapEntries]
  cases hRow : table[id]? with
  | none => simp
  | some row =>
    rw [Option.bind_some]
    have hEntry : (keepEntries (fun selector _ => keep selector) row)[selector]? =
        if keep selector then row[selector]? else none := by
      rw [getElem?_keepEntries]
      cases row[selector]? <;> cases keep selector <;> rfl
    cases hKeep : keep id with
    | false => simp
    | true =>
      by_cases hNil : (keepEntries (fun selector _ => keep selector) row).isEmpty = true
      · have hNone : (keepEntries (fun selector _ => keep selector) row)[selector]? = none := by
          rw [Std.ExtTreeMap.isEmpty_iff.mp hNil]
          simp
        rw [hEntry] at hNone
        simp only [hNil, Bool.not_true, Bool.and_false, Bool.false_eq_true, if_false,
          Option.getD_none, Option.getD_some, Bool.true_and]
        rw [hNone]
        simp
      · simp only [hNil, Bool.not_false, Bool.and_true, if_true, Option.getD_some, Bool.true_and]
        exact hEntry

/-- Restricting an exact table to a closed part of the facts leaves it exact. -/
theorem ProvenanceAmong.restrict (h : ProvenanceOf large table) (hSmall : CausalFacts small)
    (hWithin : Within small large) (hResident : SelectedResident small)
    (hKeep : ∀ id : FactId, keep id = true ↔ id ∈ small) :
    ProvenanceOf small (restrictTable keep table) := by
  have hNot {id : FactId} (hId : id ∉ small) : keep id = false := by
    rw [← Bool.not_eq_true, hKeep]
    exact hId
  refine ⟨fun id selector _ => ?_, fun id selector hDone => absurd trivial hDone, fun id row hGet => ?_⟩
  · rw [getElem?_restrictTable]
    by_cases hId : id ∈ small
    · by_cases hSelector : selector ∈ small
      · rw [(hKeep id).mpr hId, (hKeep selector).mpr hSelector]
        have hSelected : selectedOf large selector = selectedOf small selector := by
          obtain ⟨stored, hStored⟩ := mem_iff_exists.mp hSelector
          unfold selectedOf
          rw [hStored, hWithin selector stored hStored]
        exact (h.exact_of_done id selector trivial).trans
          (provenanceEntry_within hSmall hWithin hResident hId hSelected)
      · rw [hNot hSelector, provenanceEntry_of_selectedOf_none (selectedOf_eq_none hSelector)]
        simp
    · rw [hNot hId, provenanceEntry_of_not_mem hId]
      rfl
  · unfold restrictTable at hGet
    rw [getElem?_mapEntries] at hGet
    obtain ⟨old, -, hRow⟩ := Option.bind_eq_some_iff.mp hGet
    split at hRow
    · next hCond =>
        obtain rfl := Option.some.inj hRow
        simp only [Bool.and_eq_true, Bool.not_eq_true'] at hCond
        exact exists_mem_of_not_isEmpty (by simp [hCond.2])
    · cases hRow

theorem mapSum_restrictTable_le [Platform] :
    mapSum rowBytes (restrictTable keep table) ≤ mapSum rowBytes table := by
  refine mapSum_le _ fun id => ?_
  unfold restrictTable
  rw [getElem?_mapEntries]
  cases table[id]? with
  | none => exact Nat.le_refl _
  | some row =>
    rw [Option.bind_some]
    split
    · refine Nat.add_le_add_left (Nat.mul_le_mul_right _ (map_size_le fun selector hMem => ?_)) _
      obtain ⟨relation, hGet⟩ := mem_iff_exists.mp hMem
      rw [getElem?_keepEntries, Option.filter_eq_some_iff] at hGet
      exact mem_iff_exists.mpr ⟨relation, hGet.1⟩
    · exact Nat.zero_le _

/-- A rebuilt graph is indexed and has no cached projection. -/
theorem rebuildIndexes_current [Platform] (g : FactGraph) :
    g.rebuildIndexes.indexesCurrent = true ∧ g.rebuildIndexes.projectionCache = none := by
  refine ⟨?_, rfl⟩
  have hTotals (h : FactGraph) : h.reconcileTotals.indexesCurrent = h.indexesCurrent := by
    unfold FactGraph.reconcileTotals
    split <;> rfl
  have hLedger (h : FactGraph) (bytes : Nat) :
      FactGraph.indexesCurrent { h with derivedIndexBytes := bytes, projectionCache := none } =
        h.indexesCurrent := rfl
  unfold FactGraph.rebuildIndexes
  rw [hLedger, hTotals]
  simp [FactGraph.indexesCurrent]

/-- The ledger of a rebuilt graph is that of its indexes. -/
theorem rebuildIndexes_ledger [Platform] (g : FactGraph) : g.rebuildIndexes.derivedIndexBytes =
    g.rebuildIndexes.logicalIndexResidencyBytes.toOption.getD u64Max := by
  have hLedger (h : FactGraph) (bytes : Nat) :
      FactGraph.logicalIndexResidencyBytes
        { h with derivedIndexBytes := bytes, projectionCache := none } =
        h.logicalIndexResidencyBytes := rfl
  unfold FactGraph.rebuildIndexes
  rw [hLedger]

/-- A graph that holds exactly the causal past of a fact. -/
structure PastGraph (past : FactGraph) : Prop where
  causal : CausalFacts past.facts
  exact : GraphExact past
  current : past.indexesCurrent = true
  uncached : past.projectionCache = none

section Past

variable [Platform] {g : FactGraph} {fact : SignedFact}

theorem rawPast_resident (h : SoundFacts g) (fact : SignedFact) :
    SelectedResident (g.rawPast fact).facts := by
  obtain ⟨hWithin, hClosed, -⟩ := rawPast_causal h.causal fact
  intro selector selected hSelected
  obtain ⟨⟨subject, _⟩, hSelector, rfl⟩ := Option.map_eq_some_iff.mp hSelected
  obtain ⟨stored, hStored, hBody⟩ := Option.bind_eq_some_iff.mp hSelector
  exact hClosed selector stored hStored _ (SignedFact.mem_dependencies_of_support
    ((h.credible _ stored (hWithin selector stored hStored)).selects subject _ hBody))

/-- The table of the large graph, restricted to the closure, bounds every plan. -/
theorem rawPast_table (h : SoundFacts g) (hDeps : ∀ d ∈ fact.dependencies, d ∈ g.facts) :
    ∃ full, ProvenanceOf (g.rawPast fact).facts full ∧ TableFits (g.rawPast fact) full := by
  obtain ⟨hWithin, -, hCausal⟩ := rawPast_causal h.causal fact
  have hKeep (id : FactId) : (g.pastIds fact).contains id = true ↔ id ∈ (g.rawPast fact).facts := by
    rw [List.contains_iff_mem, mem_iff_exists]
    constructor
    · intro hId
      obtain ⟨stored, hStored⟩ := mem_iff_exists.mp (mem_of_mem_pastIds h.causal hDeps hId)
      exact ⟨stored, getElem?_rawPast.mpr ⟨hStored, hId⟩⟩
    · rintro ⟨stored, hStored⟩
      exact (getElem?_rawPast.mp hStored).2
  refine ⟨restrictTable (g.pastIds fact).contains g.authorityProvenance,
    ProvenanceAmong.restrict h.exact.provenance hCausal hWithin (rawPast_resident h fact) hKeep,
    mapSum_restrictTable_le.trans h.tableFits.1, mapSum_restrictTable_le.trans h.tableFits.2⟩

/-- **The past of a resident closure is indexed exactly.** -/
theorem exactPast_spec (h : SoundFacts g) (hDeps : ∀ d ∈ fact.dependencies, d ∈ g.facts) :
    PastGraph (g.exactPast fact) := by
  obtain ⟨full, hFull, hFits⟩ := rawPast_table h hDeps
  obtain ⟨-, -, hCausal⟩ := rawPast_causal h.causal fact
  have hExact := FactGraph.rebuildIndexes_exact hCausal (rawPast_resident h fact) rfl hFull hFits
    (Nat.zero_le _)
  have hCurrent := rebuildIndexes_current (g.rawPast fact)
  rw [← exactPast_facts] at hCausal
  exact ⟨hCausal, hExact, hCurrent.1, hCurrent.2⟩

/-- **A closure that is computed is the past.** The checked provenance of a
scoped graph is the one its indexes already have, and only its bytes are counted
once more. -/
theorem scopedGraph_eq (h : SoundFacts g) (hDeps : ∀ d ∈ fact.dependencies, d ∈ g.facts) :
    g.scopedGraph (g.pastIds fact) =
      (g.exactPast fact).logicalIndexResidencyBytes.map fun _ => g.exactPast fact := by
  obtain ⟨full, hFull, hFits⟩ := rawPast_table h hDeps
  have hSpec := exactPast_spec h hDeps
  have hChecked : g.scopedGraph (g.pastIds fact) =
      (g.exactPast fact).rebuildProvenanceChecked := rfl
  have hLedger := rebuildIndexes_ledger (g.rawPast fact)
  have hFacts := exactPast_facts g fact
  have hStaged : (g.exactPast fact).stagedColdPending = 0 := by
    unfold FactGraph.exactPast
    rw [(g.rawPast fact).rebuildIndexes_frame]
    rfl
  have hLimits : (g.exactPast fact).policyLimits = (g.rawPast fact).policyLimits :=
    (exactPast_sameProject g fact).policyLimits
  have hResident := rawPast_resident h fact
  rw [hChecked]
  change (g.exactPast fact).derivedIndexBytes = _ at hLedger
  change _ = (g.exactPast fact).logicalIndexResidencyBytes.toOption.getD u64Max at hLedger
  generalize g.exactPast fact = rebuilt at *
  obtain ⟨table, hTable, -, hResult⟩ := FactGraph.rebuildProvenance_exact hSpec.causal
    (hFacts ▸ hResident) hStaged (hFacts ▸ hFull) ⟨hFits.1, hLimits ▸ hFits.2⟩
    hSpec.exact.provenance
  obtain rfl := ProvenanceAmong.unique hTable hSpec.exact.provenance
  have hSelf : rebuilt.withProvenance rebuilt.authorityProvenance = rebuilt := rfl
  rw [hResult, hSelf]
  cases hBytes : rebuilt.logicalIndexResidencyBytes with
  | error error => rfl
  | ok bytes =>
    rw [hBytes] at hLedger
    show Except.ok { rebuilt with derivedIndexBytes := bytes } = Except.ok rebuilt
    rw [show bytes = rebuilt.derivedIndexBytes from hLedger.symm]

theorem scopedGraph_eq_exactPast {past : FactGraph} (h : SoundFacts g)
    (hDeps : ∀ d ∈ fact.dependencies, d ∈ g.facts)
    (hPast : g.scopedGraph (g.pastIds fact) = .ok past) : past = g.exactPast fact := by
  rw [scopedGraph_eq h hDeps] at hPast
  cases hBytes : (g.exactPast fact).logicalIndexResidencyBytes with
  | error error =>
    rw [hBytes] at hPast
    cases hPast
  | ok bytes =>
    rw [hBytes] at hPast
    exact (Except.ok.inj hPast).symm

end Past

end Exact

/-! ## Judging in the past -/

section Judging

variable [Platform] {g : FactGraph} {fact : SignedFact}

/-- Where the live graph is borrowed for a verdict, it agrees with the past. The
live graph is read with its cached projection or, by an apply phase that has
taken the cache out, with the one from scratch. -/
def BorrowAgrees (agree : FactGraph → FactGraph → Prop) (g : FactGraph) (fact : SignedFact) :
    Prop :=
  ∀ live causal, CacheOnly g live →
    live.projection = g.projection ∨ live.projection = Projection.fromGraph g →
    live.causalPast fact = .ok causal → causal.borrowed = true → agree live (g.exactPast fact)

/-- Whether the live graph is borrowed does not depend on its cache. -/
theorem CacheOnly.causalPast_borrowed {live : FactGraph} {causal : CausalAdmissionGraph}
    (h : CacheOnly g live) (hCausal : live.causalPast fact = .ok causal) :
    ∃ found, g.causalPast fact = .ok found ∧ found.borrowed = causal.borrowed := by
  rw [h.causalPast_eq] at hCausal
  cases hFound : g.causalPast fact with
  | error error =>
    rw [hFound] at hCausal
    cases hCausal
  | ok found =>
    rw [hFound] at hCausal
    have hEq : (if found.borrowed then { found with graph := live } else found) = causal :=
      Except.ok.inj hCausal
    refine ⟨found, rfl, ?_⟩
    rw [← hEq]
    split <;> rfl

/-- An owned causal graph is a computed closure. -/
theorem causalPast_owned {causal : CausalAdmissionGraph} (h : g.causalPast fact = .ok causal)
    (hOwned : causal.borrowed = false) : g.scopedGraph (g.pastIds fact) = .ok causal.graph := by
  unfold FactGraph.causalPast at h
  split at h
  · cases h
    cases hOwned
  · dsimp only at h
    split at h
    · cases h
    · split at h
      · cases h
        cases hOwned
      · obtain ⟨owned, hScoped, h⟩ := except_bind_eq_ok.mp h
        cases h
        exact hScoped

/-- **A verdict is a verdict of the past**, or of a live graph that agrees. -/
theorem JudgedIn.judged {agree : FactGraph → FactGraph → Prop} (h : JudgedIn g fact)
    (hSound : SoundFacts g) (hDeps : ∀ d ∈ fact.dependencies, d ∈ g.facts)
    (hAgrees : BorrowAgrees agree g fact) (hRefl : agree (g.exactPast fact) (g.exactPast fact)) :
    ∃ judged, judged.verdict fact = .ok () ∧ agree judged (g.exactPast fact) := by
  obtain ⟨live, hCache, hProjection, causal, hCausal, hVerdict⟩ := h
  cases hBorrowed : causal.borrowed with
  | true =>
    have hLive := causalPast_graph hCausal hBorrowed
    exact ⟨live, hLive ▸ hVerdict, hAgrees live causal hCache hProjection hCausal hBorrowed⟩
  | false =>
    have hOwned := causalPast_owned hCausal hBorrowed
    have hSame : live.scopedGraph (live.pastIds fact) = g.scopedGraph (g.pastIds fact) := by
      rw [hCache]
      rfl
    rw [hSame] at hOwned
    have hPast := scopedGraph_eq_exactPast hSound hDeps hOwned
    refine ⟨causal.graph, hVerdict, ?_⟩
    rw [hPast]
    exact hRefl

end Judging

end MyOwnMesh.Semantic

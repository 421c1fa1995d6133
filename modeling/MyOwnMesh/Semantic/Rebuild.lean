import MyOwnMesh.Semantic.Ledger

/-!
# Rebuilding the derived indexes

A rebuild clears every derived index, indexes the resident facts in causal order
and plans the provenance of every resident selector. On a causal fact map whose
complete provenance fits the ledger the result is the one family of indexes the
facts define, whatever the indexes were before (`rebuildIndexes_exact`), and
that family is unique (`GraphExact.indexes_eq`).
-/

namespace MyOwnMesh.Semantic

open Foundation

/-! ## Causal order -/

instance : Finite FactId :=
  Finite.of_injective FactId.bytes fun a b h => by
    obtain ⟨a⟩ := a
    obtain ⟨b⟩ := b
    exact congrArg FactId.mk h

namespace CausalFacts

variable {facts : Facts}

/-- The dependency order of a causal map is well founded. -/
theorem wellFounded (hFacts : CausalFacts facts) : WellFounded (Depends facts) := by
  have : IsTrans FactId (Depends facts) := ⟨fun _ _ _ => Relation.TransGen.trans⟩
  have : Std.Irrefl (Depends facts) := ⟨hFacts.acyclic⟩
  exact Finite.wellFounded_of_trans_of_irrefl _

theorem residentDependencies_eq (hFacts : CausalFacts facts) {id : FactId} {fact : SignedFact}
    (hGet : facts[id]? = some fact) : residentDependencies facts fact = fact.dependencies := by
  unfold residentDependencies
  rw [List.filter_eq_self]
  exact fun d hd => Std.ExtTreeMap.contains_iff_mem.mpr (hFacts.closed hGet d hd)

/-- **The rebuild order**: every fact once, after all its dependencies. -/
theorem causalOrder_spec (hFacts : CausalFacts facts) :
    Topological (dependenciesIn facts) (fun _ => False) (causalOrder facts) ∧
    ∀ id : FactId, id ∈ facts ↔ id ∈ causalOrder facts := by
  let dependents := facts.toList.foldl (fun dependents (entry : FactId × SignedFact) =>
    (residentDependencies facts entry.2).foldl (fun dependents dependency =>
      addTo dependents dependency entry.1) dependents) (∅ : OrdMap FactId (OrdSet FactId))
  let indegree : OrdMap FactId Nat := facts.map fun _ fact =>
    (residentDependencies facts fact).length
  let ready : OrdSet FactId :=
    .ofList ((indegree.toList.filter fun entry => entry.2 == 0).map Prod.fst) compare
  have hIndegree : ∀ id : FactId, indegree[id]? =
      (facts[id]?).map fun fact => (residentDependencies facts fact).length := fun id => by
    simp only [indegree, Std.ExtTreeMap.getElem?_map]
  have hGetOf : ∀ id ∈ facts.keys, ∃ fact, facts[id]? = some fact := fun id hId =>
    mem_iff_exists.mp (Std.ExtTreeMap.mem_keys.mp hId)
  have hDependents : IndexOf dependents fun d id => id ∈ facts.keys ∧ d ∈ dependenciesIn facts id := by
    refine (IndexOf.foldl_items (fun entry : FactId × SignedFact =>
      residentDependencies facts entry.2) Prod.fst facts.toList
      (IndexOf.empty fun _ _ => id)).congr fun d id => ?_
    rw [or_false]
    constructor
    · rintro ⟨⟨id, fact⟩, hEntry, hd, rfl⟩
      have hGet := Std.ExtTreeMap.mem_toList_iff_getElem?_eq_some.mp hEntry
      refine ⟨Std.ExtTreeMap.mem_keys.mpr (mem_iff_exists.mpr ⟨fact, hGet⟩), ?_⟩
      rwa [dependenciesIn_of_getElem? hGet, ← hFacts.residentDependencies_eq hGet]
    · rintro ⟨hId, hd⟩
      obtain ⟨fact, hGet⟩ := hGetOf id hId
      rw [dependenciesIn_of_getElem? hGet, ← hFacts.residentDependencies_eq hGet] at hd
      exact ⟨(id, fact), Std.ExtTreeMap.mem_toList_iff_getElem?_eq_some.mpr hGet, hd, rfl⟩
  have hWf : WellFounded fun d id => d ∈ dependenciesIn facts id :=
    Subrelation.wf (fun h => Relation.TransGen.single h) hFacts.wellFounded
  have hClosed : ∀ id ∈ facts.keys, ∀ d ∈ dependenciesIn facts id, d ∈ facts.keys :=
    fun id _ d hd => Std.ExtTreeMap.mem_keys.mpr (hFacts.mem_of_edge hd)
  have hNodup : ∀ id ∈ facts.keys, (dependenciesIn facts id).Nodup := fun id hId => by
    obtain ⟨fact, hGet⟩ := hGetOf id hId
    rw [dependenciesIn_of_getElem? hGet]
    exact sortDedup_nodup _
  have hLength : ∀ id ∈ facts.keys, indegree.getD id 0 = (dependenciesIn facts id).length :=
    fun id hId => by
      obtain ⟨fact, hGet⟩ := hGetOf id hId
      rw [getD_eq_getElem?_getD, hIndegree, hGet, dependenciesIn_of_getElem? hGet,
        Option.map_some, Option.getD_some, hFacts.residentDependencies_eq hGet]
  have hReady : ∀ id, id ∈ ready ↔ id ∈ facts.keys ∧ dependenciesIn facts id = [] := by
    intro id
    simp only [ready, mem_setOfList, List.mem_map, List.mem_filter, beq_iff_eq]
    constructor
    · rintro ⟨⟨id, count⟩, ⟨hEntry, hZero⟩, rfl⟩
      rw [Std.ExtTreeMap.mem_toList_iff_getElem?_eq_some, hIndegree,
        Option.map_eq_some_iff] at hEntry
      obtain ⟨fact, hGet, hCount⟩ := hEntry
      have hZero : count = 0 := hZero
      rw [hFacts.residentDependencies_eq hGet, hZero, List.length_eq_zero_iff] at hCount
      exact ⟨Std.ExtTreeMap.mem_keys.mpr (mem_iff_exists.mpr ⟨fact, hGet⟩),
        (dependenciesIn_of_getElem? hGet).trans hCount⟩
    · rintro ⟨hId, hNil⟩
      obtain ⟨fact, hGet⟩ := hGetOf id hId
      refine ⟨(id, 0), ⟨?_, rfl⟩, rfl⟩
      rw [dependenciesIn_of_getElem? hGet] at hNil
      rw [Std.ExtTreeMap.mem_toList_iff_getElem?_eq_some, hIndegree, hGet, Option.map_some,
        hFacts.residentDependencies_eq hGet, hNil]
      rfl
  obtain ⟨hTopo, hAll⟩ := kahnLoop_spec hDependents hWf hClosed hNodup hLength hReady
  rw [Std.ExtTreeMap.length_keys] at hTopo hAll
  -- nothing is left over, so the residue branch is not taken
  have hOrder : causalOrder facts = kahnLoop dependents facts.size ready indegree := by
    have hPerm : (kahnLoop dependents facts.size ready indegree).Perm facts.keys := by
      rw [List.perm_ext_iff_of_nodup hTopo.nodup Std.ExtTreeMap.nodup_keys]
      exact fun id => (hAll id).symm
    have hSize := hPerm.length_eq
    rw [Std.ExtTreeMap.length_keys] at hSize
    exact if_pos hSize
  rw [hOrder]
  refine ⟨hTopo, fun id => ?_⟩
  rw [← hAll id, Std.ExtTreeMap.mem_keys]

end CausalFacts

/-! ## Exact graphs -/

/-- Every derived index is the one its facts define. -/
structure GraphExact (g : FactGraph) : Prop where
  metadata : MetadataAmong g.facts (fun id => id ∈ g.facts) g
  heads : HeadsAmong g.facts (fun id => id ∈ g.facts) g
  provenance : ProvenanceOf g.facts g.authorityProvenance

variable {facts : Facts}

theorem GraphExact.of_facts {g : FactGraph} (hEq : g.facts = facts)
    (hMeta : MetadataAmong facts (fun id => id ∈ facts) g)
    (hHeads : HeadsAmong facts (fun id => id ∈ facts) g)
    (hProvenance : ProvenanceOf facts g.authorityProvenance) : GraphExact g := by
  subst hEq
  exact ⟨hMeta, hHeads, hProvenance⟩

namespace FactGraph

/-- The derived indexes of another graph. -/
def withIndexes (g source : FactGraph) : FactGraph :=
  { g with
    cellHeadsIndex := source.cellHeadsIndex
    authorityHeadsIndex := source.authorityHeadsIndex
    authorityFactsIndex := source.authorityFactsIndex
    authoritySelectorIndex := source.authoritySelectorIndex
    authorityProvenance := source.authorityProvenance
    cellsIndex := source.cellsIndex
    standDownIndex := source.standDownIndex }

end FactGraph

/-- Two exact tables of the same facts are equal. -/
theorem ProvenanceAmong.unique {table table' : AuthorityProvenance} (h : ProvenanceOf facts table)
    (h' : ProvenanceOf facts table') : table = table' := by
  have hRows : ∀ id : FactId, table.getD id ∅ = table'.getD id ∅ := fun id =>
    Std.ExtTreeMap.ext_getElem? fun s => by
      rw [h.exact_of_done id s trivial, h'.exact_of_done id s trivial]
  refine Std.ExtTreeMap.ext_getElem? fun id => ?_
  have hRow := hRows id
  rw [getD_eq_getElem?_getD, getD_eq_getElem?_getD] at hRow
  cases hGet : table[id]? with
  | none =>
    cases hGet' : table'[id]? with
    | none => rfl
    | some row =>
      obtain ⟨s, hs⟩ := h'.nonempty id row hGet'
      rw [hGet, hGet', Option.getD_none, Option.getD_some] at hRow
      rw [← hRow] at hs
      simp at hs
  | some row =>
    cases hGet' : table'[id]? with
    | none =>
      obtain ⟨s, hs⟩ := h.nonempty id row hGet
      rw [hGet, hGet', Option.getD_none, Option.getD_some] at hRow
      rw [hRow] at hs
      simp at hs
    | some row' =>
      rw [hGet, hGet', Option.getD_some, Option.getD_some] at hRow
      rw [hRow]

/-- **The facts determine the indexes.** -/
theorem GraphExact.indexes_eq {g g' : FactGraph} (h : GraphExact g) (h' : GraphExact g')
    (hFacts : g'.facts = g.facts) : g.withIndexes g' = g := by
  obtain ⟨hMeta, hHeads, hProvenance⟩ := h
  obtain ⟨hMeta', hHeads', hProvenance'⟩ := h'
  rw [hFacts] at hMeta' hHeads' hProvenance'
  have hCells : g'.cellsIndex = g.cellsIndex :=
    set_ext fun cell => (hMeta'.cells cell).trans (hMeta.cells cell).symm
  unfold FactGraph.withIndexes
  rw [hHeads'.cellHeads.unique hHeads.cellHeads,
    hHeads'.authorityHeads.unique hHeads.authorityHeads,
    hMeta'.authorityFacts.unique hMeta.authorityFacts, hMeta'.selectors.unique hMeta.selectors,
    ProvenanceAmong.unique hProvenance' hProvenance, hCells,
    hMeta'.standDown.unique hMeta.standDown]

/-! ## Frames -/

/-- `g'` differs from `g` in derived indexes only. -/
def IndexFrame (g g' : FactGraph) : Prop := g' = g.withIndexes g'

namespace IndexFrame

theorem refl (g : FactGraph) : IndexFrame g g := rfl

theorem trans {g g' g'' : FactGraph} (h : IndexFrame g g') (h' : IndexFrame g' g'') :
    IndexFrame g g'' := by
  unfold IndexFrame at *
  rw [h', h]
  rfl

theorem facts_eq {g g' : FactGraph} (h : IndexFrame g g') : g'.facts = g.facts := by
  rw [h]
  rfl

theorem indexFactMetadata (g : FactGraph) (id : FactId) :
    IndexFrame g (g.indexFactMetadata id) := by
  unfold FactGraph.indexFactMetadata
  split <;> rfl

theorem indexFactHeads (g : FactGraph) (id : FactId) : IndexFrame g (g.indexFactHeads id) := by
  unfold FactGraph.indexFactHeads
  split <;> rfl

theorem foldl {step : FactGraph → FactId → FactGraph} (hStep : ∀ g id, IndexFrame g (step g id))
    (ids : List FactId) (g : FactGraph) : IndexFrame g (ids.foldl step g) :=
  List.foldlRecOn (motive := IndexFrame g) ids step (refl g) fun current h id _ =>
    h.trans (hStep current id)

end IndexFrame

/-! ## Indexing all facts -/

private theorem metadata_foldl (ids : List FactId) : ∀ {g : FactGraph} {done : FactId → Prop},
    (∀ id ∈ ids, id ∈ g.facts) → MetadataAmong g.facts done g →
      MetadataAmong g.facts (fun id => id ∈ ids ∨ done id)
        (ids.foldl FactGraph.indexFactMetadata g) := by
  induction ids with
  | nil =>
    intro g done _ h
    simpa using h
  | cons id ids ih =>
    intro g done hIds h
    obtain ⟨fact, hGet⟩ := mem_iff_exists.mp (hIds id List.mem_cons_self)
    have hFacts := (IndexFrame.indexFactMetadata g id).facts_eq
    have hStep := h.indexFactMetadata hGet
    rw [← hFacts] at hStep
    have hRest := ih (fun a ha => hFacts ▸ hIds a (List.mem_cons_of_mem id ha)) hStep
    rw [hFacts] at hRest
    refine hRest.congr fun a => ?_
    rw [List.mem_cons]
    tauto

private theorem heads_foldl (hFacts : CausalFacts facts) {done : FactId → Prop} {ids : List FactId}
    (hTopo : Topological (dependenciesIn facts) done ids) :
    ∀ {g : FactGraph}, g.facts = facts → (∀ id ∈ ids, id ∈ facts) →
      (∀ b, done b → ∀ d ∈ dependenciesIn facts b, done d) → HeadsAmong facts done g →
      HeadsAmong facts (fun id => id ∈ ids ∨ done id) (ids.foldl FactGraph.indexFactHeads g) := by
  induction hTopo with
  | nil =>
    intro g _ _ _ h
    simpa using h
  | @cons done id ids hDeps hNew _ ih =>
    intro g hEq hIds hClosed h
    subst hEq
    obtain ⟨fact, hGet⟩ := mem_iff_exists.mp (hIds id List.mem_cons_self)
    -- what is done is closed under dependencies, so nothing done lies above the next fact
    have hBelow : ∀ a b, Depends g.facts a b → done b → done a := by
      intro a b hab
      induction hab with
      | single hEdge => exact fun hb => hClosed _ hb _ hEdge
      | tail _ hEdge ih => exact fun hb => ih (hClosed _ hb _ hEdge)
    have hStep := h.indexFactHeads hFacts hGet hNew fun b hb hDepends =>
      hNew (hBelow id b hDepends hb)
    have hRest := ih (IndexFrame.indexFactHeads g id).facts_eq
      (fun a ha => hIds a (List.mem_cons_of_mem id ha))
      (by
        rintro b (rfl | hb) d hd
        · exact .inr (hDeps d hd)
        · exact .inr (hClosed b hb d hd)) hStep
    refine hRest.congr fun a => ?_
    rw [List.mem_cons]
    tauto

/-- Metadata entries leave heads and provenance alone. -/
private theorem metadata_frame (ids : List FactId) (g : FactGraph) :
    (ids.foldl FactGraph.indexFactMetadata g).cellHeadsIndex = g.cellHeadsIndex ∧
    (ids.foldl FactGraph.indexFactMetadata g).authorityHeadsIndex = g.authorityHeadsIndex ∧
    (ids.foldl FactGraph.indexFactMetadata g).authorityProvenance = g.authorityProvenance := by
  refine List.foldlRecOn (motive := fun s : FactGraph => s.cellHeadsIndex = g.cellHeadsIndex ∧
    s.authorityHeadsIndex = g.authorityHeadsIndex ∧
    s.authorityProvenance = g.authorityProvenance) ids _ ⟨rfl, rfl, rfl⟩ fun current h id _ => ?_
  unfold FactGraph.indexFactMetadata
  split <;> exact h

/-- Head entries leave metadata and provenance alone. -/
private theorem heads_frame {done : FactId → Prop} (ids : List FactId) (g : FactGraph)
    (h : MetadataAmong facts done g) :
    MetadataAmong facts done (ids.foldl FactGraph.indexFactHeads g) ∧
    (ids.foldl FactGraph.indexFactHeads g).authorityProvenance = g.authorityProvenance := by
  refine List.foldlRecOn (motive := fun s => MetadataAmong facts done s ∧
    s.authorityProvenance = g.authorityProvenance) ids _ ⟨h, rfl⟩ fun current h id _ => ?_
  unfold FactGraph.indexFactHeads
  split
  · exact h
  · exact ⟨⟨h.1.authorityFacts, h.1.selectors, h.1.cells, h.1.standDown⟩, h.2⟩

/-- Indexing a cleared graph gives the metadata and heads of all its facts. -/
theorem FactGraph.reindex_exact {g : FactGraph} (hFacts : CausalFacts g.facts) :
    MetadataAmong g.facts (fun id => id ∈ g.facts) g.reindex ∧
    HeadsAmong g.facts (fun id => id ∈ g.facts) g.reindex ∧
    g.reindex.authorityProvenance = ∅ := by
  obtain ⟨hTopo, hOrder⟩ := hFacts.causalOrder_spec
  let indexed := g.facts.keys.foldl FactGraph.indexFactMetadata g.clearIndexes
  have hCleared : MetadataAmong g.clearIndexes.facts (fun _ => False) g.clearIndexes :=
    ⟨IndexOf.empty fun _ _ h => h.1, IndexOf.empty fun _ _ h => h.1,
      fun cell => by simp [FactGraph.clearIndexes], IndexOf.empty fun _ _ h => h.1⟩
  have hMeta : MetadataAmong g.facts (fun id => id ∈ g.facts) indexed := by
    refine (metadata_foldl g.facts.keys (g := g.clearIndexes)
      (fun id => Std.ExtTreeMap.mem_keys.mp) hCleared).congr fun id => ?_
    rw [or_false, Std.ExtTreeMap.mem_keys]
  obtain ⟨hCell, hAuthority, hProvenance⟩ := metadata_frame g.facts.keys g.clearIndexes
  have hHeads : HeadsAmong g.facts (fun _ => False) indexed := by
    refine ⟨?_, ?_⟩
    · rw [show indexed.cellHeadsIndex = ∅ from hCell]
      exact IndexOf.empty fun _ _ h => h.1.1
    · rw [show indexed.authorityHeadsIndex = ∅ from hAuthority]
      exact IndexOf.empty fun _ _ h => h.1.1
  have hIndexedFacts : indexed.facts = g.facts :=
    (IndexFrame.foldl IndexFrame.indexFactMetadata g.facts.keys g.clearIndexes).facts_eq
  have hAll := heads_foldl hFacts hTopo hIndexedFacts (fun id => (hOrder id).mpr)
    (fun _ h => h.elim) hHeads
  obtain ⟨hMetaAll, hProvenanceAll⟩ := heads_frame (causalOrder g.facts) indexed hMeta
  refine ⟨⟨hMetaAll.authorityFacts, hMetaAll.selectors, hMetaAll.cells, hMetaAll.standDown⟩,
    ?_, hProvenanceAll.trans hProvenance⟩
  refine HeadsAmong.congr ⟨hAll.cellHeads, hAll.authorityHeads⟩ fun id => ?_
  rw [or_false, hOrder id]

theorem FactGraph.reindex_frame (g : FactGraph) :
    g.reindex = { g.withIndexes g.reindex with admissionOrder := causalOrder g.facts } := by
  have hCleared : IndexFrame g g.clearIndexes := rfl
  have hFrame := (hCleared.trans (IndexFrame.foldl IndexFrame.indexFactMetadata g.facts.keys
    g.clearIndexes)).trans (IndexFrame.foldl IndexFrame.indexFactHeads (causalOrder g.facts) _)
  exact congrArg (fun h : FactGraph => { h with admissionOrder := causalOrder g.facts }) hFrame

/-! ## Replanning provenance -/

section Provenance

variable [Platform]

variable {g : FactGraph} {full : AuthorityProvenance} (hFacts : CausalFacts g.facts)
  (hResident : SelectedResident g.facts) (hStaged : g.stagedColdPending = 0)
  (hFull : ProvenanceOf g.facts full) (hFits : TableFits g full)

include hFacts hResident hStaged hFull hFits

/-- Planning the listed resident selectors one after another. -/
private theorem provenance_foldl (selectors : List SignedFact) :
    ∀ {done : FactId → Prop} {table : AuthorityProvenance},
      (∀ fact ∈ selectors, g.facts[fact.id]? = some fact) →
      ProvenanceAmong g.facts done table → ∃ table',
        selectors.foldlM (fun g fact => do
          let changes ← FactGraph.plannedProvenance g fact
          return g.withProvenance (g.authorityProvenance ∪ changes))
          (g.withProvenance table) = .ok (g.withProvenance table') ∧
        selectors.foldl (fun g fact =>
          match FactGraph.plannedProvenance g fact with
          | .ok changes => g.withProvenance (g.authorityProvenance ∪ changes)
          | .error _ => g) (g.withProvenance table) = g.withProvenance table' ∧
        ProvenanceAmong g.facts (fun s => (∃ fact ∈ selectors, fact.id = s) ∨ done s) table' := by
  induction selectors with
  | nil =>
    intro done table _ h
    exact ⟨table, rfl, rfl, h.congr fun s => by simp⟩
  | cons fact selectors ih =>
    intro done table hSelectors h
    have hGet := hSelectors fact List.mem_cons_self
    obtain ⟨changes, hChanges⟩ := plannedProvenance_fits (g := g.withProvenance table)
      hFits hFull hFacts h hStaged hResident hGet
    have hNext : ProvenanceAmong g.facts (fun s => s = fact.id ∨ done s) (table ∪ changes) :=
      ProvenanceAmong.plan_resident (g := g.withProvenance table) h hStaged hFacts hGet hChanges
    obtain ⟨table', hLoop, hFold, hTable⟩ := ih
      (fun other hOther => hSelectors other (List.mem_cons_of_mem fact hOther)) hNext
    refine ⟨table', ?_, ?_, hTable.congr fun s => ?_⟩
    · rw [List.foldlM_cons]
      exact except_bind_eq_ok.mpr ⟨g.withProvenance (table ∪ changes),
        except_bind_eq_ok.mpr ⟨changes, hChanges, rfl⟩, hLoop⟩
    · rw [List.foldl_cons, hChanges]
      exact hFold
    · simp only [List.mem_cons, exists_eq_or_imp, eq_comm (a := s)]
      rw [or_left_comm, or_assoc]

omit [Platform] hResident hStaged hFull hFits in
private theorem mem_residentSelectors {fact : SignedFact} :
    fact ∈ g.residentSelectors ↔
      g.facts[fact.id]? = some fact ∧ fact.content.body.lineageSelector.isSome = true := by
  unfold FactGraph.residentSelectors
  rw [List.mem_filter, List.mem_map]
  refine and_congr_left fun _ => ?_
  constructor
  · rintro ⟨⟨id, stored⟩, hEntry, rfl⟩
    have hGet := Std.ExtTreeMap.mem_toList_iff_getElem?_eq_some.mp hEntry
    have hId : stored.id = id := hFacts.id_eq hGet
    rwa [hId]
  · exact fun hGet => ⟨(fact.id, fact),
      Std.ExtTreeMap.mem_toList_iff_getElem?_eq_some.mpr hGet, rfl⟩

/-- **Replanning every resident selector gives the complete table.** The checked
and the skipping loop agree, because every plan fits. -/
theorem FactGraph.rebuildProvenance_exact {done : FactId → Prop}
    (hTable : ProvenanceAmong g.facts done g.authorityProvenance) :
    ∃ table, ProvenanceOf g.facts table ∧ g.rebuildProvenance = g.withProvenance table ∧
      g.rebuildProvenanceChecked =
        (g.withProvenance table).logicalIndexResidencyBytes.map fun bytes =>
          { g.withProvenance table with derivedIndexBytes := bytes } := by
  obtain ⟨table, hLoop, hFold, hAll⟩ := provenance_foldl hFacts hResident hStaged hFull hFits
    g.residentSelectors (fun fact hFact => ((mem_residentSelectors hFacts).mp hFact).1) hTable
  refine ⟨table, ?_, hFold, ?_⟩
  · refine ⟨fun id s _ => ?_, fun id s h => absurd trivial h, hAll.nonempty⟩
    by_cases hDone : (∃ fact ∈ g.residentSelectors, fact.id = s) ∨ done s
    · exact hAll.exact_of_done id s hDone
    · rw [hAll.none_of_not_done id s hDone, provenanceEntry_of_selectedOf_none]
      cases hSelected : selectedOf g.facts s with
      | none => rfl
      | some selected =>
        unfold selectedOf at hSelected
        obtain ⟨pair, hBind, -⟩ := Option.map_eq_some_iff.mp hSelected
        obtain ⟨fact, hGet, hSelector⟩ := Option.bind_eq_some_iff.mp hBind
        have hId := hFacts.id_eq hGet
        refine absurd (.inl ⟨fact, (mem_residentSelectors hFacts).mpr ⟨?_, ?_⟩, hId⟩) hDone
        · rw [hId, hGet]
        · rw [hSelector]
          rfl
  · unfold FactGraph.rebuildProvenanceChecked
    change (g.residentSelectors.foldlM _ (g.withProvenance g.authorityProvenance) >>= _) = _
    rw [hLoop]
    change (FactGraph.logicalIndexResidencyBytes _ >>= _) = _
    cases (g.withProvenance table).logicalIndexResidencyBytes <;> rfl

end Provenance

/-! ## The rebuild -/

namespace FactGraph

/-- The counters, order and cache of another graph: what a rebuild recomputes
beside the indexes. -/
def withLedger (g source : FactGraph) : FactGraph :=
  { g with
    admissionOrder := source.admissionOrder
    admittedFactCount := source.admittedFactCount
    admittedBytes := source.admittedBytes
    derivedIndexBytes := source.derivedIndexBytes
    quarantinedBytes := source.quarantinedBytes
    admittedDependencyEdges := source.admittedDependencyEdges
    quarantinedDependencyEdges := source.quarantinedDependencyEdges
    indexedFactCount := source.indexedFactCount
    indexedRevision := source.indexedRevision
    projectionCache := source.projectionCache }

variable [Platform]

private theorem rebuildProvenance_frame (g : FactGraph) : IndexFrame g g.rebuildProvenance := by
  unfold rebuildProvenance
  generalize g.residentSelectors = selectors
  induction selectors generalizing g with
  | nil => exact IndexFrame.refl g
  | cons fact selectors ih =>
    rw [List.foldl_cons]
    refine IndexFrame.trans ?_ (ih _)
    cases g.plannedProvenance fact <;> rfl

private theorem reconcileTotals_frame (g : FactGraph) :
    g.reconcileTotals = g.withLedger g.reconcileTotals := by
  unfold reconcileTotals
  split <;> rfl

/-- A rebuild recounts what its indexes describe. -/
private theorem rebuildIndexes_ledger (g : FactGraph) :
    g.rebuildIndexes = g.restoredIndexes.withLedger g.rebuildIndexes := by
  unfold rebuildIndexes
  dsimp only
  generalize g.restoredIndexes = restored
  have hTotals := reconcileTotals_frame
    { restored with
      indexedFactCount := restored.facts.size
      indexedRevision := restored.factsRevision
      admittedFactCount := restored.facts.size }
  generalize FactGraph.reconcileTotals _ = reconciled at hTotals ⊢
  exact congrArg (fun h : FactGraph => { h with
    derivedIndexBytes := (reconciled.logicalIndexResidencyBytes).toOption.getD u64Max
    projectionCache := none }) hTotals

/-- A rebuild changes indexes, counters, order and cache, and nothing else. -/
theorem rebuildIndexes_frame (g : FactGraph) :
    g.rebuildIndexes = (g.withIndexes g.rebuildIndexes).withLedger g.rebuildIndexes := by
  have hRestored : g.restoredIndexes =
      { g.withIndexes g.restoredIndexes with admissionOrder := causalOrder g.facts } := by
    have hReindex := g.reindex_frame
    unfold restoredIndexes
    split
    · rw [hReindex]
      rfl
    · have hFrame := rebuildProvenance_frame g.reindex
      unfold IndexFrame at hFrame
      rw [hFrame, hReindex]
      rfl
  have hLedger := g.rebuildIndexes_ledger
  generalize g.rebuildIndexes = rebuilt at hLedger ⊢
  generalize g.restoredIndexes = restored at hRestored hLedger
  rw [hLedger, hRestored]
  rfl

/-- Without retired history a rebuild indexes and replans. -/
theorem rebuildIndexes_of_complete {g : FactGraph} (hComplete : g.admittedFactCount ≤ g.facts.size) :
    g.rebuildIndexes = g.reindex.rebuildProvenance.withLedger g.rebuildIndexes := by
  have hRestored : g.restoredIndexes = g.reindex.rebuildProvenance :=
    if_neg (Nat.not_lt.mpr hComplete)
  rw [← hRestored]
  exact g.rebuildIndexes_ledger

/-- **A rebuild of a complete graph is exact**: it forgets what the indexes held
and counts its facts again. -/
theorem rebuildIndexes_exact {g : FactGraph} {full : AuthorityProvenance}
    (hFacts : CausalFacts g.facts) (hResident : SelectedResident g.facts)
    (hStaged : g.stagedColdPending = 0) (hFull : ProvenanceOf g.facts full)
    (hFits : TableFits g full) (hComplete : g.admittedFactCount ≤ g.facts.size) :
    GraphExact g.rebuildIndexes := by
  obtain ⟨hMeta, hHeads, hEmpty⟩ := reindex_exact hFacts
  have hFrame := g.reindex_frame
  have hFactsEq : g.reindex.facts = g.facts := by rw [hFrame]; rfl
  have hStagedEq : g.reindex.stagedColdPending = 0 := by rw [hFrame]; exact hStaged
  have hLimits : g.reindex.policyLimits = g.policyLimits := by rw [hFrame]; rfl
  have hNone : ProvenanceAmong g.reindex.facts (fun _ => False) g.reindex.authorityProvenance := by
    rw [hEmpty]
    exact ⟨fun _ _ h => h.elim, fun id s _ => by simp, fun id row h => by simp at h⟩
  obtain ⟨table, hTable, hRebuilt, -⟩ := rebuildProvenance_exact (g := g.reindex)
    (hFactsEq ▸ hFacts) (hFactsEq ▸ hResident) hStagedEq (hFactsEq ▸ hFull)
    ⟨hFits.1, hLimits ▸ hFits.2⟩ hNone
  rw [hFactsEq] at hTable
  rw [rebuildIndexes_of_complete hComplete, hRebuilt]
  generalize g.rebuildIndexes = rebuilt
  exact GraphExact.of_facts hFactsEq
    ⟨hMeta.authorityFacts, hMeta.selectors, hMeta.cells, hMeta.standDown⟩
    ⟨hHeads.cellHeads, hHeads.authorityHeads⟩ hTable

end FactGraph

end MyOwnMesh.Semantic

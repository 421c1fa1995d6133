import MyOwnMesh.Semantic.History

/-!
# Exclusive sibling confinement

The indexed heads of a cell are the admitted facts that advance it and that no
other such fact depends on. While two or more of them are authoritative the
cell projects to a conflict that names them, nothing is effective in it, and
this lasts until a fact is above all of them.

The cached projection of a graph can miss that a head has got its authority
back: a resolution of a forked role ends the fork, but only the descendants of
the joined heads are projected again. Heads are dominated along signed
dependencies: parents, AuthorityUse predecessors and the facts a body cites.
-/

namespace MyOwnMesh.Semantic

open Foundation

/-! ## Heads -/

section Heads

variable {g : FactGraph}
variable {cell : ExclusiveCell} {id : FactId}

/-- The indexed heads of a cell are its maximal admitted facts. -/
theorem mem_rawCellHeads (hCurrent : g.indexesCurrent = true) (hExact : GraphExact g) :
    id ∈ g.rawCellHeads cell ↔ Advances g.facts cell id ∧
      ∀ other, Advances g.facts cell other → ¬ Depends g.facts id other := by
  have hResident {a : FactId} (h : Advances g.facts cell a) : a ∈ g.facts := by
    obtain ⟨fact, hGet, -⟩ := h
    exact mem_iff_exists.mpr ⟨fact, hGet⟩
  unfold FactGraph.rawCellHeads
  rw [if_pos hCurrent, Std.ExtTreeSet.mem_toList, hExact.heads.cellHeads.mem_iff]
  constructor
  · rintro ⟨⟨-, hId⟩, hMax⟩
    exact ⟨hId, fun other hOther => hMax other ⟨hResident hOther, hOther⟩⟩
  · rintro ⟨hId, hMax⟩
    exact ⟨⟨hResident hId, hId⟩, fun other hOther => hMax other hOther.2⟩

/-- The indexed heads of a lineage are its maximal admitted facts. -/
theorem mem_rawAuthorityUseHeads (hCurrent : g.indexesCurrent = true) (hExact : GraphExact g)
    {subject : DeviceId} :
    id ∈ g.rawAuthorityUseHeads subject ↔
      IsHead (Depends g.facts) (ExtendsLineage g.facts subject) id := by
  have hResident {a : FactId} (h : ExtendsLineage g.facts subject a) : a ∈ g.facts := by
    obtain ⟨fact, hGet, -⟩ := h
    exact mem_iff_exists.mpr ⟨fact, hGet⟩
  unfold FactGraph.rawAuthorityUseHeads
  rw [if_pos hCurrent, List.mem_filter, Std.ExtTreeSet.mem_toList,
    hExact.heads.authorityHeads.mem_iff]
  constructor
  · rintro ⟨⟨⟨-, hId⟩, hMax⟩, -⟩
    exact ⟨hId, fun other hOther => hMax other ⟨hResident hOther, hOther⟩⟩
  · rintro ⟨hId, hMax⟩
    refine ⟨⟨⟨hResident hId, hId⟩, fun other hOther => hMax other hOther.2⟩, ?_⟩
    obtain ⟨fact, hGet, -, hLocal⟩ := hId
    rw [hGet]
    simp [hLocal]

/-- Every fact of a set of admitted facts is a head of it or below one. -/
theorem CausalFacts.exists_head_above {facts : Facts} (hFacts : CausalFacts facts)
    {S : FactId → Prop} (hS : ∀ id, S id → ∃ fact, facts[id]? = some fact) (hId : S id) :
    ∃ head, IsHead (Depends facts) S head ∧ (head = id ∨ Depends facts id head) := by
  have hFinite : {id | S id}.Finite := by
    refine (List.finite_toSet facts.keys).subset fun id hId => ?_
    exact Std.ExtTreeMap.mem_keys.mpr (mem_iff_exists.mpr (hS id hId))
  exact exists_isHead_above hFinite (fun _ _ _ hab hbc => Relation.TransGen.trans hab hbc)
    hFacts.acyclic hId

/-- A fact that advances a cell is a head of it or below one. -/
theorem exists_rawCellHead_above (hCurrent : g.indexesCurrent = true) (hExact : GraphExact g)
    (hFacts : CausalFacts g.facts) (hId : Advances g.facts cell id) :
    ∃ head ∈ g.rawCellHeads cell, head = id ∨ Depends g.facts id head := by
  obtain ⟨head, hHead, hAbove⟩ := hFacts.exists_head_above
    (fun _ ⟨fact, hGet, _⟩ => ⟨fact, hGet⟩) hId
  exact ⟨head, (mem_rawCellHeads hCurrent hExact).mpr hHead, hAbove⟩

/-- The heads a cell is projected from are indexed heads. -/
theorem cellHeads_subset (g : FactGraph) (cell : ExclusiveCell) :
    g.cellHeads cell ⊆ g.rawCellHeads cell := by
  unfold FactGraph.cellHeads
  dsimp only
  split
  · exact fun _ h => h
  · exact fun _ h => List.mem_of_mem_filter h

/-- A cell without authoritative heads projects to nothing. -/
theorem projectedCell_eq_none (h : g.cellHeads cell = []) : g.projectedCell cell = none := by
  unfold FactGraph.projectedCell
  rw [h]

theorem two_le_length_of_ne {ids : List FactId} {a b : FactId} (ha : a ∈ ids) (hb : b ∈ ids)
    (h : a ≠ b) : 2 ≤ ids.length := by
  have hPair : [a, b].Subperm ids := List.subperm_of_subset (by simp [h]) (by simp [ha, hb])
  exact hPair.length_le

/-- Two heads make a conflict that names them. -/
theorem projectedCell_eq_conflict (h : 2 ≤ (g.cellHeads cell).length) :
    g.projectedCell cell = some (.conflict (g.cellHeads cell)) := by
  unfold FactGraph.projectedCell
  split
  · next hNil => simp [hNil] at h
  · next head hOne => simp [hOne] at h
  · rfl

end Heads

/-! ## The projection from scratch -/

variable [Platform]

/-- From scratch every cell has its projected value. -/
theorem fromGraph_cells {g : FactGraph} (hCurrent : g.indexesCurrent = true)
    (hExact : GraphExact g) (cell : ExclusiveCell) :
    (Projection.fromGraph g).cells[cell]? = g.projectedCell cell := by
  have hFold := getElem?_foldl_assign_values g.projectedCell g.indexedCells.toList
    (∅ : OrdMap ExclusiveCell CellProjection) cell
  show (g.indexedCells.toList.foldl (fun cells cell => assign cells cell (g.projectedCell cell))
    ∅)[cell]? = _
  rw [hFold]
  by_cases hCell : cell ∈ g.indexedCells.toList
  · rw [if_pos hCell]
  · rw [if_neg hCell, projectedCell_eq_none]
    · simp
    · refine List.eq_nil_iff_forall_not_mem.mpr fun id hId => hCell ?_
      have hHead := (mem_rawCellHeads hCurrent hExact).mp (cellHeads_subset g cell hId)
      obtain ⟨fact, hGet, hAdvances⟩ := hHead.1
      unfold FactGraph.indexedCells
      rw [if_pos hCurrent, Std.ExtTreeSet.mem_toList, hExact.metadata.cells]
      exact ⟨id, mem_iff_exists.mpr ⟨fact, hGet⟩, fact, hGet, hAdvances⟩

/-! ## Effects of a conflict -/

/-- Nothing derived from a cell is effective. -/
def SemanticEvaluator.Ineffective (e : SemanticEvaluator) : ExclusiveCell → Prop
  | .role subject => e.effectiveRole subject = none
  | .membership subject => e.effectiveMembership subject = none
  | .decision proposal => e.effectiveDecision proposal = none

omit [Platform] in
/-- A conflicted cell has no effect, whatever the rest of the projection says. -/
theorem ineffective_of_conflict {e : SemanticEvaluator} {cell : ExclusiveCell}
    {heads : List FactId} (h : e.projection.cells[cell]? = some (.conflict heads)) :
    e.Ineffective cell := by
  have hValue : e.projection.value cell = none := by
    simp [Projection.value, h]
  have hFact : e.projectedFact cell = none := by
    simp [SemanticEvaluator.projectedFact, hValue]
  cases cell with
  | role subject =>
    have hConflict : e.projection.isConflicted (.role subject) = true := by
      simp [Projection.isConflicted, h]
    show e.effectiveRole subject = none
    simp [SemanticEvaluator.effectiveRole, hConflict]
  | membership subject =>
    show e.effectiveMembership subject = none
    simp [SemanticEvaluator.effectiveMembership, hFact]
  | decision proposal =>
    show e.effectiveDecision proposal = none
    simp [SemanticEvaluator.effectiveDecision, hFact]

/-- The projection a graph holds has at a cell the value of its facts. -/
def HoldsCell (g : FactGraph) (cell : ExclusiveCell) : Prop :=
  g.projection.cells[cell]? = (Projection.fromGraph g).cells[cell]?

instance (g : FactGraph) (cell : ExclusiveCell) : Decidable (HoldsCell g cell) :=
  inferInstanceAs (Decidable (_ = _))

section Sample

omit [Platform]

/-- Two grants of one role by the root, without knowledge of each other. -/
def siblingGrants : List SignedFact :=
  [sampleFact (sampleDevice 1) (.roleGrant (sampleDevice 3) .member) [] [],
    sampleFact (sampleDevice 1) (.roleGrant (sampleDevice 3) .controller) [] []]

def siblingGraph : FactGraph :=
  @runCalls samplePlatform (.fromBootstrapWithPolicy sampleBootstrap sampleLimits)
    (siblingGrants.map .admitted)

end Sample

end MyOwnMesh.Semantic

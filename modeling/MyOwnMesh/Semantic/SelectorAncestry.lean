import MyOwnMesh.Semantic.OwnerRun

/-!
# Selector queries read signed ancestry

The table `authorityProvenance` is kept up to date one fact at a time, whichever of a fact
and a selector arrives first. In a reachable graph it records exactly the pairs of a fact
and a lineage selector that are related by signed parents, so the queries that read the
table, `selectorPermitsFact` and `maximalTypedSelectors`, answer by ancestry although they
never walk a parent.
-/

namespace MyOwnMesh.Semantic

open Foundation

/-! ## Ancestry of selectors -/

/-- `selector` is a resident lineage resolution of `subject` that selects `selected`. -/
def Selects (facts : Facts) (selector : FactId) (subject : DeviceId) (selected : FactId) : Prop :=
  ∃ fact, facts[selector]? = some fact ∧
    fact.content.body.lineageSelector = some (subject, selected)

/-- `id` is `above` or descends from it. -/
def AtOrBelow (facts : Facts) (above id : FactId) : Prop := id = above ∨ Ancestor facts above id

/-- `id` is on the side of the selector: after it, after its selected head, or before it. -/
def OnSelectedSide (facts : Facts) (selector selected id : FactId) : Prop :=
  AtOrBelow facts selector id ∨ AtOrBelow facts selected id ∨ AtOrBelow facts id selected

/-- A selector of `subject` that one of the heads is or descends from. -/
def SelectorAbove (facts : Facts) (subject : DeviceId) (heads : List FactId)
    (selector : FactId) : Prop :=
  (∃ selected, Selects facts selector subject selected) ∧
    ∃ head ∈ heads, AtOrBelow facts selector head

section Facts

variable {facts : Facts} {selector selected id : FactId} {subject : DeviceId}

theorem Selects.selectedOf (h : Selects facts selector subject selected) :
    selectedOf facts selector = some selected := by
  obtain ⟨fact, hGet, hBody⟩ := h
  simp [Semantic.selectedOf, hGet, hBody]

theorem Selects.mem (h : Selects facts selector subject selected) : selector ∈ facts :=
  mem_iff_exists.mpr ⟨h.choose, h.choose_spec.1⟩

theorem AtOrBelow.mem {above : FactId} (h : AtOrBelow facts above id) (hAbove : above ∈ facts) :
    id ∈ facts := by
  rcases h with rfl | hBelow
  · exact hAbove
  · exact (Ancestor.depends hBelow).mem

theorem isSelectorOf_iff {g : FactGraph} :
    g.isSelectorOf selector subject selected = true ↔
      Selects g.facts selector subject selected := by
  unfold FactGraph.isSelectorOf Selects
  cases g.facts[selector]? <;> simp

theorem atOrBelow_flip : (id = selected ∨ Ancestor facts id selected) ↔
    AtOrBelow facts id selected :=
  or_congr_left eq_comm

theorem exactRelation_related_iff :
    (exactRelation facts selector selected id).isRelated = true ↔
      OnSelectedSide facts selector selected id := by
  rw [exactRelation_isRelated_iff, atOrBelow_flip]
  rfl

end Facts

/-! ## The table -/

section Table

variable {g : FactGraph} (hTable : ProvenanceOf g.facts g.authorityProvenance)
  {selector selected id : FactId} {subject : DeviceId}

include hTable

/-- The entry of a fact and a selector, when there is one. -/
theorem recorded_iff (hSelects : Selects g.facts selector subject selected)
    {relation : AuthoritySelectorRelation} :
    (g.authorityProvenance.getD id ∅)[selector]? = some relation ↔
      (id ∈ g.facts ∧ OnSelectedSide g.facts selector selected id) ∧
        exactRelation g.facts selector selected id = relation := by
  rw [hTable.exact_of_done id selector trivial,
    provenanceEntry_eq_some_iff hSelects.selectedOf, exactRelation_related_iff]

/-- The table answers what ancestry says. -/
theorem selectorPermitsFact_iff : g.selectorPermitsFact selector id = true ↔
    id ∈ g.facts ∧ ∃ subject selected, Selects g.facts selector subject selected ∧
      OnSelectedSide g.facts selector selected id := by
  constructor
  · intro hPermits
    unfold FactGraph.selectorPermitsFact at hPermits
    cases hGet : g.facts[selector]? with
    | none => simp [hGet] at hPermits
    | some stored =>
      cases hBody : stored.content.body.lineageSelector with
      | none => simp [hGet, hBody] at hPermits
      | some pair =>
        obtain ⟨subject, selected⟩ := pair
        have hSelects : Selects g.facts selector subject selected := ⟨stored, hGet, hBody⟩
        cases hRow : (g.authorityProvenance.getD id ∅)[selector]? with
        | none => simp [hGet, hBody, hRow] at hPermits
        | some relation =>
          obtain ⟨⟨hMem, hSide⟩, -⟩ := (recorded_iff hTable hSelects).mp hRow
          exact ⟨hMem, subject, selected, hSelects, hSide⟩
  · rintro ⟨hMem, subject, selected, hSelects, hSide⟩
    have hRow := (recorded_iff hTable hSelects).mpr ⟨⟨hMem, hSide⟩, rfl⟩
    have hRelated := exactRelation_related_iff.mpr hSide
    obtain ⟨stored, hGet, hBody⟩ := hSelects
    have hSelected : (exactRelation g.facts selector selected id).selected = selected := rfl
    simpa [FactGraph.selectorPermitsFact, hGet, hBody, hRow, hSelected,
      AuthoritySelectorRelation.isRelated] using hRelated

theorem postSelector_iff (hSelects : Selects g.facts selector subject selected)
    (hMem : id ∈ g.facts) : g.postSelector id selector = true ↔ AtOrBelow g.facts selector id := by
  unfold FactGraph.postSelector
  constructor
  · intro hPost
    cases hRow : (g.authorityProvenance.getD id ∅)[selector]? with
    | none => simp [hRow] at hPost
    | some relation =>
      obtain ⟨-, rfl⟩ := (recorded_iff hTable hSelects).mp hRow
      exact exactRelation_postSelector_iff.mp (by simpa [hRow] using hPost)
  · intro hBelow
    rw [(recorded_iff hTable hSelects).mpr ⟨⟨hMem, .inl hBelow⟩, rfl⟩]
    exact exactRelation_postSelector_iff.mpr hBelow

theorem mem_ancestralTypedSelectors {heads : List FactId} :
    selector ∈ g.ancestralTypedSelectors subject heads ↔
      SelectorAbove g.facts subject heads selector := by
  unfold FactGraph.ancestralTypedSelectors
  rw [mem_setOfList, List.mem_flatMap]
  constructor
  · rintro ⟨head, hHead, hMem⟩
    obtain ⟨⟨_, relation⟩, hEntry, rfl⟩ := List.mem_map.mp hMem
    obtain ⟨hRow, hTest⟩ := List.mem_filter.mp hEntry
    obtain ⟨hPost, hSelector⟩ := Bool.and_eq_true_iff.mp hTest
    have hSelects := isSelectorOf_iff.mp hSelector
    have hGet := Std.ExtTreeMap.mem_toList_iff_getElem?_eq_some.mp hRow
    rw [← ((recorded_iff hTable hSelects).mp hGet).2] at hPost
    exact ⟨⟨_, hSelects⟩, head, hHead, exactRelation_postSelector_iff.mp hPost⟩
  · rintro ⟨⟨selected, hSelects⟩, head, hHead, hBelow⟩
    have hRow := (recorded_iff hTable hSelects).mpr
      ⟨⟨hBelow.mem hSelects.mem, .inl hBelow⟩, rfl⟩
    refine ⟨head, hHead, List.mem_map.mpr ⟨(selector, _), List.mem_filter.mpr
      ⟨Std.ExtTreeMap.mem_toList_iff_getElem?_eq_some.mpr hRow, ?_⟩, rfl⟩⟩
    exact Bool.and_eq_true_iff.mpr
      ⟨exactRelation_postSelector_iff.mpr hBelow, isSelectorOf_iff.mpr hSelects⟩

theorem mem_maximalTypedSelectors (hCausal : CausalFacts g.facts) {heads : List FactId} :
    selector ∈ g.maximalTypedSelectors subject heads ↔
      SelectorAbove g.facts subject heads selector ∧
        ∀ other, SelectorAbove g.facts subject heads other →
          ¬ Ancestor g.facts selector other := by
  unfold FactGraph.maximalTypedSelectors FactGraph.maximaOf
  rw [List.mem_filter, Std.ExtTreeSet.mem_toList, mem_ancestralTypedSelectors hTable]
  refine and_congr_right fun hAbove => ?_
  obtain ⟨⟨selected, hSelects⟩, -⟩ := hAbove
  rw [Bool.not_eq_true', List.any_eq_false]
  constructor
  · intro hNone other hOther hBelow
    have hMem := (mem_ancestralTypedSelectors hTable).mpr hOther
    have hResident := hOther.1.choose_spec.mem
    have hDistinct : selector ≠ other := by
      rintro rfl
      exact hCausal.ancestor_irrefl selector hBelow
    refine hNone other (Std.ExtTreeSet.mem_toList.mpr hMem) ?_
    rw [Bool.and_eq_true, postSelector_iff hTable hSelects hResident]
    exact ⟨bne_iff_ne.mpr hDistinct, .inr hBelow⟩
  · intro hMaximal other hOther hTest
    have hAbove := (mem_ancestralTypedSelectors hTable).mp (Std.ExtTreeSet.mem_toList.mp hOther)
    rw [Bool.and_eq_true, postSelector_iff hTable hSelects hAbove.1.choose_spec.mem] at hTest
    rcases hTest.2 with rfl | hBelow
    · exact bne_iff_ne.mp hTest.1 rfl
    · exact hMaximal other hAbove hBelow

end Table

/-! ## Reachable graphs -/

variable [Platform]

/-- **Selector provenance is signed ancestry.** In a graph reached without retiring history
the recorded relation of a fact to a lineage selector is that of the signed parents, every
related pair is recorded, and so both selector queries answer by ancestry. A fact counts as
before the selected head also when it is that head. -/
theorem selector_provenance_is_ancestry {bootstrap : VerifiedBootstrap}
    {limits : SemanticAdmissionPolicy} {g : FactGraph} (h : Reachable bootstrap limits g) :
    (∀ (id selector selected : FactId) (subject : DeviceId), id ∈ g.facts →
      Selects g.facts selector subject selected →
      (∀ relation, (g.authorityProvenance.getD id ∅)[selector]? = some relation →
        relation.selected = selected ∧
        (relation.postSelector = true ↔ id = selector ∨ Ancestor g.facts selector id) ∧
        (relation.selectedBefore = true ↔ id = selected ∨ Ancestor g.facts selected id) ∧
        (relation.beforeSelected = true ↔ id = selected ∨ Ancestor g.facts id selected)) ∧
      ((∃ relation, (g.authorityProvenance.getD id ∅)[selector]? = some relation) ↔
        OnSelectedSide g.facts selector selected id)) ∧
    (∀ selector id : FactId, g.selectorPermitsFact selector id = true ↔
      id ∈ g.facts ∧ ∃ subject selected, Selects g.facts selector subject selected ∧
        OnSelectedSide g.facts selector selected id) ∧
    ∀ (subject : DeviceId) (heads : List FactId) (selector : FactId),
      selector ∈ g.maximalTypedSelectors subject heads ↔
        SelectorAbove g.facts subject heads selector ∧
          ∀ other, SelectorAbove g.facts subject heads other →
            ¬ Ancestor g.facts selector other := by
  have hSound := h.settled
  have hTable := hSound.exact.provenance
  refine ⟨fun id selector selected subject hMem hSelects => ⟨fun relation hRow => ?_, ?_⟩,
    fun selector id => selectorPermitsFact_iff hTable,
    fun subject heads selector => mem_maximalTypedSelectors hTable hSound.causal⟩
  · obtain ⟨-, rfl⟩ := (recorded_iff hTable hSelects).mp hRow
    exact ⟨rfl, exactRelation_postSelector_iff, exactRelation_selectedBefore_iff,
      exactRelation_beforeSelected_iff⟩
  · constructor
    · rintro ⟨relation, hRow⟩
      exact ((recorded_iff hTable hSelects).mp hRow).1.2
    · intro hSide
      exact ⟨_, (recorded_iff hTable hSelects).mpr ⟨⟨hMem, hSide⟩, rfl⟩⟩

/-- Two grants by the root without knowledge of each other, and the root's resolution of its
own lineage in favour of the first. -/
def joinedGrants : List SignedFact :=
  let first := sampleFact (sampleDevice 1) (.roleGrant (sampleDevice 6) .controller) [] []
  let second := sampleFact (sampleDevice 1) (.roleGrant (sampleDevice 7) .member) [] []
  let join := sampleFact (sampleDevice 1) (.authorityLineageResolution (sampleDevice 1)
    (sortDedup [first.id, second.id]) first.id) [(sampleDevice 1, [first.id, second.id])] []
  [first, second, join]

/-- The graph after all three. -/
def joinedGraph : FactGraph :=
  @runCalls samplePlatform (.fromBootstrapWithPolicy sampleBootstrap sampleLimits)
    (joinedGrants.map .admitted)

omit [Platform] in
theorem joinedGraph_reachable :
    @Reachable samplePlatform sampleBootstrap sampleLimits joinedGraph :=
  ⟨joinedGrants.map .admitted, rfl⟩

omit [Platform] in
/-- All three are admitted, and the resolution does not permit the second grant. -/
theorem joinedGraph_run : joinedGraph.facts[joinedGrants[2].id]? = some joinedGrants[2] ∧
    joinedGrants[0].id ∈ joinedGraph.facts ∧ joinedGrants[1].id ∈ joinedGraph.facts ∧
    joinedGraph.selectorPermitsFact joinedGrants[2].id joinedGrants[1].id = false := by
  decide +kernel

omit [Platform] in
theorem joinedGraph_selects :
    Selects joinedGraph.facts joinedGrants[2].id (sampleDevice 1) joinedGrants[0].id :=
  ⟨joinedGrants[2], joinedGraph_run.1, rfl⟩

omit [Platform] in
/-- The grant that was not selected is on neither side of the resolution. -/
theorem selector_provenance_is_ancestry_joined :
    joinedGrants[1].id ∈ joinedGraph.facts ∧
      ¬ OnSelectedSide joinedGraph.facts joinedGrants[2].id joinedGrants[0].id
        joinedGrants[1].id := by
  obtain ⟨-, -, hSecond, hForbids⟩ := joinedGraph_run
  refine ⟨hSecond, fun hSide => ?_⟩
  obtain ⟨-, hPermits, -⟩ :=
    @selector_provenance_is_ancestry samplePlatform _ _ _ joinedGraph_reachable
  have hPermitted := (hPermits _ _).mpr ⟨hSecond, _, _, joinedGraph_selects, hSide⟩
  exact absurd (hForbids.symm.trans hPermitted) (by decide)

omit [Platform] in
/-- The selected head itself is recorded as before the selected head. -/
theorem selected_head_before_itself : ∃ (_ : Platform) (bootstrap : VerifiedBootstrap)
    (limits : SemanticAdmissionPolicy) (g : FactGraph) (id selector : FactId)
    (subject : DeviceId) (relation : AuthoritySelectorRelation),
    Reachable bootstrap limits g ∧ Selects g.facts selector subject id ∧
      (g.authorityProvenance.getD id ∅)[selector]? = some relation ∧
      relation.beforeSelected = true ∧ ¬ Ancestor g.facts id id := by
  let _ : Platform := samplePlatform
  have hSound := joinedGraph_reachable.settled
  have hRow := (recorded_iff hSound.exact.provenance joinedGraph_selects).mpr
    ⟨⟨joinedGraph_run.2.1, .inr (.inl (.inl rfl))⟩, rfl⟩
  exact ⟨samplePlatform, sampleBootstrap, sampleLimits, joinedGraph, joinedGrants[0].id,
    joinedGrants[2].id, sampleDevice 1, _, joinedGraph_reachable, joinedGraph_selects, hRow,
    exactRelation_beforeSelected_iff.mpr (.inl rfl), hSound.causal.ancestor_irrefl _⟩

end MyOwnMesh.Semantic

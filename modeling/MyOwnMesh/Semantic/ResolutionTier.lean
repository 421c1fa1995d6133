import MyOwnMesh.Semantic.Authority
import MyOwnMesh.Semantic.ExclusiveCells

/-!
# The tier of a resolution

A resolution of a role, and a join of an authority lineage, is charged the highest
tier among the facts it cites. The walk over the cited facts knows grants,
revocations and nested resolutions of the role, and it reaches all of them: the
resolutions on its way are above the facts it has still to visit. Other facts, such as
an eviction, are skipped, so that they can be discarded beside a weaker one.
-/

namespace MyOwnMesh.Semantic

open Foundation SemanticEvaluator

/-- Covering a tier is the order of the ranks. -/
theorem tierCovers_iff {actual required : Role} :
    tierCovers actual required = true ↔ required.rank ≤ actual.rank := by
  cases actual <;> cases required <;> decide

theorem rank_le_maxTier (a b : Role) :
    a.rank ≤ (maxTier a b).rank ∧ b.rank ≤ (maxTier a b).rank := by
  cases a <;> cases b <;> decide

/-- The highest tier of a list is at least each of them. -/
theorem rank_le_foldl_maxTier (tiers : List Role) :
    ∀ {tier start : Role}, tier ∈ start :: tiers →
      tier.rank ≤ (tiers.foldl maxTier start).rank := by
  induction tiers with
  | nil =>
    intro tier start h
    rw [List.mem_singleton.mp h]
    exact le_refl _
  | cons next tiers ih =>
    intro tier start h
    have hFirst : (maxTier start next).rank ≤ (tiers.foldl maxTier (maxTier start next)).rank :=
      ih List.mem_cons_self
    rcases List.mem_cons.mp h with rfl | hLater
    · exact (rank_le_maxTier tier next).1.trans hFirst
    · rcases List.mem_cons.mp hLater with rfl | hTiers
      · exact (rank_le_maxTier start tier).2.trans hFirst
      · exact ih (List.mem_cons_of_mem _ hTiers)

theorem rank_le_highestTier {tiers : List Role} {tier other : Role} (h : tier ∈ tiers) :
    tier.rank ≤ ((highestTier tiers).getD other).rank := by
  cases tiers with
  | nil => cases h
  | cons first tiers => exact rank_le_foldl_maxTier tiers h

/-- The facts a resolution overrides: those it cites, and those that a resolution it overrides
cites. -/
inductive Overridden (facts : Facts) (citedHeads : List FactId) : FactId → Prop
  | cited {head : FactId} (hHead : head ∈ citedHeads) : Overridden facts citedHeads head
  | nested {above head : FactId} {resolution : SignedFact} {cell : ExclusiveCell}
      {heads : List FactId} {selected : FactId} (hAbove : Overridden facts citedHeads above)
      (hGet : facts[above]? = some resolution)
      (hBody : resolution.content.body = .resolution cell heads selected) (hHead : head ∈ heads) :
      Overridden facts citedHeads head

/-- Every resolution cites facts of its own cell. -/
def CitesCell (facts : Facts) : Prop :=
  ∀ (id : FactId) (resolution : SignedFact), facts[id]? = some resolution →
    ∀ cell heads selected, resolution.content.body = .resolution cell heads selected →
      ∀ head ∈ heads, head ∈ resolution.dependencies ∧ Advances facts cell head

variable [Platform]

/-! ## The walk -/

section Walk

variable {e : SemanticEvaluator} {subject : DeviceId} {citedHeads : List FactId}

theorem rank_le_of_candidate {fuel : Nat} {heads : List FactId} {visited : OrdSet FactId}
    {head : FactId} {tier : Role} (hHead : head ∈ heads)
    (h : e.resolutionCandidateTier subject (fun heads visited =>
      some (e.resolutionTierWithVisited fuel (.role subject) heads visited)) visited head =
        some tier) :
    tier.rank ≤ (e.resolutionTierWithVisited (fuel + 1) (.role subject) heads visited).rank := by
  rw [resolutionTierWithVisited]
  exact rank_le_highestTier (List.mem_filterMap.mpr ⟨head, hHead, h⟩)

/-- A resolution of a role is charged Controller at least. -/
theorem controller_le_resolutionTier (fuel : Nat) : ∀ (heads : List FactId)
    (visited : OrdSet FactId), Role.controller.rank ≤
      (e.resolutionTierWithVisited fuel (.role subject) heads visited).rank := by
  have hGrant (role : Role) : Role.controller.rank ≤ (grantTier role).rank := by
    cases role <;> decide
  have hOver (role : Option Role) : Role.controller.rank ≤ (tierOver role).rank := by
    rcases role with _ | role
    · decide
    · cases role <;> decide
  have hCandidate {nested : List FactId → OrdSet FactId → Option Role}
      (hNested : ∀ heads visited, ∀ tier ∈ nested heads visited, Role.controller.rank ≤ tier.rank)
      (heads : List FactId) (visited : OrdSet FactId) :
      Role.controller.rank ≤ ((highestTier (heads.filterMap (e.resolutionCandidateTier subject
        nested visited))).getD (e.targetTier subject)).rank := by
    cases hTiers : heads.filterMap (e.resolutionCandidateTier subject nested visited) with
    | nil => exact hOver _
    | cons tier tiers =>
      refine Nat.le_trans ?_ (rank_le_highestTier List.mem_cons_self)
      obtain ⟨head, -, hTier⟩ := List.mem_filterMap.mp (hTiers ▸ List.mem_cons_self :
        tier ∈ heads.filterMap (e.resolutionCandidateTier subject nested visited))
      unfold resolutionCandidateTier at hTier
      repeat' split at hTier
      all_goals first
        | exact hNested _ _ tier hTier
        | cases hTier
      · exact hGrant _
      · exact hOver _
  induction fuel with
  | zero =>
    intro heads visited
    rw [resolutionTierWithVisited]
    exact hCandidate (fun _ _ _ h => by cases h) heads visited
  | succ fuel ih =>
    intro heads visited
    rw [resolutionTierWithVisited]
    exact hCandidate (fun _ _ _ h => Option.some.inj h ▸ ih _ _) heads visited

/-- **The walk reaches every overridden fact of the cell.** `path` are the resolutions it went
through: they are resident and above the fact, so there is fuel left and the fact is not marked. -/
theorem Overridden.walked (hFacts : CausalFacts e.graph.facts) (hCites : CitesCell e.graph.facts)
    {id : FactId} (h : Overridden e.graph.facts citedHeads id) :
    ∀ {fact : SignedFact}, e.graph.facts[id]? = some fact →
      fact.content.body.exclusiveCells = [.role subject] →
      ∃ (path heads : List FactId) (visited : OrdSet FactId) (fuel : Nat),
        path.Nodup ∧ (∀ v ∈ path, v ∈ e.graph.facts ∧ Depends e.graph.facts id v) ∧
        (∀ v, v ∈ visited ↔ v ∈ path) ∧ e.graph.facts.size + 1 = fuel + 1 + path.length ∧
        id ∈ heads ∧ (e.resolutionTierWithVisited (fuel + 1) (.role subject) heads visited).rank ≤
          (e.resolutionTier (.role subject) citedHeads).rank := by
  induction h with
  | cited hHead =>
    exact fun _ _ => ⟨[], citedHeads, ∅, e.graph.facts.size, .nil,
      fun _ hv => (List.not_mem_nil hv).elim, fun v => by simp, rfl, hHead, le_refl _⟩
  | @nested above id resolution cell heads selected hAbove hGet hBody hHead ih =>
    intro fact hFact hCells
    obtain ⟨hDependency, stored, hStored, hAdvances⟩ := hCites above resolution hGet _ _ _ hBody id
      hHead
    obtain rfl := Option.some.inj (hStored.symm.trans hFact)
    obtain rfl : cell = .role subject := by
      rw [hCells] at hAdvances
      exact List.mem_singleton.mp hAdvances
    obtain ⟨path, level, visited, fuel, hNodup, hPath, hVisited, hFuel, hLevel, hRank⟩ :=
      ih hGet (by rw [hBody]; rfl)
    have hBelow : Depends e.graph.facts id above := by
      refine .single ?_
      rw [dependenciesIn_of_getElem? hGet]
      exact hDependency
    have hNew : above ∉ path := fun hMem => hFacts.acyclic above (hPath above hMem).2
    have hResident : above ∈ e.graph.facts := mem_iff_exists.mpr ⟨resolution, hGet⟩
    have hShort : (above :: path).length ≤ e.graph.facts.size := by
      rw [← Std.ExtTreeMap.length_keys]
      refine (List.subperm_of_subset (List.nodup_cons.mpr ⟨hNew, hNodup⟩) fun v hv => ?_).length_le
      rcases List.mem_cons.mp hv with rfl | hv
      · exact Std.ExtTreeMap.mem_keys.mpr hResident
      · exact Std.ExtTreeMap.mem_keys.mpr (hPath v hv).1
    obtain ⟨fuel, rfl⟩ : ∃ less, fuel = less + 1 :=
      Nat.exists_eq_succ_of_ne_zero (by rw [List.length_cons] at hShort; omega)
    have hCandidate : e.resolutionCandidateTier subject (fun heads visited =>
        some (e.resolutionTierWithVisited (fuel + 1) (.role subject) heads visited)) visited above =
          some (e.resolutionTierWithVisited (fuel + 1) (.role subject) heads
            (visited.insert above)) := by
      have hUnseen : visited.contains above = false := by
        rw [← Bool.not_eq_true, Std.ExtTreeSet.contains_iff_mem, hVisited]
        exact hNew
      simp [resolutionCandidateTier, hUnseen, hGet, hBody]
    refine ⟨above :: path, heads, visited.insert above, fuel, List.nodup_cons.mpr ⟨hNew, hNodup⟩,
      fun v hv => ?_, fun v => ?_, ?_, hHead, (rank_le_of_candidate hLevel hCandidate).trans hRank⟩
    · rcases List.mem_cons.mp hv with rfl | hv
      · exact ⟨hResident, hBelow⟩
      · exact ⟨(hPath v hv).1, Relation.TransGen.trans hBelow (hPath v hv).2⟩
    · rw [mem_insert_iff, hVisited, List.mem_cons, eq_comm]
    · rw [List.length_cons]
      omega

/-- What the walk reads off an overridden fact of the cell is charged. -/
theorem Overridden.charged (hFacts : CausalFacts e.graph.facts) (hCites : CitesCell e.graph.facts)
    {id : FactId} (h : Overridden e.graph.facts citedHeads id) {fact : SignedFact} {tier : Role}
    (hGet : e.graph.facts[id]? = some fact)
    (hCells : fact.content.body.exclusiveCells = [.role subject])
    (hTier : ∀ nested visited, id ∉ visited →
      e.resolutionCandidateTier subject nested visited id = some tier) :
    tier.rank ≤ (e.resolutionTier (.role subject) citedHeads).rank := by
  obtain ⟨path, heads, visited, fuel, -, hPath, hVisited, -, hHead, hRank⟩ :=
    h.walked hFacts hCites hGet hCells
  refine (rank_le_of_candidate hHead (hTier _ visited fun hMem => ?_)).trans hRank
  exact hFacts.acyclic id (hPath id ((hVisited id).mp hMem)).2

end Walk

/-! ## Overridden facts in the past -/

section Past

variable {g : FactGraph} {fact : SignedFact} {citedHeads : List FactId} {id : FactId}

omit [Platform] in
theorem checkResolution_advances {cell : ExclusiveCell} {heads : List FactId} {selected : FactId}
    (hBody : fact.content.body = .resolution cell heads selected)
    (h : g.checkResolution fact = .ok ()) : ∀ head ∈ heads, Advances g.facts cell head := by
  intro head hHead
  unfold FactGraph.checkResolution at h
  rw [hBody] at h
  dsimp only at h
  iterate 2 (split at h; · cases h)
  obtain ⟨_, -, h⟩ := except_bind_eq_ok.mp h
  obtain ⟨_, hAll, -⟩ := except_bind_eq_ok.mp h
  have hAdvances := forM_eq_ok.mp hAll head (mem_sortDedup.mpr hHead)
  cases hGet : g.facts[head]? with
  | none =>
    rw [hGet] at hAdvances
    cases hAdvances
  | some stored =>
    rw [hGet] at hAdvances
    dsimp only at hAdvances
    cases hCell : stored.content.body.advancesCell cell with
    | false =>
      simp only [hCell, Bool.not_false, if_true] at hAdvances
      cases hAdvances
    | true =>
      obtain ⟨candidate, hMem, hEq⟩ := List.any_eq_true.mp hCell
      exact ⟨stored, hGet, eq_of_beq hEq ▸ hMem⟩

/-- Every admitted resolution cites facts of its own cell. -/
theorem History.citesCell {bootstrap : VerifiedBootstrap} {limits : SemanticAdmissionPolicy}
    {cond : FactGraph → SignedFact → Prop}
    (h : History cond (.fromBootstrapWithPolicy bootstrap limits) g) : CitesCell g.facts := by
  intro id resolution hGet cell heads selected hBody head hHead
  obtain ⟨before, hBefore⟩ := h.judgedAt (empty_sound _ _ _ _) rfl hGet
  have hLive : BorrowAgrees (fun live _ => Within live.facts before.facts) before resolution := by
    intro live _ hCache _ _ _
    rw [hCache]
    exact fun _ _ h => h
  obtain ⟨judged, hVerdict, hWithin⟩ := hBefore.judged.judged hBefore.sound hBefore.resident hLive
    fun _ _ h => (getElem?_exactPast.mp h).1
  obtain ⟨_, hLineage, -⟩ := except_bind_eq_ok.mp hVerdict
  obtain ⟨_, hCheck, -⟩ := except_bind_eq_ok.mp hLineage
  obtain ⟨stored, hStored, hCell⟩ := checkResolution_advances hBody hCheck head hHead
  refine ⟨SignedFact.mem_dependencies_of_support ?_, stored,
    hBefore.within _ _ (hWithin _ _ hStored), hCell⟩
  rw [hBody]
  exact hHead

theorem CitesCell.past (h : CitesCell g.facts) : CitesCell (g.exactPast fact).facts := by
  intro id resolution hGet cell heads selected hBody head hHead
  obtain ⟨hLive, hMem⟩ := getElem?_exactPast.mp hGet
  obtain ⟨hDependency, stored, hStored, hCell⟩ := h id resolution hLive _ _ _ hBody head hHead
  exact ⟨hDependency, stored, getElem?_exactPast.mpr
    ⟨hStored, pastIds_closed hLive hMem hDependency⟩, hCell⟩

/-- What a resolution overrides is in its past. -/
theorem Overridden.past (hCites : CitesCell g.facts)
    (hCited : ∀ head ∈ citedHeads, head ∈ fact.dependencies)
    (h : Overridden g.facts citedHeads id) :
    id ∈ g.pastIds fact ∧ Overridden (g.exactPast fact).facts citedHeads id := by
  induction h with
  | cited hHead => exact ⟨mem_pastIds.mpr ⟨_, hCited _ hHead, .inl rfl⟩, .cited hHead⟩
  | nested _ hGet hBody hHead ih =>
    exact ⟨pastIds_closed hGet ih.1 (hCites _ _ hGet _ _ _ hBody _ hHead).1,
      .nested ih.2 (getElem?_exactPast.mpr ⟨hGet, ih.1⟩) hBody hHead⟩

/-- The past of a resident fact that advances a cell is never borrowed: the fact itself is not in
its past, and a head at or above it is none of its parents. -/
theorem causalPast_of_resident (hPast : PastGraph g) (hGet : g.facts[id]? = some fact)
    {cell : ExclusiveCell} (hCell : cell ∈ fact.content.body.exclusiveCells) :
    g.causalPast fact = (g.scopedGraph (g.pastIds fact)).map (⟨·, false⟩) := by
  have hResident : ∀ below ∈ g.pastIds fact, below ∈ g.facts := fun below hBelow =>
    mem_of_mem_pastIds hPast.causal (hPast.causal.closed hGet) hBelow
  have hHeads : g.currentHeadsAreComplete fact = false := by
    obtain ⟨head, hHead, hAbove⟩ := exists_rawCellHead_above hPast.current hPast.exact hPast.causal
      ⟨fact, hGet, hCell⟩
    by_contra hComplete
    rw [Bool.not_eq_false, FactGraph.currentHeadsAreComplete] at hComplete
    simp only [Bool.and_eq_true, List.all_eq_true] at hComplete
    have hParent := List.contains_iff_mem.mp (hComplete.1.2 cell hCell head hHead)
    have hBelow : Depends g.facts head id := depends_of_mem_pastIds hGet
      (mem_pastIds.mpr ⟨head, SignedFact.mem_dependencies_of_parent hParent, .inl rfl⟩)
    rcases hAbove with rfl | hAbove
    · exact hPast.causal.acyclic _ hBelow
    · exact hPast.causal.acyclic _ (Relation.TransGen.trans hBelow hAbove)
  have hNotAll : (g.pastIds fact).length ≠ g.facts.size := by
    have hNew : id ∉ g.pastIds fact := fun hMem =>
      hPast.causal.acyclic id (depends_of_mem_pastIds hGet hMem)
    have hShort : (id :: g.pastIds fact).length ≤ g.facts.size := by
      rw [← Std.ExtTreeMap.length_keys]
      refine (List.subperm_of_subset (List.nodup_cons.mpr ⟨hNew, traverse_nodup⟩)
        fun v hv => ?_).length_le
      rcases List.mem_cons.mp hv with rfl | hv
      · exact Std.ExtTreeMap.mem_keys.mpr (mem_iff_exists.mpr ⟨fact, hGet⟩)
      · exact Std.ExtTreeMap.mem_keys.mpr (hResident v hv)
    exact Nat.ne_of_lt hShort
  have hNone : (g.pastIds fact).find? (fun id => !g.facts.contains id) = none := by
    rw [List.find?_eq_none]
    intro below hBelow
    simp [Std.ExtTreeMap.contains_iff_mem.mpr (hResident below hBelow)]
  unfold FactGraph.causalPast
  rw [if_neg (Bool.eq_false_iff.mp hHeads),
    ← show g.pastIds fact = traverse (dependenciesIn g.facts) g.facts.keys fact.dependencies from rfl]
  dsimp only
  rw [hNone]
  dsimp only
  rw [if_neg hNotAll]
  cases g.scopedGraph (g.pastIds fact) <;> rfl

end Past

/-- What a resolution of a role is sure to cover: an operation below the tier of an Owner, a grant
to the subject, and a revocation of the subject whose past can be counted. -/
def Recognized (g : FactGraph) (subject : DeviceId) (fact : SignedFact) (required : Role) : Prop :=
  required ≠ .owner ∨ (∃ role, fact.content.body = .roleGrant subject role) ∨
    fact.content.body = .roleRevoke subject ∧
      (g.exactPast fact).logicalIndexResidencyBytes.isOk = true

/-- **A resolution is at least as strong as the grants and revocations it overrides**, directly or
through nested resolutions, and as whatever else did not take an Owner. -/
theorem resolution_covers_overridden {bootstrap : VerifiedBootstrap}
    {limits : SemanticAdmissionPolicy} {g : FactGraph}
    (h : History TierReadsPast (.fromBootstrapWithPolicy bootstrap limits) g)
    {id head : FactId} {fact overridden : SignedFact} {subject : DeviceId}
    {citedHeads : List FactId} {selected : FactId} {required : Role}
    (hGet : g.facts[id]? = some fact)
    (hBody : fact.content.body = .resolution (.role subject) citedHeads selected ∨
      fact.content.body = .authorityLineageResolution subject citedHeads selected)
    (hHead : Overridden g.facts citedHeads head) (hOverridden : g.facts[head]? = some overridden)
    (hRequired : (g.exactPast overridden).evaluator.operationTier overridden.content.body =
      some required)
    (hRecognized : Recognized g subject overridden required) :
    ∃ actual, (g.exactPast fact).evaluator.effectiveRole fact.content.author = some actual ∧
      tierCovers actual required = true := by
  have hSound := h.sound (empty_sound _ _ _ _)
  have hPast := exactPast_spec hSound.toSoundFacts (hSound.causal.closed hGet)
  have hChecked : ∀ device evidence, fact.content.body ≠ .selfStandDown device evidence := by
    rcases hBody with hBody | hBody <;> simp [hBody]
  obtain ⟨charged, actual, hCharged, hActual, hCovers⟩ := h.holdsTier hGet hChecked
  obtain rfl : (g.exactPast fact).evaluator.resolutionTier (.role subject) citedHeads =
      charged := by
    rcases hBody with hBody | hBody
    all_goals
      rw [hBody] at hCharged
      exact Option.some.inj hCharged
  have hCited : ∀ head ∈ citedHeads, head ∈ fact.dependencies := fun head hHead => by
    apply SignedFact.mem_dependencies_of_support
    rcases hBody with hBody | hBody <;> rw [hBody] <;> exact hHead
  obtain ⟨hMem, hWalked⟩ := hHead.past h.citesCell hCited
  have hStored : (g.exactPast fact).facts[head]? = some overridden :=
    getElem?_exactPast.mpr ⟨hOverridden, hMem⟩
  refine ⟨actual, hActual, tierCovers_iff.mpr (Nat.le_trans ?_ (tierCovers_iff.mp hCovers))⟩
  rcases hRecognized with hBelow | ⟨role, hGrant⟩ | ⟨hRevoke, hCounted⟩
  · refine Nat.le_trans ?_ (controller_le_resolutionTier _ citedHeads ∅)
    cases required with
    | owner => exact absurd rfl hBelow
    | controller | member => decide
  · obtain rfl : grantTier role = required := by
      rw [hGrant] at hRequired
      exact Option.some.inj hRequired
    refine hWalked.charged (e := (g.exactPast fact).evaluator) hPast.causal h.citesCell.past
      hStored (by rw [hGrant]; rfl) fun nested visited hUnseen => ?_
    have hContains : visited.contains head = false := by
      rwa [← Bool.not_eq_true, Std.ExtTreeSet.contains_iff_mem]
    simp [resolutionCandidateTier, FactGraph.evaluator, hContains, hStored, hGrant]
  · have hScoped : (g.exactPast fact).scopedGraph ((g.exactPast fact).pastIds overridden) =
        .ok (g.exactPast overridden) := by
      have hSame : g.rawPast overridden = (g.exactPast fact).rawPast overridden :=
        rawPast_within hPast.causal (fun _ _ h => (getElem?_exactPast.mp h).1)
          (exactPast_sameProject g fact).symm (hPast.causal.closed hStored)
      have hScoped (g : FactGraph) : g.scopedGraph (g.pastIds overridden) =
          (g.rawPast overridden).rebuildIndexes.rebuildProvenanceChecked := rfl
      have hEq : (g.exactPast fact).scopedGraph ((g.exactPast fact).pastIds overridden) =
          g.scopedGraph (g.pastIds overridden) := by
        rw [hScoped, hScoped, hSame]
      rw [hEq, scopedGraph_eq hSound.toSoundFacts (hSound.causal.closed hOverridden)]
      cases hBytes : (g.exactPast overridden).logicalIndexResidencyBytes with
      | error e =>
        rw [hBytes] at hCounted
        cases hCounted
      | ok bytes => rfl
    have hCell : .role subject ∈ overridden.content.body.exclusiveCells := by
      rw [hRevoke]
      exact List.mem_cons_self
    have hCausal := causalPast_of_resident hPast hStored hCell
    rw [hScoped] at hCausal
    obtain rfl : (g.exactPast overridden).evaluator.targetTier subject = required := by
      rw [hRevoke] at hRequired
      exact Option.some.inj hRequired
    refine hWalked.charged (e := (g.exactPast fact).evaluator) hPast.causal h.citesCell.past
      hStored (by rw [hRevoke]; rfl) fun nested visited hUnseen => ?_
    have hContains : visited.contains head = false := by
      rwa [← Bool.not_eq_true, Std.ExtTreeSet.contains_iff_mem]
    simp [resolutionCandidateTier, FactGraph.evaluator, hContains, hStored, hRevoke, hCausal,
      targetTier, Except.map]

/-! ## Sample runs -/

/-- A device made a member by the root is made a controller by one controller and revoked by the
root, who resolves in favour of the controller. That controller, who has not seen this, makes
it a member again, and the root resolves once more. The grants to other devices are what the
resolutions have not seen. -/
def resolvedTwice : List SignedFact :=
  let controller := sampleFact (sampleDevice 1) (.roleGrant (sampleDevice 2) .controller) [] []
  let member := sampleFact (sampleDevice 1) (.roleGrant (sampleDevice 3) .member)
    [(sampleDevice 1, [controller.id])] []
  let high := sampleFact (sampleDevice 2) (.roleGrant (sampleDevice 3) .controller)
    [(sampleDevice 2, [controller.id]), (sampleDevice 3, [member.id])] []
  let revoke := sampleFact (sampleDevice 1) (.roleRevoke (sampleDevice 3))
    [(sampleDevice 1, [member.id]), (sampleDevice 3, [member.id])] []
  let later := sampleFact (sampleDevice 2) (.roleGrant (sampleDevice 4) .member)
    [(sampleDevice 2, [high.id])] []
  let first := sampleFact (sampleDevice 1)
    (.resolution (.role (sampleDevice 3)) (sortDedup [revoke.id, high.id]) high.id)
    [(sampleDevice 1, [revoke.id]), (sampleDevice 3, [revoke.id, high.id])] []
  let again := sampleFact (sampleDevice 2) (.roleGrant (sampleDevice 3) .member)
    [(sampleDevice 2, [later.id]), (sampleDevice 3, [high.id])] []
  let last := sampleFact (sampleDevice 2) (.roleGrant (sampleDevice 5) .member)
    [(sampleDevice 2, [again.id])] []
  let second := sampleFact (sampleDevice 1)
    (.resolution (.role (sampleDevice 3)) (sortDedup [first.id, again.id]) again.id)
    [(sampleDevice 1, [first.id]), (sampleDevice 3, [first.id, again.id])] []
  [controller, member, high, revoke, later, first, again, last, second]

def resolvedTwiceGraph : Option FactGraph :=
  @admitEach samplePlatform (@grantReadsPast samplePlatform)
    (.fromBootstrapWithPolicy sampleBootstrap sampleLimits) resolvedTwice

omit [Platform] in
/-- The second resolution overrides the revocation through the first one, and covers it. -/
theorem resolution_covers_overridden_nested : let _ : Platform := samplePlatform
    ∃ g, resolvedTwiceGraph = some g ∧
      Overridden g.facts (sortDedup [resolvedTwice[5].id, resolvedTwice[6].id])
        resolvedTwice[3].id ∧
      ∃ actual, (g.exactPast resolvedTwice[8]).evaluator.effectiveRole (sampleDevice 1) =
        some actual ∧ tierCovers actual .controller = true := by
  have hRun : let _ : Platform := samplePlatform
      resolvedTwiceGraph.any (fun g =>
        g.facts[resolvedTwice[8].id]? = some resolvedTwice[8] ∧
        g.facts[resolvedTwice[5].id]? = some resolvedTwice[5] ∧
        g.facts[resolvedTwice[3].id]? = some resolvedTwice[3] ∧
        (g.exactPast resolvedTwice[3]).evaluator.operationTier resolvedTwice[3].content.body =
          some .controller ∧
        (g.exactPast resolvedTwice[3]).logicalIndexResidencyBytes.isOk = true) = true := by
    decide +kernel
  let _ : Platform := samplePlatform
  obtain ⟨g, hGraph, hTest⟩ := (Option.any_eq_true _ _).mp hRun
  obtain ⟨hGet, hFirst, hRevoke, hRequired, hCounted⟩ := of_decide_eq_true hTest
  have hHistory : History TierReadsPast (.fromBootstrapWithPolicy sampleBootstrap sampleLimits) g :=
    admitEach_history (fun _ _ => tierReadsPast_of_grantReadsPast) (empty_sound _ _ _ _)
      resolvedTwice .start hGraph
  have hBody : resolvedTwice[5].content.body = .resolution (.role (sampleDevice 3))
      (sortDedup [resolvedTwice[3].id, resolvedTwice[2].id]) resolvedTwice[2].id := rfl
  have hOverridden : Overridden g.facts (sortDedup [resolvedTwice[5].id, resolvedTwice[6].id])
      resolvedTwice[3].id :=
    .nested (.cited (mem_sortDedup.mpr List.mem_cons_self)) hFirst hBody
      (mem_sortDedup.mpr List.mem_cons_self)
  have hResolution : resolvedTwice[8].content.body = .resolution (.role (sampleDevice 3))
      (sortDedup [resolvedTwice[5].id, resolvedTwice[6].id]) resolvedTwice[6].id := rfl
  have hRole : resolvedTwice[3].content.body = .roleRevoke (sampleDevice 3) := rfl
  exact ⟨g, hGraph, hOverridden, resolution_covers_overridden hHistory hGet (.inl hResolution)
    hOverridden hRevoke hRequired (.inr (.inr ⟨hRole, hCounted⟩))⟩

/-- An Owner is evicted by the root and made a member by a controller, who then
resolves the role in favour of the member. -/
def discardedEviction : List SignedFact :=
  let controller := sampleFact (sampleDevice 1) (.roleGrant (sampleDevice 2) .controller) [] []
  let owner := sampleFact (sampleDevice 1) (.roleGrant (sampleDevice 5) .owner)
    [(sampleDevice 1, [controller.id])] []
  let evict := sampleFact (sampleDevice 1) (.evict (sampleDevice 5))
    [(sampleDevice 1, [owner.id]), (sampleDevice 5, [owner.id])] []
  let member := sampleFact (sampleDevice 2) (.roleGrant (sampleDevice 5) .member)
    [(sampleDevice 2, [controller.id]), (sampleDevice 5, [owner.id])] []
  let resolution := sampleFact (sampleDevice 2)
    (.resolution (.role (sampleDevice 5)) (sortDedup [evict.id, member.id]) member.id)
    [(sampleDevice 2, [member.id]), (sampleDevice 5, [evict.id, member.id])] []
  [controller, owner, evict, member, resolution]

omit [Platform] in
/-- A controller discards an eviction that took an Owner, because the walk over the
cited facts skips it. -/
theorem owner_eviction_discarded : ∃ (_ : Platform) (bootstrap : VerifiedBootstrap)
    (limits : SemanticAdmissionPolicy) (g : FactGraph) (fact evict : SignedFact)
    (subject : DeviceId) (citedHeads : List FactId) (selected : FactId),
    Reachable bootstrap limits g ∧ g.facts[fact.id]? = some fact ∧
      fact.content.body = .resolution (.role subject) citedHeads selected ∧
      evict.id ∈ citedHeads ∧ g.facts[evict.id]? = some evict ∧
      (g.exactPast fact).evaluator.effectiveRole fact.content.author = some .controller ∧
      (g.exactPast evict).evaluator.operationTier evict.content.body = some .owner ∧
      g.evaluator.effectiveRole subject = some .member := by
  have hRun : let _ : Platform := samplePlatform
      let g := runCalls (.fromBootstrapWithPolicy sampleBootstrap sampleLimits)
        (discardedEviction.map .admitted)
      g.facts[discardedEviction[4].id]? = some discardedEviction[4] ∧
      discardedEviction[2].id ∈ sortDedup [discardedEviction[2].id, discardedEviction[3].id] ∧
      g.facts[discardedEviction[2].id]? = some discardedEviction[2] ∧
      (g.exactPast discardedEviction[4]).evaluator.effectiveRole
        discardedEviction[4].content.author = some .controller ∧
      (g.exactPast discardedEviction[2]).evaluator.operationTier
        discardedEviction[2].content.body = some .owner ∧
      g.evaluator.effectiveRole (sampleDevice 5) = some .member := by
    decide +kernel
  exact ⟨samplePlatform, sampleBootstrap, sampleLimits, _, discardedEviction[4],
    discardedEviction[2], sampleDevice 5,
    sortDedup [discardedEviction[2].id, discardedEviction[3].id], discardedEviction[3].id,
    ⟨discardedEviction.map .admitted, rfl⟩, hRun.1, rfl, hRun.2⟩

end MyOwnMesh.Semantic

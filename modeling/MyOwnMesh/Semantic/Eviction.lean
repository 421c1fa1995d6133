import MyOwnMesh.Semantic.RootFallback

/-!
# Evicted devices

An eviction changes the role of its target and extends the target's own authority
lineage. The target can still fork that lineage with facts that do not refer to the
eviction, so that the eviction loses its authority; but a fact of the lineage that
refers to both sides of the fork has to be judged where both are known, and there
the target has no role. A target that is no root therefore stays out, whatever it
signs. A root does not: it is an Owner by the fallback as soon as its own fork has
taken the authority of the eviction.
-/

namespace MyOwnMesh.Semantic

open Foundation

/-! ## Changes beside the eviction -/

section Beside

variable {facts small large : Facts} {device : DeviceId} {id change : FactId}

/-- The same fact or one that depends on it. -/
def AtOrAbove (facts : Facts) (id above : FactId) : Prop :=
  above = id ∨ Depends facts id above

/-- A change of the role of a device outside of the past of a fact. -/
structure Outside (facts : Facts) (device : DeviceId) (id change : FactId) : Prop where
  advances : Advances facts (.role device) change
  other : change ≠ id
  beyond : ¬ Depends facts change id

/-- No fact of the lineage of a device is at or above both a fact and a change of the
role of the device outside of its past. -/
def Unjoined (facts : Facts) (device : DeviceId) (id : FactId) : Prop :=
  ∀ change, Outside facts device id change → ∀ join, ExtendsLineage facts device join →
    AtOrAbove facts change join → ¬ AtOrAbove facts id join

/-- A change of a role extends the lineage of its device. -/
theorem Advances.extendsLineage (h : Advances facts (.role device) change) :
    ExtendsLineage facts device change := by
  obtain ⟨fact, hGet, hCell⟩ := h
  refine ⟨fact, hGet, ?_⟩
  unfold SignedFact.useSubjects SignedFact.payloadLocal
  cases hBody : fact.content.body with
  | resolution cell _ _ =>
    rw [hBody] at hCell
    obtain rfl : ExclusiveCell.role device = cell := List.mem_singleton.mp hCell
    simp [FactBody.authorityUseSubjects, FactBody.isPayloadLocalResolution]
  | _ =>
    rw [hBody] at hCell
    simp_all [FactBody.exclusiveCells, FactBody.authorityUseSubjects,
      FactBody.isPayloadLocalResolution]

theorem AtOrAbove.within (hSmall : CausalFacts small) (hWithin : Within small large)
    {a b : FactId} (hb : b ∈ small) : AtOrAbove large a b ↔ AtOrAbove small a b :=
  or_congr Iff.rfl (hSmall.depends_within hWithin hb)

theorem Outside.within (hSmall : CausalFacts small) (hWithin : Within small large)
    (hId : id ∈ small) (h : Outside small device id change) : Outside large device id change := by
  obtain ⟨fact, hGet, hCell⟩ := h.advances
  refine ⟨⟨fact, hWithin _ _ hGet, hCell⟩, h.other, ?_⟩
  rw [hSmall.depends_within hWithin hId]
  exact h.beyond

theorem Outside.restrict (hSmall : CausalFacts small) (hWithin : Within small large)
    (hId : id ∈ small) (h : Outside large device id change) (hMem : change ∈ small) :
    Outside small device id change := by
  obtain ⟨fact, hGet⟩ := mem_iff_exists.mp hMem
  obtain ⟨stored, hStored, hCell⟩ := h.advances
  rw [hWithin _ _ hGet] at hStored
  refine ⟨⟨fact, hGet, Option.some.inj hStored ▸ hCell⟩, h.other, ?_⟩
  rw [← hSmall.depends_within hWithin hId]
  exact h.beyond

/-- What is not joined in a graph is not joined in a closed part of it. -/
theorem Unjoined.restrict (h : Unjoined large device id) (hSmall : CausalFacts small)
    (hWithin : Within small large) (hId : id ∈ small) : Unjoined small device id := by
  rintro change hChange join ⟨fact, hGet, hUse⟩ hAbove hJoin
  have hResident : join ∈ small := mem_iff_exists.mpr ⟨fact, hGet⟩
  rw [← AtOrAbove.within hSmall hWithin hResident] at hAbove hJoin
  exact h change (hChange.within hSmall hWithin hId) join ⟨fact, hWithin _ _ hGet, hUse⟩ hAbove
    hJoin

end Beside

/-! ## No role for the target -/

section Target

variable {g : FactGraph} {device : DeviceId} {id change : FactId} {evict : SignedFact}

/-- A change beside the eviction lies on another branch of the lineage. -/
theorem Unjoined.forked (h : Unjoined g.facts device id) (hFacts : CausalFacts g.facts)
    (hExact : GraphExact g) (hCurrent : g.indexesCurrent = true)
    (hId : ExtendsLineage g.facts device id) (hChange : Outside g.facts device id change) :
    ∃ mine ∈ g.rawAuthorityUseHeads device, ∃ other ∈ g.rawAuthorityUseHeads device,
      mine ≠ other ∧ ¬ AtOrAbove g.facts change mine := by
  have hResident (a : FactId) (ha : ExtendsLineage g.facts device a) :
      ∃ fact, g.facts[a]? = some fact := ha.imp fun _ hFact => hFact.1
  obtain ⟨mine, hMine, hAbove⟩ := hFacts.exists_head_above hResident hId
  obtain ⟨other, hOther, hAboveChange⟩ :=
    hFacts.exists_head_above hResident hChange.advances.extendsLineage
  have hApart := h change hChange mine hMine.1
  refine ⟨mine, (mem_rawAuthorityUseHeads hCurrent hExact).mpr hMine, other,
    (mem_rawAuthorityUseHeads hCurrent hExact).mpr hOther, ?_, fun hJoin => hApart hJoin hAbove⟩
  rintro rfl
  exact hApart hAboveChange hAbove

/-- A fact that does not reach a head of a forked lineage it belongs to has no authority. -/
theorem not_authoritative_of_forked (hFacts : CausalFacts g.facts)
    (hChange : ExtendsLineage g.facts device change) {mine other : FactId}
    (hMine : mine ∈ g.rawAuthorityUseHeads device) (hOther : other ∈ g.rawAuthorityUseHeads device)
    (hFork : mine ≠ other) (hApart : ¬ AtOrAbove g.facts change mine) :
    g.factIsAuthoritative change ≠ true := by
  obtain ⟨fact, hGet, hSubject, hLocal⟩ := hChange
  intro hAuthority
  unfold FactGraph.factIsAuthoritative at hAuthority
  rw [hGet] at hAuthority
  have hFor := List.all_eq_true.mp hAuthority device hSubject
  unfold FactGraph.authoritativeFor at hFor
  simp only [hLocal, Bool.false_or, Bool.and_eq_true, Bool.or_eq_true] at hFor
  obtain ⟨⟨⟨-, hSingular | hAll⟩, -⟩, -⟩ := hFor
  · have hOne : (sortDedup (g.rawAuthorityUseHeads device)).length ≤ 1 :=
      of_decide_eq_true hSingular
    have hTwo := two_le_length_of_ne (mem_sortDedup.mpr hMine) (mem_sortDedup.mpr hOther) hFork
    omega
  · have hHead := List.all_eq_true.mp hAll mine (mem_sortDedup.mpr hMine)
    rw [Bool.or_eq_true, beq_iff_eq, hFacts.id_eq hGet] at hHead
    rcases hHead with rfl | hAncestor
    · exact hApart (.inl rfl)
    · exact hApart (.inr (isAncestorIn_iff.mp hAncestor).depends)

/-- The one head a cell is projected from is authoritative. -/
theorem authoritative_of_cellHeads {cell : ExclusiveCell} {head : FactId}
    (h : g.cellHeads cell = [head]) : g.factIsAuthoritative head = true := by
  unfold FactGraph.cellHeads at h
  dsimp only at h
  split at h
  · next hAll =>
    rw [h] at hAll
    simp at hAll
  · have hMem := List.mem_singleton_self head
    rw [← h] at hMem
    exact List.of_mem_filter hMem

/-- **The target of an unjoined eviction has no role**, unless it is a root. -/
theorem Unjoined.effectiveRole_eq_none (h : Unjoined g.facts device id)
    (hFacts : CausalFacts g.facts) (hExact : GraphExact g) (hCurrent : g.indexesCurrent = true)
    (hGet : g.facts[id]? = some evict) (hBody : evict.content.body = .evict device)
    (hRoots : g.authorityRoots.contains device = false) {projection : Projection}
    (hCell : projection.cells[ExclusiveCell.role device]? = g.projectedCell (.role device)) :
    SemanticEvaluator.effectiveRole ⟨g, projection⟩ device = none := by
  have hId : Advances g.facts (.role device) id :=
    ⟨evict, hGet, by simp [hBody, FactBody.exclusiveCells]⟩
  match hHeads : g.cellHeads (.role device) with
  | [] =>
    rw [projectedCell_eq_none hHeads] at hCell
    simp [SemanticEvaluator.effectiveRole, Projection.value, Projection.isConflicted, hCell, hRoots]
  | [head] =>
    -- Any other head would be a change beside the eviction, without authority.
    have hSame : head = id := by
      by_contra hOther
      have hHead := (mem_rawCellHeads hCurrent hExact).mp
        (cellHeads_subset g _ (hHeads ▸ List.mem_singleton_self head))
      have hChange : Outside g.facts device id head := ⟨hHead.1, hOther, hHead.2 id hId⟩
      obtain ⟨mine, hMine, other, hOther, hFork, hApart⟩ :=
        h.forked hFacts hExact hCurrent hId.extendsLineage hChange
      exact not_authoritative_of_forked hFacts hHead.1.extendsLineage hMine hOther hFork hApart
        (authoritative_of_cellHeads hHeads)
    subst hSame
    have hEffective : resolveEffectiveHead g.facts (.role device) head = some head := by
      unfold resolveEffectiveHead resolveChain
      simp [hGet, hBody, FactBody.advancesCell, FactBody.exclusiveCells]
    unfold FactGraph.projectedCell at hCell
    simp only [hHeads, hEffective] at hCell
    simp [SemanticEvaluator.effectiveRole, Projection.value, Projection.isConflicted, hCell, hGet,
      hBody, FactBody.projectedRole]
  | _ :: _ :: _ =>
    rw [projectedCell_eq_conflict (by simp [hHeads])] at hCell
    have hIneffective : SemanticEvaluator.Ineffective ⟨g, projection⟩ (.role device) :=
      ineffective_of_conflict hCell
    exact hIneffective

end Target

/-! ## Facts of the target -/

section Facts

variable [Platform] {g g' : FactGraph} {device : DeviceId} {id : FactId} {evict fact : SignedFact}

/-- Where a candidate of the target is judged with the eviction in its past, the target has
no role, and its lineage is forked if a change beside the eviction is in that past as well. -/
def Outcast (device : DeviceId) (id : FactId) (judged past : FactGraph) : Prop :=
  id ∈ past.facts → judged.evaluator.effectiveRole device = none ∧
    ∀ change, Outside past.facts device id change → 2 ≤ (judged.rawAuthorityUseHeads device).length

theorem Unjoined.outcast {judged past : FactGraph} (h : Unjoined judged.facts device id)
    (hFacts : CausalFacts judged.facts) (hExact : GraphExact judged)
    (hCurrent : judged.indexesCurrent = true) (hGet : judged.facts[id]? = some evict)
    (hBody : evict.content.body = .evict device)
    (hRoots : judged.authorityRoots.contains device = false)
    (hHeld : HoldsCell judged (.role device))
    (hPast : CausalFacts past.facts) (hWithin : Within past.facts judged.facts) :
    Outcast device id judged past := by
  intro hId
  refine ⟨?_, fun change hChange => ?_⟩
  · refine h.effectiveRole_eq_none hFacts hExact hCurrent hGet hBody hRoots ?_
    rw [hHeld, fromGraph_cells hCurrent hExact]
  · have hExtends : Advances judged.facts (.role device) id :=
      ⟨evict, hGet, by simp [hBody, FactBody.exclusiveCells]⟩
    obtain ⟨mine, hMine, other, hOther, hFork, -⟩ := h.forked hFacts hExact hCurrent
      hExtends.extendsLineage (hChange.within hPast hWithin hId)
    exact two_le_length_of_ne hMine hOther hFork

theorem mem_exactPast (hFacts : CausalFacts g.facts) (hDeps : ∀ d ∈ fact.dependencies, d ∈ g.facts)
    {change : FactId} (hMem : change ∈ g.pastIds fact) : change ∈ (g.exactPast fact).facts := by
  obtain ⟨stored, hStored⟩ := mem_iff_exists.mp (mem_of_mem_pastIds hFacts hDeps hMem)
  exact mem_iff_exists.mpr ⟨stored, getElem?_exactPast.mpr ⟨hStored, hMem⟩⟩

/-- A stand-down is only accepted on a lineage without a fork. -/
theorem verdict_standDown_lineage {judged : FactGraph} {target : DeviceId} {evidence : List FactId}
    (hBody : fact.content.body = .selfStandDown target evidence)
    (h : judged.verdict fact = .ok ()) :
    (judged.rawAuthorityUseHeads fact.content.author).length ≤ 1 := by
  obtain ⟨_, hLineage, -⟩ := except_bind_eq_ok.mp h
  obtain ⟨_, -, hLineage⟩ := except_bind_eq_ok.mp hLineage
  obtain ⟨_, -, hLineage⟩ := except_bind_eq_ok.mp hLineage
  unfold FactGraph.validateAuthorityLineage at hLineage
  split at hLineage
  · next hAll =>
    have hAuthor : fact.content.author ∈ fact.useSubjects := by
      simp [SignedFact.useSubjects, hBody, FactBody.authorityUseSubjects]
    have hUse := List.all_eq_true.mp hAll _ hAuthor
    unfold FactGraph.lineageIsCurrent at hUse
    split at hUse
    · cases hUse
    · simp [SignedFact.payloadLocal, FactBody.isPayloadLocalResolution, hBody,
        FactGraph.resolutionSelectsAuthorityHeads, FactBody.lineageSelector,
        FactGraph.sameCellRoleResolution] at hUse
      exact hUse.2
  · cases hLineage

/-- **A fact of the target above the eviction is a stand-down** and joins nothing. -/
theorem JudgedIn.outcast (h : JudgedIn g fact) (hSound : SoundFacts g)
    (hDeps : ∀ d ∈ fact.dependencies, d ∈ g.facts) (hUnjoined : Unjoined g.facts device id)
    (hGet : g.facts[id]? = some evict) (hBody : evict.content.body = .evict device)
    (hRoots : g.authorityRoots.contains device = false) (hHeld : HoldsCell g (.role device))
    (hAuthor : fact.content.author = device) (hId : id ∈ g.pastIds fact) :
    fact.content.body.exclusiveCells = [] ∧
      ∀ change ∈ g.pastIds fact, ¬ Outside g.facts device id change := by
  have hPast := exactPast_spec hSound hDeps
  have hWithin : Within (g.exactPast fact).facts g.facts :=
    fun _ _ hPastGet => (getElem?_exactPast.mp hPastGet).1
  have hPastGet : (g.exactPast fact).facts[id]? = some evict := getElem?_exactPast.mpr ⟨hGet, hId⟩
  have hPastId : id ∈ (g.exactPast fact).facts := mem_iff_exists.mpr ⟨evict, hPastGet⟩
  have hBorrow : BorrowAgrees (Outcast device id) g fact := by
    intro live _ hCache hProjection _ _
    have hLive : SoundFacts live := hSound.of_coreFrame (.of_cacheOnly hCache)
    have hSame : live.facts = g.facts := by rw [hCache]
    have hLiveRoots : live.authorityRoots = g.authorityRoots := by rw [hCache]
    have hHeldLive : HoldsCell live (.role device) := by
      have hScratch : Projection.fromGraph live = Projection.fromGraph g := by
        rw [hCache]
        rfl
      unfold HoldsCell
      rw [hScratch]
      rcases hProjection with hCached | hCached <;> rw [hCached]
      exact hHeld
    rw [← hSame] at hUnjoined hGet hWithin
    rw [← hLiveRoots] at hRoots
    exact hUnjoined.outcast hLive.causal hLive.exact hLive.current hGet hBody hRoots hHeldLive
      hPast.causal hWithin
  have hRefl : Outcast device id (g.exactPast fact) (g.exactPast fact) := by
    refine (hUnjoined.restrict hPast.causal hWithin hPastId).outcast hPast.causal hPast.exact
      hPast.current hPastGet hBody ?_ ?_ hPast.causal fun _ _ h => h
    · rw [(exactPast_sameProject g fact).authorityRoots]
      exact hRoots
    · unfold HoldsCell FactGraph.projection FactGraph.cachedProjection
      simp [hPast.uncached]
  obtain ⟨judged, hVerdict, hOutcast⟩ := h.judged hSound hDeps hBorrow hRefl
  obtain ⟨hRole, hForked⟩ := hOutcast hPastId
  -- Every body but a stand-down needs a role.
  obtain ⟨target, evidence, hStand⟩ : ∃ target evidence,
      fact.content.body = .selfStandDown target evidence := by
    by_contra hNot
    obtain ⟨required, actual, -, hActual, -⟩ := verdict_holdsTier
      (fun target evidence hBody => hNot ⟨target, evidence, hBody⟩) hVerdict
    rw [hAuthor, hRole] at hActual
    cases hActual
  refine ⟨by rw [hStand]; rfl, fun change hMem hChange => ?_⟩
  have hTwo := hForked change (hChange.restrict hPast.causal hWithin hPastId
    (mem_exactPast hSound.causal hDeps hMem))
  have hOne := verdict_standDown_lineage hStand hVerdict
  rw [hAuthor] at hOne
  omega

/-- A fact of the target leaves its eviction unjoined. -/
theorem Unjoined.step (h : Unjoined g.facts device id) (hSound : Sound g) (hStep : Step True g g')
    (hCond : ∀ fact, Inserts g g' fact → fact.content.author = device ∧ HoldsCell g (.role device))
    (hGet : g.facts[id]? = some evict) (hBody : evict.content.body = .evict device)
    (hRoots : g.authorityRoots.contains device = false) : Unjoined g'.facts device id := by
  obtain ⟨-, hSame | ⟨fact, cost, hFacts, hScreened, hMissing, hJudged⟩⟩ := hStep.facts
  · rwa [hSame]
  have hDeps := dependencies_resident (factCost_missing hScreened.costed) hMissing
  have hWithin := hStep.within
  have hNew : g'.facts[fact.id]? = some fact := by
    rw [hFacts, getElem?_insert_eq, if_pos rfl]
  obtain ⟨hAuthor, hHeld⟩ := hCond fact ⟨hScreened.fresh, hNew⟩
  have hBelow {a : FactId} (ha : Depends g'.facts a fact.id) : a ∈ g.pastIds fact := by
    obtain ⟨d, hPath, hEdge⟩ := Relation.TransGen.tail'_iff.mp ha
    rw [dependenciesIn_of_getElem? hNew] at hEdge
    refine mem_pastIds.mpr ⟨d, hEdge, ?_⟩
    rw [← hSound.causal.depends_within hWithin (hDeps d hEdge)]
    exact Relation.reflTransGen_iff_eq_or_transGen.mp hPath
  have hId : id ∈ g.facts := mem_iff_exists.mpr ⟨evict, hGet⟩
  intro change hChange join hJoin hAbove hMine
  by_cases hTop : join = fact.id
  · -- The new fact is above the eviction, so it is a stand-down that joins nothing.
    subst hTop
    have hPast : id ∈ g.pastIds fact := by
      rcases hMine with hEq | hDepends
      · exact absurd (hEq ▸ hId) hScreened.fresh
      · exact hBelow hDepends
    obtain ⟨hCells, hNone⟩ := hJudged.outcast hSound.toSoundFacts hDeps h hGet hBody hRoots hHeld
      hAuthor hPast
    rcases hAbove with hEq | hDepends
    · obtain ⟨stored, hStored, hCell⟩ := hChange.advances
      rw [← hEq, hNew] at hStored
      rw [← Option.some.inj hStored, hCells] at hCell
      cases hCell
    · have hMem := hBelow hDepends
      exact hNone change hMem (hChange.restrict hSound.causal hWithin hId
        (mem_of_mem_pastIds hSound.causal hDeps hMem))
  · -- Any other join was one before.
    obtain ⟨stored, hStored, hUse⟩ := hJoin
    rw [hFacts, getElem?_insert_eq, if_neg (Ne.symm hTop)] at hStored
    have hMem : join ∈ g.facts := mem_iff_exists.mpr ⟨stored, hStored⟩
    rw [AtOrAbove.within hSound.causal hWithin hMem] at hAbove hMine
    have hOld : change ∈ g.facts := by
      rcases hAbove with rfl | hDepends
      · exact hMem
      · exact hSound.causal.mem_of_depends hDepends
    exact h change (hChange.restrict hSound.causal hWithin hId hOld) join ⟨stored, hStored, hUse⟩
      hAbove hMine

/-- **Facts of the target leave its eviction unjoined**, in any run of them. -/
theorem History.unjoined
    (hRun : History (fun before fact => fact.content.author = device ∧
      HoldsCell before (.role device)) g g')
    (h : Unjoined g.facts device id) (hSound : Sound g) (hGet : g.facts[id]? = some evict)
    (hBody : evict.content.body = .evict device)
    (hRoots : g.authorityRoots.contains device = false) : Unjoined g'.facts device id := by
  induction hRun with
  | start => exact h
  | step hBefore hStep hCond ih =>
    have hRoots' := hRoots
    rw [← hBefore.sameProject.authorityRoots] at hRoots'
    exact ih.step (hBefore.sound hSound) hStep hCond (hBefore.within _ _ hGet) hBody hRoots'
  | undone _ hUndone ih =>
    rw [hUndone.eq]
    exact ih

/-- An eviction that is the only head of the role of its target is unjoined. -/
theorem unjoined_of_only (hSound : Sound g) (hHead : g.rawCellHeads (.role device) = [id]) :
    Unjoined g.facts device id := by
  intro change hChange
  obtain ⟨head, hMem, hAbove⟩ := exists_rawCellHead_above hSound.current hSound.exact hSound.causal
    hChange.advances
  rw [hHead, List.mem_singleton] at hMem
  subst hMem
  rcases hAbove with hEq | hDepends
  · exact absurd hEq.symm hChange.other
  · exact absurd hDepends hChange.beyond

omit [Platform] in
/-- A device without a role is in no session of a closed project. -/
theorem admitsClosedSession_eq_false (hPolicy : g.policy = .closed) {e : SemanticEvaluator}
    (hGraph : e.graph = g) (hRole : e.effectiveRole device = none) (other : DeviceId) :
    e.admitsClosedSession other device = false := by
  unfold SemanticEvaluator.admitsClosedSession
  rw [hGraph, hPolicy]
  simp [SemanticEvaluator.roleAdmits, hRole]

/-- **An evicted device that is no root cannot bring itself back.** -/
theorem evicted_stays_out {contextId : MeshContextId} {root : DeviceId}
    {limits : SemanticAdmissionPolicy} (h : Reachable (.closed contextId root) limits g)
    (hRoot : device ≠ root) (hGet : g.facts[id]? = some evict)
    (hBody : evict.content.body = .evict device) (hUnjoined : Unjoined g.facts device id)
    (hRun : History (fun before fact => fact.content.author = device ∧
      HoldsCell before (.role device)) g g')
    (hHeld : HoldsCell g' (.role device)) (other : DeviceId) :
    g'.evaluator.admitsClosedSession other device = false := by
  have hSound := h.settled.toSound
  have hRoots : g.authorityRoots.contains device = false :=
    Bool.eq_false_iff.mpr fun hContains => hRoot (h.history.eq_root hContains)
  have hUnjoined' := hRun.unjoined hUnjoined hSound hGet hBody hRoots
  have hSound' := hRun.sound hSound
  rw [← hRun.sameProject.authorityRoots] at hRoots
  have hRole : SemanticEvaluator.effectiveRole ⟨g', g'.projection⟩ device = none := by
    refine hUnjoined'.effectiveRole_eq_none hSound'.causal hSound'.exact hSound'.current
      (hRun.within _ _ hGet) hBody hRoots ?_
    rw [hHeld, fromGraph_cells hSound'.current hSound'.exact]
  have hPolicy : g'.policy = .closed :=
    hRun.sameProject.policy.trans h.history.sameProject.policy
  exact admitsClosedSession_eq_false hPolicy rfl hRole other

end Facts

/-! ## Sample runs -/

/-- The root makes a member and evicts it. -/
def evictedMember : List SignedFact :=
  let grant := sampleFact (sampleDevice 1) (.roleGrant (sampleDevice 3) .member) [] []
  let evict := sampleFact (sampleDevice 1) (.evict (sampleDevice 3))
    [(sampleDevice 1, [grant.id]), (sampleDevice 3, [grant.id])] []
  [grant, evict]

/-- The member attests the grant twice without reference to the eviction. -/
def returningMember : List SignedFact :=
  let first := sampleFact (sampleDevice 3)
    (.attestation (sampleDevice 4) evictedMember[0].id .approve (sampleDevice 3) [])
    [(sampleDevice 3, [evictedMember[0].id])] []
  let second := sampleFact (sampleDevice 3)
    (.attestation (sampleDevice 4) first.id .approve (sampleDevice 3) [])
    [(sampleDevice 3, [first.id])] []
  [first, second]

def evictedMemberGraph : FactGraph :=
  @runCalls samplePlatform (.fromBootstrapWithPolicy sampleBootstrap sampleLimits)
    (evictedMember.map .admitted)

/-- A fact of a device, admitted while the cache holds the role of the device. -/
def ownHeld [Platform] (device : DeviceId) (g : FactGraph) (fact : SignedFact) : Bool :=
  decide (fact.content.author = device ∧ HoldsCell g (.role device))

def returningMemberGraph : Option FactGraph :=
  @admitEach samplePlatform (@ownHeld samplePlatform (sampleDevice 3)) evictedMemberGraph
    returningMember

/-- The member has taken the authority of its eviction and stays out. -/
theorem evicted_stays_out_member : let _ : Platform := samplePlatform
    ∃ g, returningMemberGraph = some g ∧ g.factIsAuthoritative evictedMember[1].id = false ∧
      ∀ other, g.evaluator.admitsClosedSession other (sampleDevice 3) = false := by
  have hStart : evictedMemberGraph.facts[evictedMember[1].id]? = some evictedMember[1] ∧
      evictedMemberGraph.rawCellHeads (.role (sampleDevice 3)) = [evictedMember[1].id] := by
    decide +kernel
  have hRun : let _ : Platform := samplePlatform
      returningMemberGraph.any (fun g => g.factIsAuthoritative evictedMember[1].id = false ∧
        HoldsCell g (.role (sampleDevice 3))) = true := by
    decide +kernel
  intro _
  obtain ⟨g, hGraph, hTest⟩ := (Option.any_eq_true _ _).mp hRun
  obtain ⟨hLost, hHeld⟩ := of_decide_eq_true hTest
  have hReachable : Reachable sampleBootstrap sampleLimits evictedMemberGraph :=
    ⟨evictedMember.map .admitted, rfl⟩
  have hSound := hReachable.settled.toSound
  have hHistory : History (fun before fact => fact.content.author = sampleDevice 3 ∧
      HoldsCell before (.role (sampleDevice 3))) evictedMemberGraph g :=
    admitEach_history (fun _ _ => of_decide_eq_true) hSound returningMember .start hGraph
  have hBody : evictedMember[1].content.body = .evict (sampleDevice 3) := rfl
  exact ⟨g, hGraph, hLost, evicted_stays_out hReachable (by decide) hStart.1 hBody
    (unjoined_of_only hSound hStart.2) hHistory hHeld⟩

/-- The root grants a role to the device it has evicted. -/
def regrantedMember : SignedFact :=
  sampleFact (sampleDevice 1) (.roleGrant (sampleDevice 3) .controller)
    [(sampleDevice 1, [evictedMember[1].id]), (sampleDevice 3, [evictedMember[1].id])] []

-- A grant above the eviction joins it with a change outside of its past, and then the device
-- can admit itself although no session had admitted it.
example : let _ : Platform := samplePlatform
    let g := runCalls evictedMemberGraph [.admitted regrantedMember]
    g.evaluator.admitsClosedSession (sampleDevice 1) (sampleDevice 3) = false ∧
    (runCalls g [.admitted (sampleFact (sampleDevice 3) (.membershipAdmit (sampleDevice 3))
      [(sampleDevice 3, [regrantedMember.id])] [])]).evaluator.admitsClosedSession
        (sampleDevice 1) (sampleDevice 3) = true := by
  decide +kernel

/-- The root makes a second Owner, who evicts the root. -/
def evictedRoot : List SignedFact :=
  let owner := sampleFact (sampleDevice 1) (.roleGrant (sampleDevice 5) .owner) [] []
  let evict := sampleFact (sampleDevice 5) (.evict (sampleDevice 1))
    [(sampleDevice 5, [owner.id]), (sampleDevice 1, [owner.id])] []
  [owner, evict]

/-- The root makes a member without reference to the eviction, and joins its own
lineage in favour of that grant. -/
def returningRoot : List SignedFact :=
  let grant := sampleFact (sampleDevice 1) (.roleGrant (sampleDevice 4) .member)
    [(sampleDevice 1, [evictedRoot[0].id])] []
  let heads := [evictedRoot[1].id, grant.id]
  let join := sampleFact (sampleDevice 1)
    (.authorityLineageResolution (sampleDevice 1) (sortDedup heads) grant.id)
    [(sampleDevice 1, heads)] []
  [grant, join]

def evictedRootGraph : FactGraph :=
  @runCalls samplePlatform (.fromBootstrapWithPolicy sampleBootstrap sampleLimits)
    (evictedRoot.map .admitted)

/-- The eviction holds in the graph, and two facts of the root bring it back. -/
theorem evictedRootGraph_run : let _ : Platform := samplePlatform
    evictedRootGraph.facts[evictedRoot[1].id]? = some evictedRoot[1] ∧
    evictedRoot[1].content.author ≠ sampleDevice 1 ∧ evictedRootGraph.policy = .closed ∧
    evictedRootGraph.evaluator.effectiveRole (sampleDevice 1) = none ∧
    (∀ fact ∈ returningRoot, fact.content.author = sampleDevice 1) ∧
    (runCalls evictedRootGraph (returningRoot.map .admitted)).evaluator.admitsClosedSession
      (sampleDevice 5) (sampleDevice 1) = true := by
  decide +kernel

/-- The evicted root brings itself back with two facts of its own. -/
theorem evicted_root_returns : ∃ (_ : Platform) (contextId : MeshContextId) (root : DeviceId)
    (limits : SemanticAdmissionPolicy) (g : FactGraph) (device other : DeviceId)
    (evict : SignedFact) (facts : List SignedFact),
    Reachable (.closed contextId root) limits g ∧ g.facts[evict.id]? = some evict ∧
      evict.content.body = .evict device ∧ evict.content.author ≠ device ∧
      (∀ other, g.evaluator.admitsClosedSession other device = false) ∧
      (∀ fact ∈ facts, fact.content.author = device) ∧
      (runCalls g (facts.map .admitted)).evaluator.admitsClosedSession other device = true := by
  let _ : Platform := samplePlatform
  obtain ⟨hGet, hAuthor, hPolicy, hRole, hReturn⟩ := evictedRootGraph_run
  have hGraph (g : FactGraph) : g.evaluator.graph = g := rfl
  exact ⟨samplePlatform, sampleContext, sampleDevice 1, sampleLimits, evictedRootGraph,
    sampleDevice 1, sampleDevice 5, evictedRoot[1], returningRoot,
    ⟨evictedRoot.map .admitted, rfl⟩, hGet, rfl, hAuthor,
    admitsClosedSession_eq_false hPolicy (hGraph evictedRootGraph) hRole, hReturn⟩

end MyOwnMesh.Semantic

import MyOwnMesh.Semantic.Authority
import MyOwnMesh.Semantic.ExclusiveCells

/-!
# The root fallback

A bootstrap root without a projected role is an Owner. This is meant for a role
cell that has never advanced. A cell that has advanced still projects to nothing
when its only head has lost its authority, because several heads without
authority are kept as a conflict and a single one is not.
-/

namespace MyOwnMesh.Semantic

open Foundation

section Advanced

variable {g : FactGraph} {cell : ExclusiveCell}

/-- Heads remain unless there is one and it has lost its authority. -/
theorem cellHeads_ne_nil (hRaw : g.rawCellHeads cell ≠ [])
    (hOnly : ∀ head, g.rawCellHeads cell = [head] → g.factIsAuthoritative head = true) :
    g.cellHeads cell ≠ [] := by
  unfold FactGraph.cellHeads
  dsimp only
  split
  · exact hRaw
  · next hKept =>
    intro hNone
    match hHeads : g.rawCellHeads cell with
    | [] => exact hRaw hHeads
    | [head] =>
      rw [hHeads, List.filter_cons_of_pos (hOnly head hHeads)] at hNone
      cases hNone
    | _ :: _ :: _ =>
      rw [hNone, hHeads] at hKept
      simp at hKept

/-- A single head that has lost its authority leaves no head. -/
theorem cellHeads_eq_nil {head : FactId} (hOnly : g.rawCellHeads cell = [head])
    (hLost : g.factIsAuthoritative head ≠ true) : g.cellHeads cell = [] := by
  unfold FactGraph.cellHeads
  dsimp only
  rw [hOnly, List.filter_cons_of_neg hLost]
  rfl

/-- A cell with heads projects to a value or to a conflict. -/
theorem projectedCell_ne_none (h : g.cellHeads cell ≠ []) : g.projectedCell cell ≠ none := by
  unfold FactGraph.projectedCell
  split
  · next hNone => exact absurd hNone h
  · split <;> simp
  · simp

/-- A cell without a value and without a conflict projects to nothing. -/
theorem cells_eq_none {projection : Projection} (hValue : projection.value cell = none)
    (hConflict : projection.isConflicted cell = false) : projection.cells[cell]? = none := by
  cases hCell : projection.cells[cell]? with
  | none => rfl
  | some projected =>
    cases projected with
    | value id => simp [Projection.value, hCell] at hValue
    | conflict heads => simp [Projection.isConflicted, hCell] at hConflict

end Advanced

variable [Platform]

/-- **A role in an advanced cell is a granted one**, exactly as long as the fallback cannot
speak for it. While the projection the graph holds has the value of its facts there, every
effective role of a device whose cell has advanced is that of an admitted grant if and only
if the device is no root, or has stood down, or the cell has no single head without authority. -/
theorem advanced_role_is_granted {contextId : MeshContextId} {root subject : DeviceId}
    {limits : SemanticAdmissionPolicy} {g : FactGraph} {id : FactId}
    (h : Reachable (.closed contextId root) limits g)
    (hAdvanced : Advances g.facts (.role subject) id)
    (hHeld : g.projection.cells[ExclusiveCell.role subject]? =
      (Projection.fromGraph g).cells[ExclusiveCell.role subject]?) :
    (∀ role, g.evaluator.effectiveRole subject = some role →
      ∃ (granted : FactId) (grant : SignedFact),
        g.projection.value (.role subject) = some granted ∧ g.facts[granted]? = some grant ∧
          grant.content.body = .roleGrant subject role) ↔
    subject ≠ root ∨ g.projection.isStoodDown subject = true ∨
      ∀ head, g.rawCellHeads (.role subject) = [head] → g.factIsAuthoritative head = true := by
  have hSettled := h.settled
  rw [fromGraph_cells hSettled.current hSettled.exact] at hHeld
  constructor
  · intro hGranted
    by_contra hFallback
    obtain ⟨rfl, hStanding, hOnly⟩ : subject = root ∧ ¬ g.projection.isStoodDown subject = true ∧
        ∃ head, g.rawCellHeads (.role subject) = [head] ∧ g.factIsAuthoritative head ≠ true := by
      simpa only [ne_eq, not_or, not_not, not_forall, exists_prop] using hFallback
    obtain ⟨head, hRaw, hLost⟩ := hOnly
    have hNone : g.projection.cells[ExclusiveCell.role subject]? = none := by
      rw [hHeld, FactGraph.projectedCell, cellHeads_eq_nil hRaw hLost]
    have hValue : g.projection.value (.role subject) = none := by
      rw [Projection.value, hNone]
    -- Nothing is projected, and the fallback speaks.
    have hOwner : g.evaluator.effectiveRole subject = some .owner := by
      have hRoot : g.authorityRoots.contains subject = true := by
        rw [h.history.sameProject.authorityRoots]
        exact Std.ExtTreeSet.contains_ofList.trans (List.contains_iff_mem.mpr List.mem_cons_self)
      have hConflict : g.projection.isConflicted (.role subject) = false := by
        rw [Projection.isConflicted, hNone]
      show SemanticEvaluator.effectiveRole ⟨g, g.projection⟩ subject = _
      simp [SemanticEvaluator.effectiveRole, hStanding, hConflict, hValue, hRoot]
    obtain ⟨granted, grant, hSome, -⟩ := hGranted .owner hOwner
    cases hValue.symm.trans hSome
  · intro hNoFallback role hRole
    rcases effectiveRole_eq_some hRole with ⟨hNone, hConflict, hRoot, -⟩ | hGrant
    · rcases hNoFallback with hOther | hDown | hOnly
      · exact absurd (h.history.eq_root hRoot) hOther
      · have hNoRole : g.evaluator.effectiveRole subject = none := if_pos hDown
        cases hNoRole.symm.trans hRole
      · obtain ⟨head, hHead, -⟩ := exists_rawCellHead_above hSettled.current hSettled.exact
          hSettled.causal hAdvanced
        have hHeads := cellHeads_ne_nil (List.ne_nil_of_mem hHead) hOnly
        exact absurd (hHeld.symm.trans (cells_eq_none hNone hConflict))
          (projectedCell_ne_none hHeads)
    · exact hGrant

/-! ## Sample runs -/

/-- The root makes itself a controller. -/
def demotedRoot : List SignedFact :=
  [sampleFact (sampleDevice 1) (.roleGrant (sampleDevice 1) .controller) [] []]

def demotedRootGraph : FactGraph :=
  @runCalls samplePlatform (.fromBootstrapWithPolicy sampleBootstrap sampleLimits)
    (demotedRoot.map .admitted)

omit [Platform] in
/-- The root is a controller by its own grant and no longer an Owner. -/
theorem advanced_role_is_granted_demoted :
    (@FactGraph.evaluator samplePlatform demotedRootGraph).effectiveRole (sampleDevice 1) =
      some .controller ∧
    ∃ (granted : FactId) (grant : SignedFact),
      (@FactGraph.projection samplePlatform demotedRootGraph).value (.role (sampleDevice 1)) =
        some granted ∧
      demotedRootGraph.facts[granted]? = some grant ∧
        grant.content.body = .roleGrant (sampleDevice 1) .controller := by
  have hRun : let _ : Platform := samplePlatform
      demotedRootGraph.facts[demotedRoot[0].id]? = some demotedRoot[0] ∧
      ExclusiveCell.role (sampleDevice 1) ∈ demotedRoot[0].content.body.exclusiveCells ∧
      (∀ head ∈ demotedRootGraph.rawCellHeads (.role (sampleDevice 1)),
        demotedRootGraph.factIsAuthoritative head = true) ∧
      demotedRootGraph.projection.cells[ExclusiveCell.role (sampleDevice 1)]? =
        (Projection.fromGraph demotedRootGraph).cells[ExclusiveCell.role (sampleDevice 1)]? ∧
      demotedRootGraph.evaluator.effectiveRole (sampleDevice 1) = some .controller := by
    decide +kernel
  let _ : Platform := samplePlatform
  obtain ⟨hGet, hCell, hHeads, hHeld, hRole⟩ := hRun
  have hReachable : Reachable sampleBootstrap sampleLimits demotedRootGraph :=
    ⟨demotedRoot.map .admitted, rfl⟩
  have hAdvanced : Advances demotedRootGraph.facts (.role (sampleDevice 1)) demotedRoot[0].id :=
    ⟨demotedRoot[0], hGet, hCell⟩
  refine ⟨hRole, (advanced_role_is_granted hReachable hAdvanced hHeld).mpr
    (.inr (.inr fun head hOnly => hHeads head ?_)) _ hRole⟩
  rw [hOnly]
  exact List.mem_singleton_self head

/-- The root makes a second Owner, who revokes the root and then makes a member
without reference to the revocation. -/
def forkedRevoker : List SignedFact :=
  let owner := sampleFact (sampleDevice 1) (.roleGrant (sampleDevice 5) .owner) [] []
  let revoke := sampleFact (sampleDevice 5) (.roleRevoke (sampleDevice 1))
    [(sampleDevice 5, [owner.id]), (sampleDevice 1, [owner.id])] []
  let member := sampleFact (sampleDevice 5) (.roleGrant (sampleDevice 4) .member)
    [(sampleDevice 5, [owner.id])] []
  [owner, revoke, member]

omit [Platform] in
/-- The fork takes the authority from the revocation, the only head of the root's
role cell, and the revoked root is an Owner again. -/
theorem revoked_root_is_owner_again : ∃ (_ : Platform) (contextId : MeshContextId)
    (root : DeviceId) (limits : SemanticAdmissionPolicy) (before g : FactGraph) (id : FactId),
    Reachable (.closed contextId root) limits before ∧
      before.evaluator.effectiveRole root = none ∧
    Reachable (.closed contextId root) limits g ∧ Advances g.facts (.role root) id ∧
      g.evaluator.effectiveRole root = some .owner ∧ g.projection.value (.role root) = none ∧
      ∀ fact ∈ g.facts.values, fact.content.body ≠ .roleGrant root .owner := by
  have hRun : let _ : Platform := samplePlatform
      let start : FactGraph := .fromBootstrapWithPolicy sampleBootstrap sampleLimits
      let before := runCalls start ((forkedRevoker.take 2).map .admitted)
      let g := runCalls start (forkedRevoker.map .admitted)
      before.evaluator.effectiveRole (sampleDevice 1) = none ∧
      g.facts[forkedRevoker[1].id]? = some forkedRevoker[1] ∧
      ExclusiveCell.role (sampleDevice 1) ∈ forkedRevoker[1].content.body.exclusiveCells ∧
      g.evaluator.effectiveRole (sampleDevice 1) = some .owner ∧
      g.projection.value (.role (sampleDevice 1)) = none ∧
      ∀ fact ∈ g.facts.values, fact.content.body ≠ .roleGrant (sampleDevice 1) .owner := by
    decide +kernel
  obtain ⟨hBefore, hGet, hCell, hAfter⟩ := hRun
  exact ⟨samplePlatform, sampleContext, sampleDevice 1, sampleLimits, _, _,
    forkedRevoker[1].id, ⟨(forkedRevoker.take 2).map .admitted, rfl⟩, hBefore,
    ⟨forkedRevoker.map .admitted, rfl⟩, ⟨forkedRevoker[1], hGet, hCell⟩, hAfter⟩

/-- The facts of the run have ids of their own. -/
example : (forkedRevoker.map SignedFact.id).Nodup := by decide +kernel

end MyOwnMesh.Semantic

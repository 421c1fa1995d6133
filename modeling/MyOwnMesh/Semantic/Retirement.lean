import MyOwnMesh.Semantic.Evaluator

/-!
# Cold history

Retirement drops the signed bodies that the live continuation no longer needs;
the durable store keeps them. Before a candidate that needs them is judged, a
complete closure of such rows is staged into the fact map without entering the
live indexes, and released again afterwards.
-/

namespace MyOwnMesh.Semantic

open Foundation

namespace FactGraph

variable [Platform]

/-! ## Retirement -/

/-- The live rows: all heads, active stand-down proofs, quarantine support. -/
def retirementRoots (g : FactGraph) (projection : Projection) : OrdSet FactId :=
  .ofList (g.cellHeadsIndex.values.flatMap (·.toList) ++
    g.authorityHeadsIndex.values.flatMap (·.toList) ++
    (g.standDownIndex.keys.filterMap fun subject =>
      projection.standDown[subject]?.map StandDown.proof) ++
    g.quarantineMissing.values.flatMap (·.toList)) compare

/-- The selectors some live row is recorded to descend from. -/
def activeSelectors (g : FactGraph) (live : OrdSet FactId) : OrdSet FactId :=
  .ofList (live.toList.flatMap fun id =>
    let subjects : OrdSet DeviceId := .ofList
      ((g.authorityProvenance.getD id ∅).keys.filterMap fun selector =>
        (g.facts[selector]?.bind (·.content.body.lineageSelector)).map Prod.fst) compare
    subjects.toList.flatMap fun subject =>
      (g.ancestralTypedSelectors subject [id]).toList) compare

/-- The live rows, their active selectors with the selected heads, and one
direct witness layer of all of these. -/
def retainedRows (g : FactGraph) (live active : OrdSet FactId) : OrdSet FactId :=
  let anchors := active.toList.flatMap fun selector =>
    selector :: ((g.facts[selector]?.bind (·.content.body.lineageSelector)).map Prod.snd).toList
  let anchored := live ∪ Std.ExtTreeSet.ofList anchors compare
  let witnesses := (anchored.toList.filterMap fun id => g.facts[id]?).flatMap
    SignedFact.dependencies
  anchored ∪ Std.ExtTreeSet.ofList witnesses compare

/-- The selector index of the retained active selectors. -/
def selectorIndexOf (g : FactGraph) (active : OrdSet FactId) :
    OrdMap DeviceId (OrdSet (FactId × FactId)) :=
  active.toList.foldl (fun index selector =>
    match g.facts[selector]?.bind (·.content.body.lineageSelector) with
    | some (subject, selectedHead) => addTo index subject (selector, selectedHead)
    | none => index) ∅

/-- Drop the bodies outside the retained set and shrink the indexes to it. -/
def retainOnly (g : FactGraph) (retained active : OrdSet FactId) : FactGraph :=
  let kept := FactGraph.rebuildAuthorityFactsIndex
    { g with
      facts := keepEntries (fun id _ => retained.contains id) g.facts
      admissionOrder := g.admissionOrder.filter fun id => retained.contains id }
  { kept with
    standDownIndex := (kept.standDownIndex.map fun _ ids =>
      keepMembers (fun id => retained.contains id) ids) |>
        keepEntries fun _ ids => !ids.isEmpty
    authoritySelectorIndex := kept.selectorIndexOf active
    authorityProvenance := (kept.authorityProvenance.map fun _ row =>
      keepEntries (fun selector _ => active.contains selector) row) |>
        keepEntries fun id row => retained.contains id && !row.isEmpty }

/-- Retire signed bodies that the live continuation does not need. -/
def retireColdHistory (g : FactGraph) : FactGraph :=
  if g.stagedColdPending = 0 ∧
      g.coldHistorySinceRetirement < g.policyLimits.maxHotHistoryFacts then g
  else
    let g := g.ensureIndexesCurrent
    let projection := g.projection
    let g := g.observed
    let live := g.retirementRoots projection
    let active := g.activeSelectors live
    let retained := g.retainedRows live active
    -- A still complete resident graph keeps its complete provenance.
    let active :=
      if g.facts.keys.all fun id => retained.contains id then
        active ∪ Std.ExtTreeSet.ofList (g.authorityProvenance.values.flatMap (·.keys)) compare
      else active
    let kept := g.retainOnly retained active
    let measured :=
      { kept with derivedIndexBytes := (kept.logicalIndexResidencyBytes).toOption.getD 0 }
    { measured with
      indexedFactCount := measured.facts.size
      factsRevision := measured.factsRevision + 1
      indexedRevision := measured.factsRevision + 1
      coldHistorySinceRetirement := 0
      stagedColdPending := 0
      projectionCache := some (measured.generation, projection) }

/-! ## Staging -/

/-- Release staged rows; logical counters and projection stay. -/
def removeStagedCold (g : FactGraph) (staged : List FactId) : FactGraph :=
  if staged.isEmpty then g
  else
    let released :=
      { g with
        facts := staged.foldl (fun facts id => facts.erase id) g.facts
        stagedColdPending := g.stagedColdPending - staged.length
        factsRevision := g.factsRevision + 1 }
    { released.rebuildIndexes with
      admissionOrder := g.admissionOrder.filter fun id => !staged.contains id
      admittedFactCount := g.admittedFactCount
      admittedBytes := g.admittedBytes
      derivedIndexBytes := g.derivedIndexBytes
      admittedDependencyEdges := g.admittedDependencyEdges
      quarantinedBytes := g.quarantinedBytes
      quarantinedDependencyEdges := g.quarantinedDependencyEdges
      projectionCache := g.projectionCache }

/-- Verify a history row for this context. -/
def verifyHistory (g : FactGraph) (fact : SignedFact) : Except SemanticError Unit := do
  fact.verify
  if fact.content.meshContext ≠ g.contextId then
    throw (.contextMismatch g.contextId fact.content.meshContext)

/-- Attach one history row; a differing or quarantined row refuses the overlay. -/
def stageRow (state : FactGraph × List FactId) (fact : SignedFact) :
    Except FactId (FactGraph × List FactId) :=
  let (g, staged) := state
  match g.facts[fact.id]? with
  | some existing => if existing = fact then .ok state else .error fact.id
  | none =>
    if g.quarantined.contains fact.id then .error fact.id
    else .ok ({ g with facts := g.facts.insert fact.id fact }, staged ++ [fact.id])

/-- Attach rows in order; on a refusal the rows attached so far are released. -/
def stageRows (state : FactGraph × List FactId) :
    List SignedFact → Except SemanticError (List FactId) × FactGraph
  | [] =>
    let (g, staged) := state
    (.ok staged,
      { g with
        indexedFactCount := g.facts.size
        stagedColdPending := g.stagedColdPending + staged.length })
  | fact :: history =>
    match stageRow state fact with
    | .ok next => stageRows next history
    | .error id => (.error (.duplicateFact id), state.1.removeStagedCold state.2)

/-- Attach an already admitted durable closure for one judgement. -/
def stageColdHistory (g : FactGraph) (history : List SignedFact) :
    Except SemanticError (List FactId) × FactGraph :=
  match history.forM g.verifyHistory with
  | .error error => (.error error, g)
  | .ok () => stageRows (g, []) history

end FactGraph

end MyOwnMesh.Semantic

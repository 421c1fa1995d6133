import MyOwnMesh.Foundation.TopologicalOrder
import MyOwnMesh.Semantic.Residency

/-!
# Derived indexes

How one admitted fact enters the derived indexes, and how all of them are
rebuilt from the fact map. A rebuild of a graph that has retired history keeps
the head and selector indexes it cannot recompute from the resident bodies.
-/

namespace MyOwnMesh.Semantic

open Foundation

/-! ## Causal order -/

def residentDependencies (facts : Facts) (fact : SignedFact) : List FactId :=
  fact.dependencies.filter fun dependency => facts.contains dependency

/-- All facts in deterministic causal order; the residue of a cyclic map follows
in key order. -/
def causalOrder (facts : Facts) : List FactId :=
  let indegree : OrdMap FactId Nat := facts.map fun _ fact =>
    (residentDependencies facts fact).length
  let dependents := facts.toList.foldl (fun dependents (id, fact) =>
    (residentDependencies facts fact).foldl (fun dependents dependency =>
      addTo dependents dependency id) dependents) (∅ : OrdMap FactId (OrdSet FactId))
  let ready : OrdSet FactId :=
    .ofList ((indegree.toList.filter fun (_, count) => count == 0).map Prod.fst) compare
  let ordered := kahnLoop dependents facts.size ready indegree
  if ordered.length = facts.size then ordered
  else ordered ++ facts.keys.filter fun id => !ordered.contains id

namespace FactGraph

/-! ## Indexing one fact -/

/-- A proof is filed under the device that stands down. -/
def addStandDown (index : OrdMap DeviceId (OrdSet FactId)) (fact : SignedFact)
    (factId : FactId) : OrdMap DeviceId (OrdSet FactId) :=
  match fact.content.body.standDownTarget with
  | some target => addTo index target factId
  | none => index

/-- A selection is filed under the subject of its lineage. -/
def addSelector (index : OrdMap DeviceId (OrdSet (FactId × FactId))) (fact : SignedFact)
    (factId : FactId) : OrdMap DeviceId (OrdSet (FactId × FactId)) :=
  match fact.content.body.lineageSelector with
  | some (subject, selectedHead) => addTo index subject (factId, selectedHead)
  | none => index

/-- Subject, cell, stand-down and selector entries of one fact. -/
def indexFactMetadata (g : FactGraph) (factId : FactId) : FactGraph :=
  match g.facts[factId]? with
  | none => g
  | some fact =>
    { g with
      authorityFactsIndex := fact.indexedAuthoritySubjects.toList.foldl
        (fun index subject => addTo index subject factId) g.authorityFactsIndex
      cellsIndex := g.cellsIndex ∪ fact.cellSet
      standDownIndex := addStandDown g.standDownIndex fact factId
      authoritySelectorIndex := addSelector g.authoritySelectorIndex fact factId }

/-- Replace the heads of one index entry by those a candidate leaves. -/
def replaceHeads {κ : Type} [Ord κ] [Std.TransOrd κ] (facts : Facts) (factId : FactId)
    (index : OrdMap κ (OrdSet FactId)) (key : κ) : OrdMap κ (OrdSet FactId) :=
  index.insert key (insertMaximalHead facts (index.getD key ∅) factId)

/-- Head entries of one fact: every cell it advances, every lineage it extends. -/
def indexFactHeads (g : FactGraph) (factId : FactId) : FactGraph :=
  match g.facts[factId]? with
  | none => g
  | some fact =>
    { g with
      cellHeadsIndex := fact.cellSet.toList.foldl (replaceHeads g.facts factId)
        g.cellHeadsIndex
      authorityHeadsIndex :=
        (fact.useSubjects.filter fun subject => !fact.payloadLocal subject).foldl
          (replaceHeads g.facts factId) g.authorityHeadsIndex }

def indexFact (g : FactGraph) (factId : FactId) : FactGraph :=
  if g.facts.contains factId then (g.indexFactMetadata factId).indexFactHeads factId else g

def rebuildAuthorityFactsIndex (g : FactGraph) : FactGraph :=
  { g with
    authorityFactsIndex := g.facts.toList.foldl (fun index (id, fact) =>
      fact.indexedAuthoritySubjects.toList.foldl (fun index subject =>
        addTo index subject id) index) ∅ }

/-- The lineage selectors among the resident facts, in key order. -/
def residentSelectors (g : FactGraph) : List SignedFact :=
  (g.facts.toList.map Prod.snd).filter fun fact => fact.content.body.lineageSelector.isSome

/-! ## Rebuilding -/

/-- Keep the index entries that outlive their facts' retirement. -/
def keepColdIndexes (g prior : FactGraph) : FactGraph :=
  { g with
    authorityProvenance := prior.authorityProvenance |>
      keepEntries fun id _ => g.facts.contains id
    authorityHeadsIndex := prior.authorityHeadsIndex
    cellHeadsIndex := prior.cellHeadsIndex
    authoritySelectorIndex := (prior.authoritySelectorIndex.map fun _ selectors =>
      keepMembers (fun (id, _) => g.facts.contains id) selectors) |>
        keepEntries fun _ selectors => !selectors.isEmpty }

def withProvenance (g : FactGraph) (table : AuthorityProvenance) : FactGraph :=
  { g with authorityProvenance := table }

variable [Platform]

/-- Recompute provenance from signed ancestry; a plan that does not fit is
skipped. -/
def rebuildProvenance (g : FactGraph) : FactGraph :=
  g.residentSelectors.foldl (fun g fact =>
    match g.plannedProvenance fact with
    | .ok changes => g.withProvenance (g.authorityProvenance ∪ changes)
    | .error _ => g) g

/-- Reconcile the scalar ledger with the fact maps; an overflow poisons it. -/
def reconcileTotals (g : FactGraph) : FactGraph :=
  match g.factTotals g.facts, g.factTotals g.quarantined with
  | .ok (admittedBytes, admittedEdges), .ok (quarantinedBytes, quarantinedEdges) =>
    { g with
      admittedBytes
      quarantinedBytes
      admittedDependencyEdges := admittedEdges
      quarantinedDependencyEdges := quarantinedEdges }
  | _, _ =>
    { g with
      admittedBytes := u64Max
      quarantinedBytes := u64Max
      admittedDependencyEdges := u64Max
      quarantinedDependencyEdges := u64Max }

/-- The graph before its indexes are rebuilt. -/
def clearIndexes (g : FactGraph) : FactGraph :=
  { g with
    authorityProvenance := ∅
    cellHeadsIndex := ∅
    authorityHeadsIndex := ∅
    authorityFactsIndex := ∅
    authoritySelectorIndex := ∅
    cellsIndex := ∅
    standDownIndex := ∅ }

/-- The head, metadata and order indexes of the resident facts. -/
def reindex (g : FactGraph) : FactGraph :=
  let indexed := g.facts.keys.foldl indexFactMetadata g.clearIndexes
  let ordered := causalOrder g.facts
  { ordered.foldl indexFactHeads indexed with admissionOrder := ordered }

/-- The indexes of a rebuild; retired history keeps what only it explains. -/
def restoredIndexes (g : FactGraph) : FactGraph :=
  if g.admittedFactCount > g.facts.size then g.reindex.keepColdIndexes g
  else g.reindex.rebuildProvenance

/-- Rebuild the derived indexes from the fact map. -/
def rebuildIndexes (g : FactGraph) : FactGraph :=
  let restored := g.restoredIndexes
  let reconciled := FactGraph.reconcileTotals
    { restored with
      indexedFactCount := restored.facts.size
      indexedRevision := restored.factsRevision
      admittedFactCount := restored.facts.size }
  { reconciled with
    derivedIndexBytes := (reconciled.logicalIndexResidencyBytes).toOption.getD u64Max
    projectionCache := none }

def ensureIndexesCurrent (g : FactGraph) : FactGraph :=
  if g.indexesCurrent then g else g.rebuildIndexes

/-- Provenance of a scoped graph, where a plan that does not fit is an error. -/
def rebuildProvenanceChecked (g : FactGraph) : Except SemanticError FactGraph := do
  let g ← g.residentSelectors.foldlM (fun g fact => do
    let changes ← g.plannedProvenance fact
    return g.withProvenance (g.authorityProvenance ∪ changes)) g
  return { g with derivedIndexBytes := ← g.logicalIndexResidencyBytes }

end FactGraph

end MyOwnMesh.Semantic

import MyOwnMesh.Semantic.Provenance

/-!
# Resource accounting

What one fact costs and what the derived indexes occupy. The conservative cost
of an admission is reserved before it, the exact change of the index residency
is applied with it; both are computed from the graph before the fact is stored.
-/

namespace MyOwnMesh.Semantic

open Foundation

/-- Bytes an admission adds to and releases from the derived indexes. -/
structure IndexResidencyDelta where
  added : Nat
  removed : Nat

/-- What the admission of a fact takes and still misses. -/
structure FactCost where
  encodedBytes : Nat
  derivedIndexBytes : Nat
  dependencyEdges : Nat
  missing : List FactId
deriving DecidableEq

namespace FactGraph

def addIndexResidency (g : FactGraph) (delta : IndexResidencyDelta) (bytes : Nat) :
    Except SemanticError IndexResidencyDelta := do
  return { delta with added := ← g.checkedAddBytes delta.added bytes }

def removeIndexResidency (g : FactGraph) (delta : IndexResidencyDelta) (bytes : Nat) :
    Except SemanticError IndexResidencyDelta := do
  return { delta with removed := ← g.checkedAddBytes delta.removed bytes }

def applyIndexResidencyDelta (g : FactGraph) (current : Nat) (delta : IndexResidencyDelta) :
    Except SemanticError Nat :=
  if delta.removed ≤ current then g.checkedAddBytes (current - delta.removed) delta.added
  else .error g.accountingError

/-- The live rows retirement and the cold reserve start from. -/
def provenanceLiveRoots (g : FactGraph) : OrdSet FactId :=
  .ofList (g.cellHeadsIndex.values.flatMap (·.toList) ++
    g.authorityHeadsIndex.values.flatMap (·.toList) ++
    g.standDownIndex.values.flatMap (·.toList) ++
    (g.quarantineMissing.values.flatMap (·.toList)).filter fun id => g.facts.contains id) compare

variable [Platform]

/-- Add the entry bytes of every row of one index. -/
def residencyOf {κ β : Type} [Ord κ] [Std.TransOrd κ] (g : FactGraph) (index : OrdMap κ β)
    (inlineBytes valueBytes : Nat) (count : β → Nat) (total : Nat) : Except SemanticError Nat :=
  index.toList.foldlM (fun total (_, values) => do
    g.checkedAddBytes total (← g.checkedEntryBytes inlineBytes (count values) valueBytes)) total

/-- The bytes of all derived indexes, by a scan. -/
def logicalIndexResidencyBytes (g : FactGraph) : Except SemanticError Nat := do
  let total ← g.residencyOf g.cellHeadsIndex Platform.sizeCellEntry Platform.sizeFactId
    (·.size) 0
  let total ← g.residencyOf g.authorityHeadsIndex Platform.sizeDeviceEntry Platform.sizeFactId
    (·.size) total
  let total ← g.residencyOf g.authorityFactsIndex Platform.sizeDeviceEntry Platform.sizeFactId
    (·.size) total
  let total ← g.residencyOf g.authoritySelectorIndex Platform.sizeSelectorEntry
    Platform.sizeFactIdPair (·.size) total
  let total ← g.residencyOf g.authorityProvenance Platform.sizeProvenanceEntry
    Platform.sizeRelationEntry (·.size) total
  let total ← g.cellsIndex.toList.foldlM (fun total _ =>
    g.checkedAddBytes total Platform.sizeCell) total
  g.residencyOf g.standDownIndex Platform.sizeDeviceEntry Platform.sizeFactId (·.size) total

/-- A residency that is only added in some cases. -/
def addResidencyWhen (g : FactGraph) (delta : IndexResidencyDelta) (charged : Bool)
    (bytes : Nat) : Except SemanticError IndexResidencyDelta :=
  if charged then g.addIndexResidency delta bytes else .ok delta

/-- The previous row of a replaced provenance entry. -/
def removePreviousRow (g : FactGraph) (delta : IndexResidencyDelta) (id : FactId) :
    Except SemanticError IndexResidencyDelta :=
  match g.authorityProvenance[id]? with
  | some previous => do g.removeIndexResidency delta (← g.provenanceRowBytes previous)
  | none => .ok delta

/-- The rows a fact's provenance plan replaces and adds. -/
def provenanceResidencyDelta (g : FactGraph) (fact : SignedFact) :
    Except SemanticError IndexResidencyDelta := do
  (← g.plannedProvenance fact).toList.foldlM (fun delta (id, row) => do
    let delta ← g.removePreviousRow delta id
    g.addIndexResidency delta (← g.provenanceRowBytes row)) { added := 0, removed := 0 }

/-- Replacing the heads of one index entry by a candidate. -/
def headReplacementResidencyDelta (g : FactGraph) (delta : IndexResidencyDelta)
    (heads : Option (OrdSet FactId)) (directDependencies : List FactId)
    (mapInlineBytes : Nat) : Except SemanticError IndexResidencyDelta := do
  let delta ← g.addResidencyWhen delta heads.isNone mapInlineBytes
  let delta ← g.addIndexResidency delta Platform.sizeFactId
  let removedHeads := ((heads.getD ∅).toList.filter
    (signedHeadIsDominated g.facts directDependencies)).length
  g.removeIndexResidency delta (← g.checkedMulBytes removedHeads Platform.sizeFactId)

/-- One value added to one entry of a set-valued index, with the entry when new. -/
def entryResidencyDelta {κ β : Type} [Ord κ] [Std.TransOrd κ] [Ord β] [Std.TransOrd β]
    (g : FactGraph) (delta : IndexResidencyDelta) (index : OrdMap κ (OrdSet β)) (key : κ)
    (value : β) (inlineBytes valueBytes : Nat) : Except SemanticError IndexResidencyDelta := do
  let delta ← g.addResidencyWhen delta index[key]?.isNone inlineBytes
  g.addResidencyWhen delta (!(index.getD key ∅).contains value) valueBytes

/-- The bytes a selection adds to its index. -/
def selectorResidencyDelta (g : FactGraph) (delta : IndexResidencyDelta) (fact : SignedFact) :
    Except SemanticError IndexResidencyDelta :=
  match fact.content.body.lineageSelector with
  | some (subject, selectedHead) =>
    g.entryResidencyDelta delta g.authoritySelectorIndex subject (fact.id, selectedHead)
      Platform.sizeSelectorEntry Platform.sizeFactIdPair
  | none => .ok delta

/-- The bytes a stand-down adds to its index. -/
def standDownResidencyDelta (g : FactGraph) (delta : IndexResidencyDelta) (fact : SignedFact) :
    Except SemanticError IndexResidencyDelta :=
  match fact.content.body.standDownTarget with
  | some target =>
    g.entryResidencyDelta delta g.standDownIndex target fact.id Platform.sizeDeviceEntry
      Platform.sizeFactId
  | none => .ok delta

/-- The exact residency change of an admission. -/
def exactIndexResidencyDelta (g : FactGraph) (fact : SignedFact) :
    Except SemanticError IndexResidencyDelta := do
  let directDependencies := fact.dependencies
  let delta ← fact.cellSet.toList.foldlM (fun delta cell => do
    let delta ← g.addResidencyWhen delta (!g.cellsIndex.contains cell) Platform.sizeCell
    g.headReplacementResidencyDelta delta g.cellHeadsIndex[cell]? directDependencies
      Platform.sizeCellEntry) { added := 0, removed := 0 }
  let delta ← fact.indexedAuthoritySubjects.toList.foldlM (fun delta subject => do
    let delta ← g.entryResidencyDelta delta g.authorityFactsIndex subject fact.id
      Platform.sizeDeviceEntry Platform.sizeFactId
    g.headReplacementResidencyDelta delta g.authorityHeadsIndex[subject]? directDependencies
      Platform.sizeDeviceEntry) delta
  let delta ← g.selectorResidencyDelta delta fact
  let provenance ← g.provenanceResidencyDelta fact
  let delta ← g.addIndexResidency delta provenance.added
  let delta ← g.removeIndexResidency delta provenance.removed
  g.standDownResidencyDelta delta fact

/-! ## Conservative reservation -/

/-- Subject-index entries a cold overlay may leave resident. -/
def coldProvenanceIndexReserve (g : FactGraph) (fact : SignedFact) :
    Except SemanticError Nat := do
  if g.stagedColdPending = 0 then
    return 0
  let plan ← g.plannedProvenance fact
  let lookup (id : FactId) : Option SignedFact :=
    if id = fact.id then some fact else g.facts[id]?
  let anchors := plan.values.flatMap fun row =>
    row.toList.flatMap fun (selector, relation) => [selector, relation.selected]
  let roots := (g.provenanceLiveRoots.insert fact.id) ∪ Std.ExtTreeSet.ofList anchors compare
  let witnesses := (roots.toList.filterMap lookup).flatMap SignedFact.dependencies
  let retained := roots ∪ Std.ExtTreeSet.ofList witnesses compare
  let contexts : OrdSet FactId := .ofList (plan.values.flatMap (·.keys)) compare
  let (bytes, _) ← contexts.toList.foldlM (fun (state : Nat × OrdSet DeviceId) selector => do
    let (bytes, selectorSubjects) := state
    if selector = fact.id then return state
    match g.facts[selector]?.bind (·.content.body.lineageSelector) with
    | none => return state
    | some (subject, selectedHead) =>
      if (g.authoritySelectorIndex.getD subject ∅).contains (selector, selectedHead) then
        return state
      let bytes ← g.checkedAddBytes bytes Platform.sizeFactIdPair
      if !g.authoritySelectorIndex.contains subject && !selectorSubjects.contains subject then
        return (← g.checkedAddBytes bytes Platform.sizeSelectorEntry,
          selectorSubjects.insert subject)
      return (bytes, selectorSubjects)) (0, ∅)
  let (bytes, _) ← retained.toList.foldlM (fun (state : Nat × OrdSet DeviceId) id => do
    if id = fact.id then return state
    match g.facts[id]? with
    | none => return state
    | some stored =>
      stored.indexedAuthoritySubjects.toList.foldlM (fun (state : Nat × OrdSet DeviceId)
          subject => do
        let (bytes, newSubjects) := state
        if (g.authorityFactsIndex.getD subject ∅).contains id then return state
        let bytes ← g.checkedAddBytes bytes Platform.sizeFactId
        if !g.authorityFactsIndex.contains subject && !newSubjects.contains subject then
          return (← g.checkedAddBytes bytes Platform.sizeDeviceEntry,
            newSubjects.insert subject)
        return (bytes, newSubjects)) state) (bytes, ∅)
  return bytes

/-- Add one value to one entry, with the entry when it is absent. -/
def reserveEntry (g : FactGraph) (total : Nat) (absent : Bool) (inlineBytes count
    valueBytes : Nat) : Except SemanticError Nat := do
  g.checkedAddBytes total
    (← g.checkedEntryBytes (if absent then inlineBytes else 0) count valueBytes)

/-- The conservative residency of an admission: superseded heads stay charged. -/
def indexResidencyDelta (g : FactGraph) (fact : SignedFact) : Except SemanticError Nat := do
  let total ← fact.cellSet.toList.foldlM (fun total cell => do
    let total ←
      if g.cellsIndex.contains cell then pure total
      else g.checkedAddBytes total Platform.sizeCell
    g.reserveEntry total g.cellHeadsIndex[cell]?.isNone Platform.sizeCellEntry 1
      Platform.sizeFactId) 0
  let total ← fact.indexedAuthoritySubjects.toList.foldlM (fun total subject => do
    let known := (g.authorityFactsIndex.getD subject ∅).contains fact.id
    let total ← g.reserveEntry total g.authorityFactsIndex[subject]?.isNone
      Platform.sizeDeviceEntry (if known then 0 else 1) Platform.sizeFactId
    g.reserveEntry total g.authorityHeadsIndex[subject]?.isNone Platform.sizeDeviceEntry 1
      Platform.sizeFactId) total
  let total ←
    match fact.content.body.lineageSelector with
    | some (subject, _) =>
      g.reserveEntry total g.authoritySelectorIndex[subject]?.isNone
        Platform.sizeSelectorEntry 1 Platform.sizeFactIdPair
    | none => pure total
  let provenance ← g.provenanceResidencyDelta fact
  let total ← g.checkedAddBytes total (provenance.added - provenance.removed)
  let total ← g.checkedAddBytes total (← g.coldProvenanceIndexReserve fact)
  match fact.content.body.standDownTarget with
  | some target =>
    g.reserveEntry total g.standDownIndex[target]?.isNone Platform.sizeDeviceEntry 1
      Platform.sizeFactId
  | none => pure total

/-! ## Fact costs -/

/-- The encoded length and the dependency edges a fact is charged. -/
def factEncodedAndEdges (g : FactGraph) (fact : SignedFact) : Except SemanticError (Nat × Nat) := do
  match Platform.encodedLen fact with
  | none => throw .encodingFailed
  | some encodedBytes =>
    let edges ← g.checkedAddBytes fact.dependencies.length fact.content.authorityUses.length
    return (encodedBytes, edges)

def factTotals (g : FactGraph) (facts : Facts) : Except SemanticError (Nat × Nat) :=
  facts.toList.foldlM (fun (totals : Nat × Nat) (_, fact) => do
    let (bytes, edges) ← g.factEncodedAndEdges fact
    return (← g.checkedAddBytes totals.1 bytes, ← g.checkedAddBytes totals.2 edges)) (0, 0)

/-- The reserved cost of a candidate and the dependencies it still misses. -/
def factCost (g : FactGraph) (fact : SignedFact) : Except SemanticError FactCost := do
  let (encodedBytes, dependencyEdges) ← g.factEncodedAndEdges fact
  let missing := fact.dependencies.filter fun dependency => !g.facts.contains dependency
  let derivedIndexBytes ← g.indexResidencyDelta fact
  checkCapacity .factEncodedBytes encodedBytes g.policyLimits.maxFactEncodedBytes
  checkCapacity .dependenciesPerFact fact.dependencies.length
    g.policyLimits.maxDependenciesPerFact
  checkCapacity .authorityUsesPerFact fact.content.authorityUses.length
    g.policyLimits.maxAuthorityUsesPerFact
  checkCapacity .authorityPredecessorsPerUse
    ((fact.content.authorityUses.map fun use => use.predecessors.length).foldl max 0)
    g.policyLimits.maxAuthorityPredecessorsPerUse
  return { encodedBytes, derivedIndexBytes, dependencyEdges, missing }

omit [Platform] in
/-- The author's retained facts and bytes stay within policy. -/
def reserveRetained (g : FactGraph) (author : DeviceId) (cost : FactCost) :
    Except SemanticError Unit := do
  let (authorFacts, authorBytes) := g.retainedByAuthor.getD author (0, 0)
  let _ ← checkedTotal .retainedFactsPerAuthor authorFacts 1
    g.policyLimits.maxRetainedFactsPerAuthor
  let _ ← checkedTotal .retainedBytesPerAuthor authorBytes cost.encodedBytes
    g.policyLimits.maxRetainedBytesPerAuthor

omit [Platform] in
/-- Admitted and quarantined edges share one limit. -/
def reserveEdges (g : FactGraph) (cost : FactCost) : Except SemanticError Unit := do
  if g.admittedDependencyEdges + g.quarantinedDependencyEdges > u64Max then
    throw (.capacityExceeded .dependencyEdges g.policyLimits.maxDependencyEdges u64Max)
  let _ ← checkedTotal .dependencyEdges
    (g.admittedDependencyEdges + g.quarantinedDependencyEdges) cost.dependencyEdges
    g.policyLimits.maxDependencyEdges

omit [Platform] in
/-- Whether a waiting fact fits every limit. -/
def reserveQuarantine (g : FactGraph) (fact : SignedFact) (cost : FactCost)
    (retainedReserved : Bool) : Except SemanticError Unit := do
  if !retainedReserved then
    g.reserveRetained fact.content.author cost
  let _ ← checkedTotal .quarantinedFacts g.quarantined.size 1 g.policyLimits.maxQuarantinedFacts
  let _ ← checkedTotal .quarantinedBytes g.quarantinedBytes cost.encodedBytes
    g.policyLimits.maxQuarantinedBytes
  g.reserveEdges cost
  let (authorFacts, authorBytes) := g.quarantinedByAuthor.getD fact.content.author (0, 0)
  let _ ← checkedTotal .quarantinedFactsPerAuthor authorFacts 1
    g.policyLimits.maxQuarantinedFactsPerAuthor
  let _ ← checkedTotal .quarantinedBytesPerAuthor authorBytes cost.encodedBytes
    g.policyLimits.maxQuarantinedBytesPerAuthor

omit [Platform] in
/-- Whether an admitted fact fits every limit. -/
def reserveAdmitted (g : FactGraph) (fact : SignedFact) (cost : FactCost)
    (retainedReserved : Bool) : Except SemanticError Unit := do
  if !retainedReserved then
    g.reserveRetained fact.content.author cost
  let _ ← checkedTotal .admittedFacts g.admittedFactCount 1 g.policyLimits.maxAdmittedFacts
  let _ ← checkedTotal .admittedBytes g.admittedBytes cost.encodedBytes
    g.policyLimits.maxAdmittedBytes
  let factAndIndexes :=
    g.admittedBytes + cost.encodedBytes + g.derivedIndexBytes + cost.derivedIndexBytes
  if factAndIndexes > u64Max then
    throw g.accountingError
  g.checkDatabaseBytes factAndIndexes
  g.reserveEdges cost

end FactGraph

end MyOwnMesh.Semantic

import MyOwnMesh.Semantic.Lineage

/-!
# Selector provenance

For every lineage selector the graph keeps, per fact, whether the fact descends
from the selector, descends from its selected head, or precedes that head.
`plannedProvenance` computes the rows one admission adds, with the byte budget
checked while the rows are built, as the program does.
-/

namespace MyOwnMesh.Semantic

open Foundation

/-! ## Checked arithmetic -/

def checkCapacity (dimension : SemanticCapacityDimension) (observed limit : Nat) :
    Except SemanticError Unit :=
  if observed > limit then .error (.capacityExceeded dimension limit observed) else .ok ()

/-- A running total against its limit; overflow reports the largest `u64`. -/
def checkedTotal (dimension : SemanticCapacityDimension) (current additional limit : Nat) :
    Except SemanticError Nat := do
  if current + additional > u64Max then
    throw (.capacityExceeded dimension limit u64Max)
  checkCapacity dimension (current + additional) limit
  return current + additional

namespace FactGraph

/-- The refusal of a byte count that leaves `u64`. -/
def accountingError (g : FactGraph) : SemanticError :=
  .capacityExceeded .admittedBytes g.policyLimits.maxDatabaseBytes u64Max

def checkedAddBytes (g : FactGraph) (left right : Nat) : Except SemanticError Nat :=
  if left + right ≤ u64Max then .ok (left + right) else .error g.accountingError

def checkedMulBytes (g : FactGraph) (left right : Nat) : Except SemanticError Nat :=
  if left * right ≤ u64Max then .ok (left * right) else .error g.accountingError

/-- The bytes of one map entry with `valueCount` values. -/
def checkedEntryBytes (g : FactGraph) (inlineBytes valueCount valueBytes : Nat) :
    Except SemanticError Nat := do
  let values ← g.checkedMulBytes valueCount valueBytes
  g.checkedAddBytes inlineBytes values

/-- Database-envelope check of a planned byte count. -/
def checkDatabaseBytes (g : FactGraph) (observed : Nat) : Except SemanticError Unit :=
  checkCapacity .admittedBytes observed g.policyLimits.maxDatabaseBytes

end FactGraph

/-! ## Complete ancestry -/

/-- The proper signed ancestors of a fact; a missing body is an error. -/
def completeAncestors (facts : Facts) (id : FactId) : Except SemanticError (OrdSet FactId) :=
  let order := traverse (parentsIn facts) facts.keys [id]
  match order.find? fun next => !facts.contains next with
  | some missing => .error (.missingParent missing)
  | none => .ok ((Std.ExtTreeSet.ofList order compare).erase id)

/-- How a fact lies to a selection of a lineage head. -/
def selectorRelation (facts : Facts) (selector selected : FactId)
    (selectedAncestors : OrdSet FactId) (id : FactId) :
    Except SemanticError AuthoritySelectorRelation := do
  let ancestors ← completeAncestors facts id
  return {
    selected
    postSelector := id == selector || ancestors.contains selector
    selectedBefore := id == selected || ancestors.contains selected
    beforeSelected := id == selected || selectedAncestors.contains id }

/-- Whether a relation says anything. -/
def AuthoritySelectorRelation.isRelated (relation : AuthoritySelectorRelation) : Bool :=
  relation.postSelector || relation.selectedBefore || relation.beforeSelected

/-- Merge a parent's relation into a row: only descent is inherited. -/
def inheritRelation (row : AuthorityProvenanceRow) (selector : FactId)
    (relation : AuthoritySelectorRelation) : AuthorityProvenanceRow :=
  if relation.postSelector || relation.selectedBefore then
    let entry := row.getD selector
      { selected := relation.selected, postSelector := false, selectedBefore := false,
        beforeSelected := false }
    row.insert selector
      { entry with
        postSelector := entry.postSelector || relation.postSelector
        selectedBefore := entry.selectedBefore || relation.selectedBefore }
  else row

namespace FactGraph

/-- The row of a candidate inherited from its signed parents. -/
def inheritedRow (g : FactGraph) (fact : SignedFact) : AuthorityProvenanceRow :=
  fact.content.parents.foldl (fun row parent =>
    (g.authorityProvenance.getD parent ∅).toList.foldl
      (fun row (selector, relation) => inheritRelation row selector relation) row)
    (g.authorityProvenance.getD fact.id ∅)

/-- The selectors whose relations an admission computes afresh: the candidate
itself, and under a cold overlay every selector of its ancestry and index. -/
def provenanceContexts (g : FactGraph) (fact : SignedFact) (facts : Facts) :
    Except SemanticError (OrdMap FactId FactId) := do
  let own : OrdMap FactId FactId :=
    match fact.content.body.lineageSelector with
    | some (_, selectedHead) => (∅ : OrdMap FactId FactId).insert fact.id selectedHead
    | none => ∅
  if g.stagedColdPending = 0 then
    return own
  let ancestors ← completeAncestors facts fact.id
  let withAncestors := ancestors.toList.foldl (fun contexts id =>
    match g.facts[id]? with
    | some stored =>
      match stored.content.body.lineageSelector with
      | some (_, selectedHead) => contexts.insert id selectedHead
      | none => contexts
    | none => contexts) own
  return g.authoritySelectorIndex.toList.foldl (fun contexts (_, selectors) =>
    selectors.toList.foldl (fun contexts (selector, selected) =>
      contexts.insert selector selected) contexts) withAncestors

variable [Platform]

def provenanceRowBytes (g : FactGraph) (row : AuthorityProvenanceRow) :
    Except SemanticError Nat :=
  g.checkedEntryBytes Platform.sizeProvenanceEntry row.size Platform.sizeRelationEntry

/-- What a row costs when the plan touches it first. -/
def firstTouchBytes (g : FactGraph) (changes : AuthorityProvenance) (id : FactId) :
    Except SemanticError Nat :=
  if changes.contains id then .ok 0
  else
    match g.authorityProvenance[id]? with
    | some row => g.provenanceRowBytes row
    | none => .ok Platform.sizeProvenanceEntry

/-- Record one related fact in the plan and charge the bytes it adds. -/
def planRelation (g : FactGraph) (selector : FactId) (plan : AuthorityProvenance × Nat)
    (id : FactId) (relation : AuthoritySelectorRelation) :
    Except SemanticError (AuthorityProvenance × Nat) := do
  let (changes, plannedBytes) := plan
  let row := (changes[id]?.or g.authorityProvenance[id]?).getD ∅
  let base ← g.firstTouchBytes changes id
  let added := if row.contains selector then 0 else Platform.sizeRelationEntry
  let next ← g.checkedAddBytes plannedBytes (← g.checkedAddBytes base added)
  g.checkDatabaseBytes next
  return (changes.insert id (row.insert selector relation), next)

/-- Plan the relations of all facts to one selector. -/
def planSelector (g : FactGraph) (fact : SignedFact) (facts : Facts)
    (plan : AuthorityProvenance × Nat) (selector selected : FactId) :
    Except SemanticError (AuthorityProvenance × Nat) := do
  let selectedAncestors ← completeAncestors facts selected
  let ids :=
    if selector = fact.id ∨ g.stagedColdPending ≠ 0 then facts.keys else [fact.id]
  ids.foldlM (fun plan id => do
    let relation ← selectorRelation facts selector selected selectedAncestors id
    if relation.isRelated then g.planRelation selector plan id relation else return plan) plan

/-- The plan that holds the inherited row of a candidate. -/
def inheritedPlan (g : FactGraph) (fact : SignedFact) :
    Except SemanticError (AuthorityProvenance × Nat) :=
  let row := g.inheritedRow fact
  if row.isEmpty then .ok (∅, 0)
  else do
    let plannedBytes ← g.provenanceRowBytes row
    g.checkDatabaseBytes plannedBytes
    return ((∅ : AuthorityProvenance).insert fact.id row, plannedBytes)

/-- The bytes of all planned rows fit the database envelope. -/
def checkPlannedRows (g : FactGraph) (changes : AuthorityProvenance) :
    Except SemanticError Nat :=
  changes.toList.foldlM (fun bytes (_, row) => do
    let bytes ← g.checkedAddBytes bytes (← g.provenanceRowBytes row)
    g.checkDatabaseBytes bytes
    return bytes) 0

/-- The provenance rows one admission adds or replaces. A candidate with a
missing dependency owns none yet. -/
def plannedProvenance (g : FactGraph) (fact : SignedFact) :
    Except SemanticError AuthorityProvenance :=
  if fact.dependencies.any fun id => !g.facts.contains id then .ok ∅
  else do
    -- The candidate shadows a resident body of its own identity.
    let facts := g.facts.insert fact.id fact
    let start ← g.inheritedPlan fact
    let contexts ← g.provenanceContexts fact facts
    let (changes, _) ← contexts.toList.foldlM (fun plan (selector, selected) =>
      g.planSelector fact facts plan selector selected) start
    let _ ← g.checkPlannedRows changes
    return changes

end FactGraph

end MyOwnMesh.Semantic

import MyOwnMesh.Semantic.Projection

/-!
# The causal graph

The state of the semantic owner: admitted and quarantined facts, the scalar
usage counters, the waiting indexes of the quarantine, the derived head,
selector, provenance and stand-down indexes, and the projection cache with the
generation it was computed at. Counters the program keeps in `u64` are natural
numbers here; where the program checks for overflow the model has the check.
-/

namespace MyOwnMesh.Semantic

open Foundation

/-- Owner-selected aggregate admission limits. -/
structure SemanticAdmissionPolicy where
  maxFactEncodedBytes : Nat
  maxDependenciesPerFact : Nat
  maxAuthorityUsesPerFact : Nat
  maxAuthorityPredecessorsPerUse : Nat
  maxAdmittedFacts : Nat
  maxAdmittedBytes : Nat
  maxQuarantinedFacts : Nat
  maxQuarantinedBytes : Nat
  maxQuarantinedFactsPerAuthor : Nat
  maxQuarantinedBytesPerAuthor : Nat
  maxRetainedFactsPerAuthor : Nat
  maxRetainedBytesPerAuthor : Nat
  maxHotHistoryFacts : Nat
  maxDependencyEdges : Nat
  maxReadyBatch : Nat
  maxDatabaseBytes : Nat
deriving DecidableEq

/-- The project policy: Open has no durable facts, Closed the one profile. -/
inductive VerifiedProjectPolicy where
  | «open»
  | closed
deriving DecidableEq

/-- A verified bootstrap: a Closed project has exactly one authority root. -/
structure VerifiedBootstrap where
  contextId : MeshContextId
  policy : VerifiedProjectPolicy
  authorityRoots : List DeviceId
  closed_root : policy = .closed → ∃ root, authorityRoots = [root]
  open_root : policy = .open → authorityRoots = []

/-- A verified Closed bootstrap of one root. -/
def VerifiedBootstrap.closed (contextId : MeshContextId) (root : DeviceId) :
    VerifiedBootstrap where
  contextId
  policy := .closed
  authorityRoots := [root]
  closed_root := fun _ => ⟨root, rfl⟩
  open_root := by intro h; cases h

/-- Relations proved from admitted signed ancestry; all equalities are
inclusive. -/
structure AuthoritySelectorRelation where
  selected : FactId
  postSelector : Bool
  selectedBefore : Bool
  beforeSelected : Bool
deriving DecidableEq

abbrev AuthorityProvenanceRow := OrdMap FactId AuthoritySelectorRelation

abbrev AuthorityProvenance := OrdMap FactId AuthorityProvenanceRow

abbrev Facts := OrdMap FactId SignedFact

/-- The signed parents of a fact of the map; an absent fact has none. -/
def parentsIn (facts : Facts) (id : FactId) : List FactId :=
  match facts[id]? with
  | some fact => fact.content.parents
  | none => []

/-- The canonical dependencies of a fact of the map; an absent fact has none. -/
def dependenciesIn (facts : Facts) (id : FactId) : List FactId :=
  match facts[id]? with
  | some fact => fact.dependencies
  | none => []

/-- A set of verified canonical facts with its derived indexes. -/
structure FactGraph where
  facts : Facts
  /-- All admitted history, including rows retired from `facts`. -/
  admittedFactCount : Nat
  admissionOrder : List FactId
  quarantined : Facts
  policyLimits : SemanticAdmissionPolicy
  admittedBytes : Nat
  derivedIndexBytes : Nat
  quarantinedBytes : Nat
  admittedDependencyEdges : Nat
  quarantinedDependencyEdges : Nat
  quarantinedByAuthor : OrdMap DeviceId (Nat × Nat)
  retainedByAuthor : OrdMap DeviceId (Nat × Nat)
  quarantineMissing : OrdMap FactId (OrdSet FactId)
  waitingByDependency : OrdMap FactId (OrdSet FactId)
  readyQuarantine : OrdSet FactId
  contextId : MeshContextId
  authorityRoots : OrdSet DeviceId
  policy : VerifiedProjectPolicy
  cellHeadsIndex : OrdMap ExclusiveCell (OrdSet FactId)
  authorityHeadsIndex : OrdMap DeviceId (OrdSet FactId)
  authorityFactsIndex : OrdMap DeviceId (OrdSet FactId)
  authoritySelectorIndex : OrdMap DeviceId (OrdSet (FactId × FactId))
  authorityProvenance : AuthorityProvenance
  cellsIndex : OrdSet ExclusiveCell
  standDownIndex : OrdMap DeviceId (OrdSet FactId)
  indexedFactCount : Nat
  factsRevision : Nat
  indexedRevision : Nat
  generation : Nat
  deferProjectionCommitment : Bool
  coldHistorySinceRetirement : Nat
  stagedColdPending : Nat
  projectionCache : Option (Nat × Projection)

namespace FactGraph

/-- The empty graph of a context: no fact, no index entry, no cache. -/
def empty (contextId : MeshContextId) (authorityRoots : OrdSet DeviceId)
    (policy : VerifiedProjectPolicy) (policyLimits : SemanticAdmissionPolicy) : FactGraph where
  facts := ∅
  admittedFactCount := 0
  admissionOrder := []
  quarantined := ∅
  policyLimits
  admittedBytes := 0
  derivedIndexBytes := 0
  quarantinedBytes := 0
  admittedDependencyEdges := 0
  quarantinedDependencyEdges := 0
  quarantinedByAuthor := ∅
  retainedByAuthor := ∅
  quarantineMissing := ∅
  waitingByDependency := ∅
  readyQuarantine := ∅
  contextId
  authorityRoots
  policy
  cellHeadsIndex := ∅
  authorityHeadsIndex := ∅
  authorityFactsIndex := ∅
  authoritySelectorIndex := ∅
  authorityProvenance := ∅
  cellsIndex := ∅
  standDownIndex := ∅
  indexedFactCount := 0
  factsRevision := 0
  indexedRevision := 0
  generation := 0
  deferProjectionCommitment := false
  coldHistorySinceRetirement := 0
  stagedColdPending := 0
  projectionCache := none

/-- The graph of a verified bootstrap with an owner-selected budget. -/
def fromBootstrapWithPolicy (bootstrap : VerifiedBootstrap)
    (policyLimits : SemanticAdmissionPolicy) : FactGraph :=
  empty bootstrap.contextId (.ofList bootstrap.authorityRoots compare) bootstrap.policy
    policyLimits

/-- Whether the derived indexes describe the current fact map. -/
def indexesCurrent (g : FactGraph) : Bool :=
  g.indexedFactCount == g.facts.size && g.indexedRevision == g.factsRevision

end FactGraph

end MyOwnMesh.Semantic

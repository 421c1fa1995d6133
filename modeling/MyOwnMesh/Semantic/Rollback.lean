import MyOwnMesh.Semantic.Evaluator
import MyOwnMesh.Semantic.Impact

/-!
# Sparse graph rollback

The undo record of an admission: the previous values of the touched entries of
each map, the scalar counters, and the fence of the projection cache. Restoring
it rebuilds the derived indexes and puts the captured values back.
-/

namespace MyOwnMesh.Semantic

open Foundation

/-- The captured pre-mutation state of a graph. -/
structure GraphRollback where
  authorityProvenance : OrdMap FactId (Option AuthorityProvenanceRow)
  authorityHeads : OrdMap DeviceId (Option (OrdSet FactId))
  cellHeads : OrdMap ExclusiveCell (Option (OrdSet FactId))
  facts : OrdMap FactId (Option SignedFact)
  quarantined : OrdMap FactId (Option SignedFact)
  quarantineMissing : OrdMap FactId (Option (OrdSet FactId))
  waitingByDependency : OrdMap FactId (Option (OrdSet FactId))
  readyQuarantine : OrdMap FactId Bool
  quarantinedByAuthor : OrdMap DeviceId (Option (Nat × Nat))
  retainedByAuthor : OrdMap DeviceId (Option (Nat × Nat))
  admittedBytes : Nat
  admittedFactCount : Nat
  derivedIndexBytes : Nat
  quarantinedBytes : Nat
  admittedDependencyEdges : Nat
  quarantinedDependencyEdges : Nat
  generation : Nat
  factsRevision : Nat
  admissionOrderLen : Nat
  indexedFactCount : Nat
  indexedRevision : Nat
  coldHistorySinceRetirement : Nat
  stagedColdPending : Nat
  /-- Generation and root of the cached projection. -/
  projectionCacheFence : Option (Nat × Digest)
  /-- The complete projection, kept only when cold history is staged. -/
  projectionFull : Option Projection
  projectionSparse : SparseEntries

namespace GraphRollback

/-- A record with the scalars of a graph and no captured entry. -/
def new (g : FactGraph) : GraphRollback where
  authorityProvenance := ∅
  authorityHeads := ∅
  cellHeads := ∅
  facts := ∅
  quarantined := ∅
  quarantineMissing := ∅
  waitingByDependency := ∅
  readyQuarantine := ∅
  quarantinedByAuthor := ∅
  retainedByAuthor := ∅
  admittedBytes := g.admittedBytes
  admittedFactCount := g.admittedFactCount
  derivedIndexBytes := g.derivedIndexBytes
  quarantinedBytes := g.quarantinedBytes
  admittedDependencyEdges := g.admittedDependencyEdges
  quarantinedDependencyEdges := g.quarantinedDependencyEdges
  generation := g.generation
  factsRevision := g.factsRevision
  admissionOrderLen := g.admissionOrder.length
  indexedFactCount := g.indexedFactCount
  indexedRevision := g.indexedRevision
  coldHistorySinceRetirement := g.coldHistorySinceRetirement
  stagedColdPending := g.stagedColdPending
  projectionCacheFence := g.projectionCache.map fun (generation, projection) =>
    (generation, projection.commitmentRoot)
  projectionFull := none
  projectionSparse := ⟨∅, ∅⟩

/-! ## Capturing -/

/-- Capture projection entries; the first capture of a key wins. -/
def captureProjectionSparse (r : GraphRollback) (entries : SparseEntries) : GraphRollback :=
  { r with
    projectionSparse :=
      ⟨entries.cells ∪ r.projectionSparse.cells,
        entries.standDown ∪ r.projectionSparse.standDown⟩ }

/-- Capture the complete projection; without a cache fence it sets one. -/
def captureProjectionFull (r : GraphRollback) (generation : Nat) (projection : Projection) :
    GraphRollback :=
  { r with
    projectionCacheFence := r.projectionCacheFence.or (some (generation, projection.commitmentRoot))
    projectionFull := some projection }

/-- Capture the index entries the admission of a fact may replace. -/
def captureProvenanceAdmission (r : GraphRollback) (g : FactGraph) (fact : SignedFact) :
    GraphRollback :=
  let captureRow (log : OrdMap FactId (Option AuthorityProvenanceRow)) (id : FactId) :=
    log.insertIfNew id g.authorityProvenance[id]?
  let own := captureRow r.authorityProvenance fact.id
  { r with
    authorityProvenance :=
      if g.stagedColdPending ≠ 0 ∨ fact.content.body.lineageSelector.isSome then
        g.facts.keys.foldl captureRow own
      else own
    authorityHeads := fact.useSubjects.foldl (fun log subject =>
      log.insertIfNew subject g.authorityHeadsIndex[subject]?) r.authorityHeads
    cellHeads := fact.content.body.exclusiveCells.foldl (fun log cell =>
      log.insertIfNew cell g.cellHeadsIndex[cell]?) r.cellHeads }

/-- Record what is stored of a fact before it changes. -/
def captureFact (r : GraphRollback) (g : FactGraph) (id : FactId) : GraphRollback :=
  let captured :=
    { r with
      facts := r.facts.insertIfNew id g.facts[id]?
      quarantined := r.quarantined.insertIfNew id g.quarantined[id]?
      quarantineMissing := r.quarantineMissing.insertIfNew id g.quarantineMissing[id]?
      readyQuarantine := r.readyQuarantine.insertIfNew id (g.readyQuarantine.contains id) }
  match g.facts[id]?.or g.quarantined[id]? with
  | some fact => captured.captureProvenanceAdmission g fact
  | none => captured

def captureAuthor (r : GraphRollback) (g : FactGraph) (author : DeviceId) : GraphRollback :=
  { r with
    quarantinedByAuthor :=
      r.quarantinedByAuthor.insertIfNew author g.quarantinedByAuthor[author]?
    retainedByAuthor := r.retainedByAuthor.insertIfNew author g.retainedByAuthor[author]? }

/-- Capture the author of a stored fact. -/
def captureAuthorOf (r : GraphRollback) (g : FactGraph) (stored : Option SignedFact) :
    GraphRollback :=
  match stored with
  | some fact => r.captureAuthor g fact.content.author
  | none => r

def waitersOf (g : FactGraph) (dependency : FactId) : List FactId :=
  (g.waitingByDependency.getD dependency ∅).toList

/-- Capture the waiting entry of a dependency and the rows of its waiters. -/
def captureDependency (r : GraphRollback) (g : FactGraph) (dependency : FactId) :
    GraphRollback :=
  let captured :=
    { r with
      waitingByDependency :=
        r.waitingByDependency.insertIfNew dependency g.waitingByDependency[dependency]? }
  (waitersOf g dependency).foldl (fun r waiter =>
    (r.captureFact g waiter).captureAuthorOf g g.quarantined[waiter]?) captured

def captureAdmission (r : GraphRollback) (g : FactGraph) (fact : SignedFact) : GraphRollback :=
  let captured := (((r.captureFact g fact.id).captureAuthor g fact.content.author)
    |>.captureProvenanceAdmission g fact).captureDependency g fact.id
  fact.dependencies.foldl (fun r dependency => r.captureDependency g dependency) captured

/-- The transitive waiters of the seeds, seeds included. -/
def waiterClosure (g : FactGraph) (seeds : List FactId) : List FactId :=
  traverse (waitersOf g) g.waitingByDependency.keys seeds

/-- Capture everything a retry from the seeds can touch. -/
def captureWaiterClosure (r : GraphRollback) (g : FactGraph) (seeds : List FactId) :
    GraphRollback :=
  (waiterClosure g seeds).foldl (fun r dependency =>
    let r := ((r.captureFact g dependency).captureAuthorOf g g.facts[dependency]?
      |>.captureAuthorOf g g.quarantined[dependency]?).captureDependency g dependency
    (waitersOf g dependency).foldl (fun r waiter => r.captureFact g waiter) r) r

/-- Record staged overlay rows as absent in the baseline. -/
def captureStagedAbsence (r : GraphRollback) (staged : List FactId) : GraphRollback :=
  staged.foldl (fun r id =>
    { r with
      facts := r.facts.insert id none
      quarantined := r.quarantined.insert id none
      quarantineMissing := r.quarantineMissing.insert id none
      readyQuarantine := r.readyQuarantine.insert id false }) r

/-! ## Restoring -/

/-- Put the captured rows and scalars back, before the indexes are rebuilt. -/
def restoreRows (r : GraphRollback) (g : FactGraph) : FactGraph :=
  { g with
    admittedBytes := r.admittedBytes
    admittedFactCount := r.admittedFactCount
    derivedIndexBytes := r.derivedIndexBytes
    quarantinedBytes := r.quarantinedBytes
    admittedDependencyEdges := r.admittedDependencyEdges
    quarantinedDependencyEdges := r.quarantinedDependencyEdges
    facts := restoreEntries g.facts r.facts
    quarantined := restoreEntries g.quarantined r.quarantined
    quarantineMissing := restoreEntries g.quarantineMissing r.quarantineMissing
    waitingByDependency := restoreEntries g.waitingByDependency r.waitingByDependency
    readyQuarantine := restoreMembers g.readyQuarantine r.readyQuarantine
    quarantinedByAuthor := restoreEntries g.quarantinedByAuthor r.quarantinedByAuthor
    retainedByAuthor := restoreEntries g.retainedByAuthor r.retainedByAuthor
    generation := r.generation
    factsRevision := r.factsRevision
    authorityProvenance := restoreEntries g.authorityProvenance r.authorityProvenance
    authorityHeadsIndex := restoreEntries g.authorityHeadsIndex r.authorityHeads
    cellHeadsIndex := restoreEntries g.cellHeadsIndex r.cellHeads }

variable [Platform]

/-- The cache a rollback leaves: the full projection when one was kept, else the
sparse inverse of the current one, accepted only under the captured root. -/
def restoredCache (r : GraphRollback) (g : FactGraph) (current : Option Projection) :
    Option (Nat × Projection) :=
  match r.projectionFull with
  | some projection => some (r.generation, projection)
  | none => do
      let (generation, root) ← r.projectionCacheFence
      let projection := (current.getD (Projection.fromGraph g)).restoreSparseEntries
        r.projectionSparse
      if projection.commitmentRoot = root then some (generation, projection) else none

/-- Put the captured rows and counters back, over rebuilt indexes. -/
def restore (r : GraphRollback) (g : FactGraph) : FactGraph :=
  let appendOnlyOrder := g.admissionOrder.take r.admissionOrderLen
  let current := g.projectionCache.map Prod.snd
  let rebuilt := (r.restoreRows { g with projectionCache := none }).rebuildIndexes
  let scalars :=
    { rebuilt with
      admissionOrder := appendOnlyOrder
      admittedBytes := r.admittedBytes
      admittedFactCount := r.admittedFactCount
      derivedIndexBytes := r.derivedIndexBytes
      quarantinedBytes := r.quarantinedBytes
      admittedDependencyEdges := r.admittedDependencyEdges
      quarantinedDependencyEdges := r.quarantinedDependencyEdges
      indexedFactCount := r.indexedFactCount
      indexedRevision := r.indexedRevision
      coldHistorySinceRetirement := r.coldHistorySinceRetirement
      stagedColdPending := r.stagedColdPending }
  -- A full snapshot is only kept for a cold overlay, whose rows are gone by now.
  let fenced :=
    if r.projectionFull.isSome then
      { scalars with
        indexedFactCount := scalars.facts.size
        indexedRevision := scalars.factsRevision }
    else scalars
  { fenced with projectionCache := r.restoredCache fenced current }

end GraphRollback

end MyOwnMesh.Semantic

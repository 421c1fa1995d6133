import MyOwnMesh.Semantic.Rollback
import MyOwnMesh.Semantic.Verdict

/-!
# Admission of one fact

The state transformer of a single admission. `GraphM` carries the graph through
an error, as a method on `&mut self` does: what was changed before the error
stays changed until a caller rolls it back. Reading the projection of the live
graph caches it, so the reads appear as state changes where they happen.
-/

namespace MyOwnMesh.Semantic

open Foundation

/-- A graph mutation that may fail and keeps the graph it leaves. -/
abbrev GraphM := ExceptT SemanticError (StateM FactGraph)

def GraphM.check {α : Type} (result : Except SemanticError α) : GraphM α :=
  ExceptT.mk (pure result)

def GraphM.refuseIf (condition : Prop) [Decidable condition] (error : SemanticError) :
    GraphM Unit :=
  if condition then throw error else pure ()

def GraphM.onlyIf (condition : Bool) (m : GraphM Unit) : GraphM Unit :=
  if condition then m else pure ()

/-- What an admission did. -/
inductive Admission where
  | inserted
  | alreadyPresent
  | quarantined (missing : List FactId)
deriving DecidableEq

namespace FactGraph

/-! ## Counters -/

def chargeAuthor (counts : OrdMap DeviceId (Nat × Nat)) (author : DeviceId) (bytes : Nat) :
    OrdMap DeviceId (Nat × Nat) :=
  let (facts, total) := counts.getD author (0, 0)
  counts.insert author (facts + 1, total + bytes)

/-- Release one fact of an author; an empty account is dropped. -/
def releaseCount (counts : OrdMap DeviceId (Nat × Nat)) (author : DeviceId) (bytes : Nat) :
    OrdMap DeviceId (Nat × Nat) :=
  match counts[author]? with
  | none => counts
  | some (facts, total) =>
    if facts - 1 = 0 then counts.erase author
    else counts.insert author (facts - 1, total - bytes)

def retainAuthor (g : FactGraph) (author : DeviceId) (cost : FactCost) : FactGraph :=
  { g with retainedByAuthor := chargeAuthor g.retainedByAuthor author cost.encodedBytes }

def releaseAuthor (g : FactGraph) (author : DeviceId) (cost : FactCost) : FactGraph :=
  { g with retainedByAuthor := releaseCount g.retainedByAuthor author cost.encodedBytes }

/-! ## Quarantine -/

/-- Remove a waiter from the waiting set of one dependency. -/
def dropWaiter (waiting : OrdMap FactId (OrdSet FactId)) (waiter dependency : FactId) :
    OrdMap FactId (OrdSet FactId) :=
  match waiting[dependency]? with
  | none => waiting
  | some waiters =>
    if (waiters.erase waiter).isEmpty then waiting.erase dependency
    else waiting.insert dependency (waiters.erase waiter)

/-- A waiter misses an available dependency no longer, and is ready when it
misses nothing else. -/
def wakeWaiter (dependency : FactId) (g : FactGraph) (waiter : FactId) : FactGraph :=
  match g.quarantineMissing[waiter]? with
  | none => g
  | some missing =>
    { g with
      quarantineMissing := g.quarantineMissing.insert waiter (missing.erase dependency)
      readyQuarantine :=
        if (missing.erase dependency).isEmpty then g.readyQuarantine.insert waiter
        else g.readyQuarantine }

/-- Wake the waiters of a newly available dependency. -/
def wakeDependency (g : FactGraph) (dependency : FactId) : FactGraph :=
  match g.waitingByDependency[dependency]? with
  | none => g
  | some waiters =>
    waiters.toList.foldl (wakeWaiter dependency)
      { g with waitingByDependency := g.waitingByDependency.erase dependency }

/-- Store a fact that waits for its missing dependencies. -/
def storeQuarantined (g : FactGraph) (fact : SignedFact) (cost : FactCost)
    (retainedReserved : Bool) : FactGraph :=
  let missing : OrdSet FactId := .ofList cost.missing compare
  let stored :=
    { g with
      waitingByDependency := missing.toList.foldl (fun waiting dependency =>
        addTo waiting dependency fact.id) g.waitingByDependency
      quarantineMissing := g.quarantineMissing.insert fact.id missing
      quarantinedByAuthor :=
        chargeAuthor g.quarantinedByAuthor fact.content.author cost.encodedBytes
      quarantinedBytes := g.quarantinedBytes + cost.encodedBytes
      quarantinedDependencyEdges := g.quarantinedDependencyEdges + cost.dependencyEdges
      quarantined := g.quarantined.insert fact.id fact }
  if retainedReserved then stored else stored.retainAuthor fact.content.author cost

/-- Take a quarantined fact and its index entries out. -/
def unstoreQuarantined (g : FactGraph) (fact : SignedFact) (id : FactId) (cost : FactCost) :
    FactGraph :=
  { g with
    quarantined := g.quarantined.erase id
    readyQuarantine := g.readyQuarantine.erase id
    quarantineMissing := g.quarantineMissing.erase id
    waitingByDependency := (g.quarantineMissing.getD id ∅).toList.foldl
      (fun waiting dependency => dropWaiter waiting id dependency) g.waitingByDependency
    quarantinedBytes := g.quarantinedBytes - cost.encodedBytes
    quarantinedDependencyEdges := g.quarantinedDependencyEdges - cost.dependencyEdges
    quarantinedByAuthor :=
      releaseCount g.quarantinedByAuthor fact.content.author cost.encodedBytes }

/-! ## Insertion -/

/-- Store an admitted fact and index it, before the projection is updated. -/
def storeAdmitted (g : FactGraph) (fact : SignedFact) (cost : FactCost)
    (provenance : AuthorityProvenance) : FactGraph :=
  let stored :=
    { g with
      admittedBytes := g.admittedBytes + cost.encodedBytes
      admittedDependencyEdges := g.admittedDependencyEdges + cost.dependencyEdges
      facts := g.facts.insert fact.id fact
      admittedFactCount := g.admittedFactCount + 1
      coldHistorySinceRetirement := min (g.coldHistorySinceRetirement + 1) u64Max
      admissionOrder := g.admissionOrder ++ [fact.id]
      factsRevision := g.factsRevision + 1
      generation := g.generation + 1
      authorityProvenance := g.authorityProvenance ∪ provenance }
  let indexed := stored.indexFact fact.id
  { indexed with
    indexedFactCount := indexed.facts.size
    indexedRevision := indexed.factsRevision }

variable [Platform]

/-- The projection after an insertion, from the one before it. -/
def updatedProjection (g : FactGraph) (previous : Projection) (impact : ProjectionImpact) :
    Projection :=
  if g.deferProjectionCommitment then
    Projection.updateFromGraphDeferredCommitment g previous impact.cells impact.subjects
  else Projection.updateFromGraph g previous impact.cells impact.subjects

end FactGraph

/-! ## The admission program -/

section Program

variable [Platform]

def observe : GraphM Unit := modify FactGraph.observed

/-- Read the projection of the graph a candidate is judged in. -/
def observeCausal (causal : CausalAdmissionGraph) : GraphM Unit :=
  if causal.borrowed then observe else pure ()

def validateDomain : GraphM Unit := do
  GraphM.refuseIf ((← get).policy = .open) .domainMismatch

/-- The no-op a candidate would be. Role and resolution operations are judged in
their own causal past, the others in the receiver's graph. -/
def semanticNoopForCandidate (fact : SignedFact) : GraphM (Option String) := do
  let g ← get
  if fact.content.body.noopInCausalPast then
    let causal ← GraphM.check (g.causalPast fact)
    observeCausal causal
    return causal.graph.semanticNoop fact.content.body
  else
    observe
    return g.semanticNoop fact.content.body

/-- A stored fact of the same identity: present, or a different body. -/
def screenExisting (fact : SignedFact) (stored : Facts) : GraphM Bool :=
  match stored[fact.id]? with
  | some existing => if existing = fact then pure true else throw (.duplicateFact fact.id)
  | none => pure false

/-- A candidate with all dependencies resident is no no-op. -/
def screenEffect (fact : SignedFact) : GraphM Unit := do
  let g ← get
  match ← semanticNoopForCandidate fact with
  | some operation => throw (.noOp operation)
  | none =>
    match fact.content.parents.find? fun parent => !g.facts.contains parent with
    | some parent => throw (.missingParent parent)
    | none => pure ()

/-- Cost and no-op checks of a fact that is not stored. -/
def screenFresh (fact : SignedFact) : GraphM FactCost := do
  let g ← get
  GraphM.refuseIf (fact.content.parents.contains fact.id) .selfParent
  let cost ← GraphM.check (g.factCost fact)
  GraphM.onlyIf cost.missing.isEmpty (screenEffect fact)
  return cost

/-- Identity, cost and no-op checks; `none` when the fact is already stored. -/
def screenFact (fact : SignedFact) : GraphM (Option FactCost) := do
  let g ← get
  GraphM.check fact.verify
  GraphM.refuseIf (fact.content.meshContext ≠ g.contextId)
    (.contextMismatch g.contextId fact.content.meshContext)
  validateDomain
  if ← screenExisting fact g.facts then
    return none
  else if ← screenExisting fact g.quarantined then
    return none
  else
    return some (← screenFresh fact)

/-- Only a currently authorized signer may wait in quarantine. -/
def checkQuarantineSigner (fact : SignedFact) : GraphM Unit := do
  let g ← get
  observe
  GraphM.refuseIf (g.isAuthorizedSigner fact.content.author = false) .quarantineSignerNotEligible

/-- Quarantine a fact of a currently eligible signer. -/
def admitQuarantined (fact : SignedFact) (cost : FactCost) (retainedReserved : Bool) :
    GraphM Admission := do
  checkQuarantineSigner fact
  GraphM.check ((← get).reserveQuarantine fact cost retainedReserved)
  modify fun g => g.storeQuarantined fact cost retainedReserved
  return .quarantined (Std.ExtTreeSet.ofList cost.missing compare).toList

/-- Judge a candidate whose dependencies are all resident. -/
def judge (fact : SignedFact) : GraphM Unit := do
  let g ← get
  let causal ← GraphM.check (g.causalPast fact)
  GraphM.check (causal.graph.lineageVerdict fact)
  GraphM.onlyIf fact.content.body.readsProjection (observeCausal causal)
  GraphM.check (causal.graph.authorityVerdict fact)

/-- The projection an insertion updates: the supplied one, or the cached one
taken out. -/
def takePreviousProjection : Option Projection → GraphM Projection
  | some projection => pure projection
  | none => do
      let g ← get
      modify fun g => { g with projectionCache := none }
      return g.projectionForUpdate

/-- Update the projection of a stored candidate within the database envelope. -/
def updateStoredProjection (fact : SignedFact) (previous : Projection)
    (stagedCold : List FactId) : GraphM Unit := do
  let g ← get
  let impact := g.projectionImpactForFact fact stagedCold
  let projection := g.updatedProjection previous impact
  let resident := g.admittedBytes + g.derivedIndexBytes + projection.commitmentBytes
  GraphM.refuseIf (resident > u64Max) g.accountingError
  GraphM.check (g.checkDatabaseBytes resident)
  modify fun g => { g with projectionCache := some (g.generation, projection) }

/-- Insert a judged candidate, update the projection and wake its waiters. -/
def insertJudged (fact : SignedFact) (cost : FactCost) (retainedReserved : Bool)
    (suppliedPreviousProjection : Option Projection) (stagedCold : List FactId) :
    GraphM Unit := do
  let g ← get
  let exactIndexDelta ← GraphM.check (g.exactIndexResidencyDelta fact)
  let provenance ← GraphM.check (g.plannedProvenance fact)
  GraphM.check (g.reserveAdmitted fact cost retainedReserved)
  let previous ← takePreviousProjection suppliedPreviousProjection
  modify fun g => g.storeAdmitted fact cost provenance
  let stored ← get
  let derivedIndexBytes ← GraphM.check
    (stored.applyIndexResidencyDelta stored.derivedIndexBytes exactIndexDelta)
  modify fun g => { g with derivedIndexBytes }
  updateStoredProjection fact previous stagedCold
  GraphM.onlyIf (!retainedReserved) (modify fun g => g.retainAuthor fact.content.author cost)
  modify fun g => g.wakeDependency fact.id

/-- The cost of a candidate. A validated cost comes from a preflight against the
same graph and skips the screening. -/
def screenedCost (fact : SignedFact) : Option FactCost → GraphM (Option FactCost)
  | some cost => pure (some cost)
  | none => screenFact fact

/-- Admit, quarantine or refuse one fact. -/
def admitInnerWithProjectionStaged (fact : SignedFact) (retainedReserved : Bool)
    (suppliedPreviousProjection : Option Projection) (validatedCost : Option FactCost)
    (stagedCold : List FactId) : GraphM Admission := do
  modify FactGraph.ensureIndexesCurrent
  match ← screenedCost fact validatedCost with
  | none => return .alreadyPresent
  | some cost =>
    if cost.missing.isEmpty then
      judge fact
      insertJudged fact cost retainedReserved suppliedPreviousProjection stagedCold
      return .inserted
    else
      GraphM.onlyIf validatedCost.isNone (checkQuarantineSigner fact)
      admitQuarantined fact cost retainedReserved

/-- The admission without a supplied projection or validated cost. -/
def admitInnerWithStaged (fact : SignedFact) (retainedReserved : Bool)
    (stagedCold : List FactId) : GraphM Admission :=
  admitInnerWithProjectionStaged fact retainedReserved none none stagedCold

def admitInner (fact : SignedFact) (retainedReserved : Bool) : GraphM Admission :=
  admitInnerWithStaged fact retainedReserved []

/-- Undo a failed mutation. -/
def restoreOnError {α : Type} (rollback : GraphRollback) (m : GraphM α) : GraphM α :=
  tryCatch m fun error => do
    modify rollback.restore
    throw error

/-- Admit one fact; an error leaves the rolled back graph. -/
def admitFact (fact : SignedFact) : GraphM Admission := do
  modify FactGraph.ensureIndexesCurrent
  let g ← get
  restoreOnError ((GraphRollback.new g).captureAdmission g fact) (admitInner fact false)

/-- Take a quarantined fact out; an unknown identity only leaves the ready set. -/
def removeQuarantine (id : FactId) : GraphM (Option SignedFact) := do
  let g ← get
  match g.quarantined[id]? with
  | none => do
      modify fun g => { g with readyQuarantine := g.readyQuarantine.erase id }
      return none
  | some stored => do
      let cost ← GraphM.check (g.factCost stored)
      modify fun g => g.unstoreQuarantined stored id cost
      return some stored

end Program

end MyOwnMesh.Semantic

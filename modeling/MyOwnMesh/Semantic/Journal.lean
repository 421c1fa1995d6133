import MyOwnMesh.Semantic.Admission
import MyOwnMesh.Semantic.Retirement

/-!
# Journaled admission

Admission behind a durable handoff: a read-only preflight, an apply phase that
also retries the waiters it wakes, and a journal that is committed or rolled
back. A batch applies its inputs in order inside one journal; a refused input
leaves the earlier ones alone.
-/

namespace MyOwnMesh.Semantic

open Foundation

/-! ## Retrying woken waiters -/

/-- The state of a bounded retry: the graph, the caller's rollback record, the
spent budget, the identities retried and those already taken up. -/
structure RetryState where
  graph : FactGraph
  rollback : GraphRollback
  budget : Nat
  retryIds : List FactId
  processed : OrdSet FactId

/-- A retry step; like `GraphM` it keeps its state through an error. -/
abbrev RetryM := ExceptT SemanticError (StateM RetryState)

/-- Run a graph mutation on the graph of a retry. -/
def RetryM.onGraph {α : Type} (m : GraphM α) : RetryM α := do
  let state ← get
  let (result, graph) := (m.run).run state.graph
  set { state with graph }
  ExceptT.mk (pure result)

/-- Run a mutation and hand its error to the caller; the graph stays as left. -/
def GraphM.attempt {α : Type} (m : GraphM α) : GraphM (Except SemanticError α) :=
  ExceptT.mk do
    let result ← m.run
    pure (.ok result)

/-- Extend the rollback record from the current graph. -/
def RetryM.capture (f : GraphRollback → FactGraph → GraphRollback) : RetryM Unit :=
  modify fun state => { state with rollback := f state.rollback state.graph }

/-- An authorization refusal of a waiter whose dependencies are all resident. -/
def isTerminalAuthorizationWaiter (g : FactGraph) (body : FactBody)
    (candidateDependencies : List FactId) (error : SemanticError) : Bool :=
  (candidateDependencies.all fun dependency => g.facts.contains dependency) &&
  (match error with
    | .unauthorizedRoleGrant | .unauthorizedMembershipAdmit | .unauthorizedAttestation
    | .unauthorizedEviction => true
    | _ => false) &&
  (match body with
    | .selfStandDown .. => false
    | _ => true)

/-- The refusals that drop a waiter and keep the fact that woke it. -/
def isTerminalWaiterError (g : FactGraph) (body : FactBody)
    (candidateDependencies : List FactId) (error : SemanticError) : Bool :=
  (match error with
    | .unsupportedVersion _ | .emptyField _ | .domainMismatch | .unsortedParents
    | .duplicateParent | .authorMismatch | .nonCanonicalSet _ | .incompleteEvictionProof
    | .factIdMismatch | .invalidSignature | .invalidStandDownProof | .invalidAuthorityUse => true
    | _ => false) ||
  isTerminalAuthorizationWaiter g body candidateDependencies error

section Retry

variable [Platform]

/-- Capture what promoting or dropping one waiter may touch. -/
def captureWaiter (fact : SignedFact) (id : FactId) (r : GraphRollback) (g : FactGraph) :
    GraphRollback :=
  fact.dependencies.foldl (fun r dependency => r.captureDependency g dependency)
    ((r.captureAuthor g fact.content.author).captureDependency g id)

/-- Admit a waiter that was taken out of quarantine; `isTerminal` says which
refusals only drop the waiter. -/
def promoteWaiter (isTerminal : FactGraph → FactBody → List FactId → SemanticError → Bool)
    (stagedCold : List FactId) (fact : SignedFact) (cost : FactCost) : GraphM Unit :=
  tryCatch (do let _ ← admitInnerWithStaged fact true stagedCold) fun error => do
    if isTerminal (← get) fact.content.body fact.dependencies error then
      modify fun g => g.releaseAuthor fact.content.author cost
    else throw error

/-- One waiter's turn: withdraw it, recompute its cost and admit it. -/
def retryOne (stagedCold : List FactId) (id : FactId) : RetryM Unit := do
  let state ← get
  if state.processed.contains id then
    return
  set { state with processed := state.processed.insert id, budget := state.budget + 1 }
  RetryM.capture fun r g => r.captureFact g id
  match (← get).graph.quarantined[id]? with
  | none =>
    RetryM.onGraph (modify fun g => { g with readyQuarantine := g.readyQuarantine.erase id })
  | some fact => do
      RetryM.capture (captureWaiter fact id)
      match ← RetryM.onGraph (removeQuarantine id) with
      | none => return
      | some fact => do
          let cost ← RetryM.onGraph do GraphM.check ((← get).factCost fact)
          RetryM.onGraph (promoteWaiter isTerminalWaiterError stagedCold fact cost)
          modify fun state => { state with retryIds := state.retryIds ++ [id] }

/-- Rounds over the ready waiters not taken up yet, within the batch limit. Each
round spends budget, so the remaining budget bounds the rounds. -/
def retryRounds (batchLimit : Nat) (stagedCold : List FactId) : Nat → RetryM Unit
  | 0 => pure ()
  | fuel + 1 => do
      let state ← get
      let fresh := state.graph.readyQuarantine.toList.filter fun id =>
        !state.processed.contains id
      let ready := fresh.take (batchLimit - state.budget)
      if ready.isEmpty then
        if fresh.isEmpty then
          return
        throw (.capacityExceeded .readyBatch batchLimit (min (state.budget + 1) u64Max))
      ready.forM (retryOne stagedCold)
      retryRounds batchLimit stagedCold fuel

/-- Retry the ready waiters to a fixed point within one cumulative budget. -/
def retryQuarantinedBatchBounded (batchLimit : Nat) (stagedCold : List FactId) : RetryM Unit := do
  modify fun state => { state with processed := ∅ }
  retryRounds batchLimit stagedCold (batchLimit - (← get).budget + 1)

/-- Take up one ready waiter of an unbounded retry. A refused waiter is dropped;
the first refusal that is no authorization verdict is remembered. -/
def retryReady (acc : List FactId × Option SemanticError) (id : FactId) :
    RetryM (List FactId × Option SemanticError) := do
  RetryM.capture fun r g => r.captureFact g id
  if let some fact := (← get).graph.quarantined[id]? then
    RetryM.capture (captureWaiter fact id)
  match ← RetryM.onGraph (removeQuarantine id) with
  | none => return acc
  | some fact => do
      let cost ← RetryM.onGraph do GraphM.check ((← get).factCost fact)
      match ← RetryM.onGraph (admitInner fact true).attempt with
      | .ok .inserted => return (acc.1 ++ [id], acc.2)
      | .ok _ => return acc
      | .error error => do
          let terminal := isTerminalAuthorizationWaiter (← get).graph fact.content.body
            fact.dependencies error
          RetryM.onGraph (modify fun g => g.releaseAuthor fact.content.author cost)
          return if terminal then acc else (acc.1, acc.2.or (some error))

/-- Rounds of at most one ready batch, until nothing is ready. -/
def retryAllRounds (batchLimit : Nat) :
    Nat → List FactId × Option SemanticError → RetryM (List FactId × Option SemanticError)
  | 0, acc => pure acc
  | fuel + 1, acc => do
      let ready := (← get).graph.readyQuarantine.toList.take batchLimit
      if ready.isEmpty then
        return acc
      let acc ← ready.foldlM retryReady acc
      retryAllRounds batchLimit fuel acc

/-- A round either takes a waiter out of quarantine for good or shrinks the ready
set, which bounds the rounds. -/
def retryAllFuel (g : FactGraph) : Nat :=
  (g.quarantined.size + 1) * (g.quarantined.size + g.readyQuarantine.size + 1)

/-- Rounds until no waiter is ready; the first error ends them. -/
def retryQuarantinedInner : RetryM (List FactId) := do
  let g := (← get).graph
  let batchLimit := g.policyLimits.maxReadyBatch
  if batchLimit = 0 then
    throw (.capacityExceeded .readyBatch 0 1)
  match ← retryAllRounds batchLimit (retryAllFuel g) ([], none) with
  | (inserted, none) => return inserted
  | (_, some error) => throw error

/-- Retry every ready waiter; an error undoes all of it. -/
def retryQuarantined : GraphM (List FactId) := do
  modify FactGraph.ensureIndexesCurrent
  let g ← get
  let (result, state) := retryQuarantinedInner.run.run
    { graph := g, rollback := GraphRollback.new g, budget := 0, retryIds := [], processed := ∅ }
  match result with
  | .ok inserted => do
      set state.graph
      return inserted
  | .error error => do
      set (state.rollback.restore state.graph)
      throw error

end Retry

/-! ## Journals -/

inductive SemanticFactStatus where
  | admitted
  | quarantined
deriving DecidableEq

/-- A row to be written to the store. -/
structure SemanticFactRow where
  fact : SignedFact
  status : SemanticFactStatus
deriving DecidableEq

/-- What a mutation did to the rows and to the projection. -/
structure SemanticDelta where
  rows : List SemanticFactRow
  promoted : List FactId
  removed : List FactId
  provisionalAdded : List FactId
  provisionalRemoved : List FactId
  affected : ProjectionImpact
  projectionDelta : Option ProjectionDelta

namespace SemanticDelta

def empty : SemanticDelta where
  rows := []
  promoted := []
  removed := []
  provisionalAdded := []
  provisionalRemoved := []
  affected := .empty
  projectionDelta := none

def changedIds (delta : SemanticDelta) : List FactId :=
  delta.rows.map (fun row => row.fact.id) ++ delta.removed

/-- No identity twice, and no more rows than the owner's batch allows. -/
def isBoundedAndUnique (delta : SemanticDelta) (maxReadyBatch : Nat) : Bool :=
  let unique (ids : List FactId) : Bool := (sortDedup ids).length == ids.length
  unique (delta.rows.map fun row => row.fact.id) &&
  unique delta.promoted && unique delta.removed &&
  unique delta.provisionalAdded && unique delta.provisionalRemoved &&
  delta.rows.length ≤ min (maxReadyBatch + 1) u64Max &&
  delta.promoted.length ≤ maxReadyBatch && delta.removed.length ≤ maxReadyBatch

end SemanticDelta

/-- A checked candidate, fenced to the graph it was checked in. -/
structure AdmissionPreflight where
  admission : Admission
  cost : Option FactCost
  factId : FactId
  contentId : FactId
  signature : String
  factsRevision : Nat
  generation : Nat

/-- A mutation that is committed or rolled back. -/
structure AdmissionJournal where
  rollback : Option GraphRollback
  stagedCold : List FactId
  delta : SemanticDelta
  admission : Admission

section Journal

variable [Platform]

namespace AdmissionJournal

/-- Keep the mutation; hydrated history is retired again. -/
def commit (journal : AdmissionJournal) (g : FactGraph) : FactGraph :=
  if journal.stagedCold.isEmpty then g else g.retireColdHistory

/-- Undo the mutation, explicitly or by dropping the journal. -/
def undo (journal : AdmissionJournal) (g : FactGraph) : FactGraph :=
  let released := g.removeStagedCold journal.stagedCold
  match journal.rollback with
  | some rollback => rollback.restore released
  | none => released

end AdmissionJournal

namespace AdmissionPreflight

/-- What the preflight saw, to be compared when it is used. -/
def new (g : FactGraph) (fact : SignedFact) (admission : Admission) (cost : Option FactCost) :
    AdmissionPreflight where
  admission
  cost
  factId := fact.id
  contentId := FactId.fromContent fact.content
  signature := fact.signature
  factsRevision := g.factsRevision
  generation := g.generation

/-- The preflight is of this fact and of the graph as it still is. -/
def validateFor (preflight : AdmissionPreflight) (g : FactGraph) (fact : SignedFact) :
    Except SemanticError Unit :=
  if preflight.factId ≠ fact.id ∨ preflight.contentId ≠ FactId.fromContent fact.content ∨
      preflight.signature ≠ fact.signature ∨ preflight.factsRevision ≠ g.factsRevision ∨
      preflight.generation ≠ g.generation then
    .error (.noOp "stale admission preflight")
  else .ok ()

end AdmissionPreflight

/-- The checks that need no tentative mutation. -/
def preflightAdmission (fact : SignedFact) : GraphM AdmissionPreflight := do
  GraphM.refuseIf ((← get).indexesCurrent = false) (.noOp "stale semantic index")
  match ← screenFact fact with
  | none => return .new (← get) fact .alreadyPresent none
  | some cost =>
    let g ← get
    if cost.missing.isEmpty then
      GraphM.check (g.reserveAdmitted fact cost false)
      return .new g fact .inserted (some cost)
    else
      checkQuarantineSigner fact
      GraphM.check (g.reserveQuarantine fact cost false)
      return .new g fact (.quarantined cost.missing) (some cost)

/-- The rollback record of an apply phase, before the graph is touched. -/
def applyRollback (g : FactGraph) (fact : SignedFact) (cost : FactCost)
    (entries : SparseEntries) (stagedCold : List FactId)
    (rollbackProjection : Option Projection) : GraphRollback :=
  let r := GraphRollback.new g
  -- Single-fact hydration stages its rows before this record is made.
  let r :=
    if rollbackProjection.isSome && !stagedCold.isEmpty then
      { r with stagedColdPending := r.stagedColdPending - stagedCold.length }
    else r
  let r :=
    match rollbackProjection with
    | some projection => r.captureProjectionFull g.generation projection
    | none => r
  let r := r.captureWaiterClosure { g with projectionCache := none }
    (g.readyQuarantine.toList ++ [fact.id])
  let r := (((r.captureProjectionSparse entries).captureFact g fact.id)
    |>.captureProvenanceAdmission g fact).captureAuthor g fact.content.author
  if cost.missing.isEmpty then r.captureDependency g fact.id
  else cost.missing.foldl (fun r dependency => r.captureDependency g dependency) r

/-- The projection entries an apply phase and its retries may change. -/
def potentialImpact (g : FactGraph) (fact : SignedFact) (stagedForImpact : List FactId) :
    ProjectionImpact :=
  (GraphRollback.waiterClosure g (g.readyQuarantine.toList ++ [fact.id])).foldl
    (fun impact id =>
      match g.quarantined[id]? with
      | some waiter => impact.union (g.projectionImpactForFact waiter stagedForImpact)
      | none => impact) (g.projectionImpactForFact fact stagedForImpact)

/-- The projection delta of the current cached projection. -/
def FactGraph.projectionDeltaFromSparse (g : FactGraph) (baseGeneration : Nat)
    (baseCommitment : Digest) (previous : SparseEntries) : ProjectionDelta :=
  (g.cachedProjection.getD (Projection.fromGraph g)).deltaFromSparse baseGeneration g.generation
    baseCommitment previous

/-- The durable delta of one applied candidate and its retried waiters. -/
def applyDelta (g : FactGraph) (factId : FactId) (admission : Admission)
    (retryIds stagedForImpact : List FactId) (baseGeneration : Nat) (baseCommitment : Digest)
    (previous : SparseEntries) : SemanticDelta :=
  let own : List SemanticFactRow :=
    match admission, g.facts[factId]?, g.quarantined[factId]? with
    | .alreadyPresent, _, _ => []
    | _, some fact, _ => [{ fact, status := .admitted }]
    | _, none, some fact => [{ fact, status := .quarantined }]
    | _, none, none => []
  let retried := retryIds.filterMap fun id =>
    g.facts[id]?.map fun fact => ({ fact, status := .admitted } : SemanticFactRow)
  let promoted := retryIds.filter fun id => g.facts.contains id
  let removed := retryIds.filter fun id => !g.facts.contains id
  let rows := own ++ retried
  let admitted := rows.filter fun row => row.status == .admitted
  { rows
    promoted
    removed
    provisionalAdded := match admission with
      | .quarantined _ => [factId]
      | _ => []
    provisionalRemoved := retryIds
    affected := g.projectionImpactForFacts (admitted.map fun row => row.fact.id) stagedForImpact
    projectionDelta :=
      if admitted.isEmpty then none
      else some (g.projectionDeltaFromSparse baseGeneration baseCommitment previous) }

/-- Release an overlay and undo a failed apply phase. -/
def failApply {α : Type} (rollback : GraphRollback) (stagedCold : List FactId)
    (error : SemanticError) : GraphM α := do
  modify fun g => rollback.restore (g.removeStagedCold stagedCold)
  throw error

/-- The journal of a candidate that was already stored: only an overlay is
released. -/
def alreadyPresentJournal (g : FactGraph) (stagedCold : List FactId) : AdmissionJournal where
  rollback :=
    if stagedCold.isEmpty then none
    else
      let r := GraphRollback.new g
      some (GraphRollback.captureStagedAbsence
        { r with
          stagedColdPending := r.stagedColdPending - stagedCold.length
          indexedFactCount := g.indexedFactCount - stagedCold.length } stagedCold)
  stagedCold
  delta := .empty
  admission := .alreadyPresent

/-- Apply a preflighted candidate, retry the waiters it wakes and keep the
journal. The second component of the result is the spent retry budget. -/
def applyPreflightJournaled (fact : SignedFact) (preflight : AdmissionPreflight)
    (stagedCold : List FactId) (rollbackProjection : Option Projection)
    (impactStagedCold : Option (List FactId)) (retryBudget : Nat) :
    GraphM (AdmissionJournal × Nat) := do
  modify FactGraph.ensureIndexesCurrent
  let stagedForImpact := impactStagedCold.getD stagedCold
  let g ← get
  GraphM.check (preflight.validateFor g fact)
  match preflight.admission, preflight.cost with
  | .alreadyPresent, _ | _, none => return (alreadyPresentJournal g stagedCold, retryBudget)
  | _, some cost => do
      let previous := g.projectionForUpdate
      modify fun g => { g with projectionCache := none }
      let impact := potentialImpact g fact stagedForImpact
      let entries := previous.sparseEntries impact.cells impact.subjects
      let rollback := applyRollback g fact cost entries stagedCold rollbackProjection
      let batchLimit := g.policyLimits.maxReadyBatch
      let admission ← tryCatch
        (admitInnerWithProjectionStaged fact false (some previous) (some cost) stagedForImpact)
        (failApply rollback stagedCold)
      let (rollback, retryIds, retryBudget) ←
        if admission = .inserted then do
          if batchLimit = 0 then
            failApply rollback stagedCold (.capacityExceeded .readyBatch 0 1)
          let (result, state) := (retryQuarantinedBatchBounded batchLimit stagedForImpact).run.run
            { graph := ← get, rollback, budget := retryBudget, retryIds := [], processed := ∅ }
          set state.graph
          match result with
          | .ok () => pure (state.rollback, state.retryIds, state.budget)
          | .error error => failApply state.rollback stagedCold error
        else pure (rollback, [], retryBudget)
      let after ← get
      let delta := applyDelta after fact.id admission retryIds stagedForImpact g.generation
        previous.commitmentRoot entries
      if !delta.isBoundedAndUnique batchLimit then
        failApply rollback stagedCold
          (.capacityExceeded .readyBatch batchLimit delta.rows.length)
      return ({ rollback := some rollback, stagedCold, delta, admission }, retryBudget)

def admitJournaled (fact : SignedFact) : GraphM AdmissionJournal := do
  let preflight ← preflightAdmission fact
  let (journal, _) ← applyPreflightJournaled fact preflight [] none none 0
  return journal

/-- Stage a closure, or undo and refuse. -/
def stageOrRestore (rollback : GraphRollback) (history : List SignedFact) :
    GraphM (List FactId) := do
  let (result, staged) := (← get).stageColdHistory history
  set staged
  match result with
  | .ok stagedCold => return stagedCold
  | .error error => do
      modify rollback.restore
      throw error

end Journal

end MyOwnMesh.Semantic

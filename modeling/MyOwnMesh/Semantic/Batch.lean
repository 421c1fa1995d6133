import MyOwnMesh.Semantic.Journal

/-!
# Aggregate admission

A bounded group of inputs behind one durable handoff. Each input is preflighted
and applied against the graph the earlier ones left; a refusal is recorded and
the group goes on, an exhausted capacity gives the whole group up. The Merkle
commitment is rebuilt once, when every input has been applied.
-/

namespace MyOwnMesh.Semantic

open Foundation

/-- What became of one fact of a group. -/
inductive AggregateAdmissionOutcome where
  | inserted (factId : FactId)
  | alreadyPresent (factId : FactId)
  | quarantined (factId : FactId) (missing : List FactId)
  | refused (factId : FactId) (error : SemanticError)
deriving DecidableEq

/-- The outcome of an applied input. -/
def AggregateAdmissionOutcome.ofAdmission (factId : FactId) :
    Admission → AggregateAdmissionOutcome
  | .inserted => .inserted factId
  | .alreadyPresent => .alreadyPresent factId
  | .quarantined missing => .quarantined factId missing

/-- One group mutation that is committed or rolled back. -/
structure AggregateAdmissionJournal where
  rollback : Option GraphRollback
  stagedCold : List FactId
  results : List AggregateAdmissionOutcome
  delta : SemanticDelta

/-- What a group carries from input to input. -/
structure AggregateState where
  rollback : GraphRollback
  results : List AggregateAdmissionOutcome
  touchedIds : OrdSet FactId
  affected : ProjectionImpact
  retryBudget : Nat

/-- The refusals that give the whole group up. -/
def isAggregatePrecommitFailure : SemanticError → Bool
  | .capacityExceeded .. => true
  | _ => false

section Aggregate

variable [Platform]

namespace AggregateAdmissionJournal

/-- Keep the mutation; hydrated history is retired again. -/
def commit (journal : AggregateAdmissionJournal) (g : FactGraph) : FactGraph :=
  if journal.stagedCold.isEmpty then g else g.retireColdHistory

/-- Undo the mutation, explicitly or by dropping the journal. -/
def undo (journal : AggregateAdmissionJournal) (g : FactGraph) : FactGraph :=
  let released := g.removeStagedCold journal.stagedCold
  match journal.rollback with
  | some rollback => rollback.restore released
  | none => released

end AggregateAdmissionJournal

def FactGraph.beginDeferredProjectionCommitment (g : FactGraph) : FactGraph :=
  { g with deferProjectionCommitment := true }

/-- Commit to the projection once for the whole group. -/
def FactGraph.finishDeferredProjectionCommitment (g : FactGraph) : FactGraph :=
  { g with
    deferProjectionCommitment := false
    projectionCache := g.projectionCache.map fun (generation, projection) =>
      (generation, projection.rebuildCommitment) }

/-- Apply one preflighted input and keep its mutation. A refusal does not spend
retry budget. -/
def applyPreflightForAggregate (fact : SignedFact) (preflight : AdmissionPreflight)
    (stagedCold : List FactId) (retryBudget : Nat) :
    GraphM (Admission × SemanticDelta × Nat) := do
  let (journal, retryBudget) ←
    applyPreflightJournaled fact preflight [] none (some stagedCold) retryBudget
  let g ← get
  let affected := journal.delta.affected.union
    (g.projectionImpactForFacts journal.delta.changedIds stagedCold)
  modify journal.commit
  return (journal.admission, { journal.delta with affected }, retryBudget)

/-- Give a group up inside its deferred interval. -/
def abortAggregate {α : Type} (rollback : GraphRollback) (stagedCold : List FactId)
    (error : SemanticError) : GraphM α := do
  modify FactGraph.finishDeferredProjectionCommitment
  failApply rollback stagedCold error

/-- Record a refused input, or give the group up. -/
def refuseInput (stagedCold : List FactId) (state : AggregateState) (factId : FactId)
    (error : SemanticError) : GraphM AggregateState :=
  if isAggregatePrecommitFailure error then abortAggregate state.rollback stagedCold error
  else pure { state with results := state.results ++ [.refused factId error] }

/-- One input of a grouped admission; a refusal stays with its input. -/
def aggregateInput (stagedCold : List FactId) (state : AggregateState) (fact : SignedFact) :
    GraphM AggregateState := do
  match ← (preflightAdmission fact).attempt with
  | .error error => refuseInput stagedCold state fact.id error
  | .ok preflight => do
      if preflight.admission = .alreadyPresent then
        return { state with results := state.results ++ [.alreadyPresent fact.id] }
      let g ← get
      let state :=
        { state with
          rollback := (state.rollback.captureAdmission g fact).captureWaiterClosure g [fact.id] }
      match ← (applyPreflightForAggregate fact preflight stagedCold state.retryBudget).attempt with
      | .error error => refuseInput stagedCold state fact.id error
      | .ok (admission, delta, retryBudget) =>
        return { state with
          results := state.results ++ [.ofAdmission fact.id admission]
          touchedIds := delta.changedIds.foldl (fun ids id => ids.insert id) state.touchedIds
          affected := state.affected.union delta.affected
          retryBudget }

/-- The projection entries a group and its retries may change. -/
def plannedImpact (g : FactGraph) (facts : List SignedFact) (stagedCold : List FactId) :
    ProjectionImpact :=
  let ready := g.readyQuarantine.toList
  let closure := GraphRollback.waiterClosure g (facts.map SignedFact.id ++ ready)
  let waiting := (ready ++ closure.flatMap (GraphRollback.waitersOf g)).filterMap fun id =>
    g.quarantined[id]?
  (facts ++ waiting).foldl (fun impact fact =>
    impact.union (g.projectionImpactForFact fact stagedCold)) .empty

/-- The touched rows in their final resident state, against the captured base. -/
def aggregateDelta (g : FactGraph) (state : AggregateState) : SemanticDelta :=
  let touched := state.touchedIds.toList
  let baseAdmitted (id : FactId) : Bool := (state.rollback.facts[id]?.join).isSome
  let baseQuarantined (id : FactId) : Bool := (state.rollback.quarantined[id]?.join).isSome
  { SemanticDelta.empty with
    rows := touched.filterMap fun id =>
      match g.facts[id]?, g.quarantined[id]? with
      | some fact, _ => some { fact, status := .admitted }
      | none, some fact => some { fact, status := .quarantined }
      | none, none => none
    promoted := touched.filter fun id => baseQuarantined id && g.facts.contains id
    removed := touched.filter fun id =>
      (baseAdmitted id || baseQuarantined id) && !g.facts.contains id && !g.quarantined.contains id
    provisionalAdded := touched.filter fun id => !baseQuarantined id && g.quarantined.contains id
    provisionalRemoved := touched.filter fun id => baseQuarantined id && !g.quarantined.contains id
    affected := state.affected }

/-- Admit a bounded group behind one journal. -/
def admitJournaledBatchWithHistory (facts history : List SignedFact) :
    GraphM AggregateAdmissionJournal := do
  modify FactGraph.ensureIndexesCurrent
  let batchLimit := (← get).policyLimits.maxReadyBatch
  if facts.length > batchLimit then
    throw (.capacityExceeded .readyBatch batchLimit facts.length)
  let rollbackProjection := (← get).projection
  if !history.isEmpty then
    observe
  let g ← get
  let rollback :=
    if history.isEmpty then GraphRollback.new g
    else (GraphRollback.new g).captureProjectionFull g.generation rollbackProjection
  let stagedCold ← stageOrRestore rollback history
  let g ← get
  let base := g.projection
  observe
  let impact := plannedImpact g facts stagedCold
  let entries := base.sparseEntries impact.cells impact.subjects
  let rollback := (rollback.captureProjectionSparse entries).captureWaiterClosure g
    g.readyQuarantine.toList
  modify FactGraph.beginDeferredProjectionCommitment
  let state ← facts.foldlM (aggregateInput stagedCold)
    { rollback, results := [], touchedIds := ∅, affected := .empty, retryBudget := 0 }
  modify FactGraph.finishDeferredProjectionCommitment
  let delta := aggregateDelta (← get) state
  let current := (← get).projection
  observe
  let projectionDelta := current.deltaFromSparse g.generation (← get).generation
    base.commitmentRoot entries
  let changed : Bool := current.commitmentRoot ≠ base.commitmentRoot
  if changed && projectionDelta.cells.isEmpty && projectionDelta.standDown.isEmpty then
    failApply state.rollback stagedCold (.noOp "aggregate projection impact incomplete")
  let delta :=
    { delta with projectionDelta := if changed then some projectionDelta else none }
  if !delta.isBoundedAndUnique batchLimit then
    failApply state.rollback stagedCold
      (.capacityExceeded .readyBatch batchLimit delta.rows.length)
  return { rollback := some state.rollback, stagedCold, results := state.results, delta }

end Aggregate

end MyOwnMesh.Semantic

import MyOwnMesh.Semantic.Indexes
import MyOwnMesh.Semantic.Project

/-!
# Causal pasts and the authority evaluator

The projection of a graph as its readers see it (cached while the cache carries
the current generation), the graph visible to a candidate, and the evaluator
that decides roles, memberships and authorizations from a projection.
-/

namespace MyOwnMesh.Semantic

open Foundation

/-- A graph with the projection its evaluator was built from. -/
structure SemanticEvaluator where
  graph : FactGraph
  projection : Projection

/-- The graph a candidate is judged in: the live graph borrowed as a whole, or
an owned causal closure. -/
structure CausalAdmissionGraph where
  graph : FactGraph
  borrowed : Bool

namespace FactGraph

/-- Whether a role operation carries every indexed head that can affect it. -/
def currentHeadsAreComplete (g : FactGraph) (fact : SignedFact) : Bool :=
  let parents := fact.content.parents
  g.indexesCurrent &&
  (match fact.content.body with
    | .roleGrant .. | .roleRevoke .. => true
    | _ => false) &&
  (fact.content.body.exclusiveCells.all fun cell =>
    (g.rawCellHeads cell).all fun head => parents.contains head) &&
  fact.useSubjects.all fun subject =>
    (g.rawAuthorityUseHeads subject).all fun head => parents.contains head

variable [Platform]

/-- The cached projection when its generation is current. -/
def cachedProjection (g : FactGraph) : Option Projection :=
  match g.projectionCache with
  | some (generation, projection) =>
    if generation = g.generation then some projection else none
  | none => none

def projection (g : FactGraph) : Projection :=
  if g.indexesCurrent then g.cachedProjection.getD (Projection.fromGraph g)
  else Projection.fromGraph g

/-- The graph after such a read: a fresh projection is cached. -/
def observed (g : FactGraph) : FactGraph :=
  if g.indexesCurrent && g.cachedProjection.isNone then
    { g with projectionCache := some (g.generation, Projection.fromGraph g) }
  else g

/-- The projection an update starts from, taken out of the cache. -/
def projectionForUpdate (g : FactGraph) : Projection :=
  g.cachedProjection.getD (Projection.fromGraph g)

def evaluator (g : FactGraph) : SemanticEvaluator := ⟨g, g.projection⟩

/-! ## The causal past -/

/-- The exact graph of a set of facts, indexed from scratch. -/
def scopedGraph (g : FactGraph) (ids : List FactId) : Except SemanticError FactGraph :=
  let causal :=
    { FactGraph.empty g.contextId g.authorityRoots g.policy g.policyLimits with
      facts := keepEntries (fun id _ => ids.contains id) g.facts }
  causal.rebuildIndexes.rebuildProvenanceChecked

/-- The graph visible to a candidate: its complete dependency closure, or the
live graph when the candidate carries all current heads or covers every fact. -/
def causalPast (g : FactGraph) (fact : SignedFact) :
    Except SemanticError CausalAdmissionGraph := do
  if g.currentHeadsAreComplete fact then
    return { graph := g, borrowed := true }
  let ids := traverse (dependenciesIn g.facts) g.facts.keys fact.dependencies
  match ids.find? fun id => !g.facts.contains id with
  | some missing => throw (.missingParent missing)
  | none =>
    if ids.length = g.facts.size then
      return { graph := g, borrowed := true }
    return { graph := ← g.scopedGraph ids, borrowed := false }

end FactGraph

/-! ## Evaluation -/

namespace SemanticEvaluator

/-- The role a projected role cell gives its subject. -/
def effectiveRole (e : SemanticEvaluator) (subject : DeviceId) : Option Role :=
  if e.projection.isStoodDown subject then none
  else if e.projection.isConflicted (.role subject) then none
  else
    match e.projection.value (.role subject) with
    | none => if e.graph.authorityRoots.contains subject then some .owner else none
    | some id => e.graph.facts[id]?.bind fun fact => fact.content.body.projectedRole subject

/-- The fact a cell projects to, when it advances that cell. -/
def projectedFact (e : SemanticEvaluator) (cell : ExclusiveCell) : Option SignedFact := do
  let id ← e.projection.value cell
  let fact ← e.graph.facts[id]?
  if fact.content.body.advancesCell cell then some fact else none

def effectiveMembership (e : SemanticEvaluator) (subject : DeviceId) : Option Bool :=
  (e.projectedFact (.membership subject)).bind fun fact =>
    fact.content.body.projectedMembership subject

def effectiveDecision (e : SemanticEvaluator) (proposal : FactId) :
    Option AttestationDecision :=
  (e.projectedFact (.decision proposal)).bind fun fact =>
    fact.content.body.projectedDecision proposal

/-- Whether an actual role covers a required tier. -/
def tierCovers : Role → Role → Bool
  | .owner, _ => true
  | .controller, .controller | .controller, .member => true
  | .member, .member => true
  | _, _ => false

/-- Whether the signer's effective role covers `required`. -/
def hasTier (e : SemanticEvaluator) (signer : DeviceId) (required : Role) : Bool :=
  e.graph.selectorProvenanceComplete signer &&
    match e.effectiveRole signer with
    | none => false
    | some actual => tierCovers actual required

/-- The tier that may act on a device of the given role. -/
def tierOver : Option Role → Role
  | some .owner => .owner
  | some .controller => .controller
  | some .member => .controller
  | none => .owner

def targetTier (e : SemanticEvaluator) (target : DeviceId) : Role :=
  tierOver (e.effectiveRole target)

def grantTier : Role → Role
  | .member | .controller => .controller
  | .owner => .owner

def maxTier (a b : Role) : Role := if a.rank ≤ b.rank then b else a

/-- The highest of some tiers. -/
def highestTier : List Role → Option Role
  | [] => none
  | tier :: tiers => some (tiers.foldl maxTier tier)

variable [Platform]

/-- The tier of one cited candidate, if it is one; `nestedTier` is that of a nested resolution. -/
def resolutionCandidateTier (e : SemanticEvaluator) (subject : DeviceId)
    (nestedTier : List FactId → OrdSet FactId → Option Role) (visited : OrdSet FactId)
    (head : FactId) : Option Role :=
  if visited.contains head then none
  else
    match e.graph.facts[head]? with
    | none => none
    | some fact =>
      match fact.content.body with
      | .roleGrant target role => if target = subject then some (grantTier role) else none
      | .roleRevoke target =>
        if target = subject then
          match e.graph.causalPast fact with
          | .ok causal => some (tierOver (causal.graph.evaluator.effectiveRole subject))
          | .error _ => none
        else none
      | .resolution nestedCell nestedHeads _ =>
        if nestedCell = .role subject then nestedTier nestedHeads (visited.insert head) else none
      | _ => none

/-- The highest tier among the cited candidates of a role cell. Each nesting
marks a resident fact, so the fact count bounds the depth. -/
def resolutionTierWithVisited (e : SemanticEvaluator) :
    Nat → ExclusiveCell → List FactId → OrdSet FactId → Role
  | _, .membership subject, _, _ => e.targetTier subject
  | _, .decision _, _, _ => .member
  | 0, .role subject, citedHeads, visited =>
    (highestTier (citedHeads.filterMap (e.resolutionCandidateTier subject (fun _ _ => none)
      visited))).getD (e.targetTier subject)
  | fuel + 1, .role subject, citedHeads, visited =>
    (highestTier (citedHeads.filterMap (e.resolutionCandidateTier subject
      (fun heads visited => some (e.resolutionTierWithVisited fuel (.role subject) heads visited))
      visited))).getD (e.targetTier subject)

def resolutionTier (e : SemanticEvaluator) (cell : ExclusiveCell) (citedHeads : List FactId) :
    Role :=
  e.resolutionTierWithVisited (e.graph.facts.size + 1) cell citedHeads ∅

/-- The tier an operation requires; a self-stand-down requires none. -/
def operationTier (e : SemanticEvaluator) : FactBody → Option Role
  | .roleGrant _ role => some (grantTier role)
  | .roleRevoke target | .evict target => some (e.targetTier target)
  | .evictionProof target _ => some (e.targetTier target)
  | .membershipAdmit _ => some .controller
  | .attestation .. => some .member
  | .resolution cell citedHeads _ => some (e.resolutionTier cell citedHeads)
  | .authorityLineageResolution subject citedHeads _ =>
    some (e.resolutionTier (.role subject) citedHeads)
  | .selfStandDown .. => none

/-- Whether an author may create an operation under the projected authority. -/
def authorizes (e : SemanticEvaluator) (author : DeviceId) (body : FactBody) : Bool :=
  match body with
  | .selfStandDown deviceId _ => author == deviceId
  | _ =>
    match e.operationTier body with
    | some required => e.hasTier author required
    | none => false

omit [Platform] in
def roleAdmits (e : SemanticEvaluator) (subject : DeviceId) : Bool :=
  (e.effectiveRole subject).isSome && (e.effectiveMembership subject).getD true

omit [Platform] in
/-- Session admission of two devices under the project policy. -/
def admitsClosedSession (e : SemanticEvaluator) (localDevice remote : DeviceId) : Bool :=
  match e.graph.policy with
  | .open => true
  | .closed =>
    (e.graph.authorityLineage localDevice).isSingular &&
    (e.graph.authorityLineage remote).isSingular &&
    e.roleAdmits localDevice && e.roleAdmits remote

end SemanticEvaluator

namespace FactGraph

variable [Platform]

def isAuthorizedSigner (g : FactGraph) (signer : DeviceId) : Bool :=
  (g.evaluator.effectiveRole signer).isSome

def isAuthorizedFor (g : FactGraph) (body : FactBody) (author : DeviceId) : Bool :=
  g.evaluator.authorizes author body

/-- The operation a body would repeat without effect. -/
def semanticNoop (g : FactGraph) (body : FactBody) : Option String :=
  let e := g.evaluator
  match body with
  | .roleGrant target role =>
    if e.effectiveRole target = some role then some "role grant already effective" else none
  | .roleRevoke target =>
    let absent :=
      match e.projection.roleCell target with
      | none => !g.authorityRoots.contains target
      | some (.conflict _) => false
      | some (.value id) =>
        (g.facts[id]?.bind fun fact => fact.content.body.projectedRole target).isNone
    if absent then some "role revoke targets an absent role" else none
  | .membershipAdmit target =>
    if e.effectiveMembership target = some true then some "membership is already admitted"
    else none
  | .evict target =>
    if e.effectiveMembership target = some false then some "membership is already evicted"
    else none
  | .selfStandDown deviceId _ =>
    if e.projection.isStoodDown deviceId then some "stand-down is already effective" else none
  | .resolution cell _ _ =>
    if e.projection.isConflicted cell then none else some "resolution has no live conflict"
  | .authorityLineageResolution subject _ _ =>
    if (g.authorityLineage subject).isConflicted then none
    else some "authority-lineage resolution has no live conflict"
  | _ => none

end FactGraph

end MyOwnMesh.Semantic

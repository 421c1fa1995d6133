import MyOwnMesh.Semantic.Project

/-!
# Projection impact of an admission

The cells and subjects whose projected value an admission may change. An
ordinary fact touches its own cells, and the whole subject when it forks a
lineage; a lineage selector sweeps all facts of its subject; a role resolution
walks the descendants of its AuthorityUse predecessors.
-/

namespace MyOwnMesh.Semantic

open Foundation

/-- What an admission may change in the projection. -/
structure ProjectionImpact where
  cells : OrdSet ExclusiveCell
  subjects : OrdSet DeviceId

namespace ProjectionImpact

def empty : ProjectionImpact := ⟨∅, ∅⟩

def union (a b : ProjectionImpact) : ProjectionImpact :=
  ⟨a.cells ∪ b.cells, a.subjects ∪ b.subjects⟩

end ProjectionImpact

/-- The subject a role or membership cell is about. -/
def ExclusiveCell.subject? : ExclusiveCell → Option DeviceId
  | .role subject | .membership subject => some subject
  | .decision _ => none

/-- The device an eviction or stand-down body removes. -/
def FactBody.removalTarget : FactBody → Option DeviceId
  | .evictionProof target _ | .selfStandDown target _ | .evict target => some target
  | _ => none

/-- The cells of a body and the subjects of those cells and of its removal. -/
def FactBody.ownImpact (body : FactBody) : ProjectionImpact :=
  ⟨.ofList body.exclusiveCells compare,
    .ofList (body.exclusiveCells.filterMap ExclusiveCell.subject? ++
      body.removalTarget.toList) compare⟩

namespace FactGraph

/-- The staged rows that carry a lineage edge of a subject. -/
def stagedParticipants (g : FactGraph) (subject : DeviceId) (stagedCold : List FactId) :
    List FactId :=
  stagedCold.filter fun id =>
    match g.facts[id]? with
    | some staged => staged.indexedAuthoritySubjects.contains subject
    | none => false

/-- The facts of the subject index and of the staged overlay. -/
def subjectParticipants (g : FactGraph) (subject : DeviceId) (stagedCold : List FactId) :
    OrdSet FactId :=
  g.authorityFactsIndex.getD subject ∅ ∪
    Std.ExtTreeSet.ofList (g.stagedParticipants subject stagedCold) compare

/-- The subject's facts that cite `predecessor` in their AuthorityUse of it. -/
def authorityDependents (g : FactGraph) (subject : DeviceId) (candidates : OrdSet FactId)
    (predecessor : FactId) : List FactId :=
  candidates.toList.filter fun id =>
    match g.facts[id]? with
    | some fact => fact.content.authorityUses.any fun use =>
      use.subject == subject && !fact.payloadLocal subject &&
        use.predecessors.contains predecessor
    | none => false

/-- The impact of every fact on the authority branches above the seeds. -/
def authorityBranchImpact (g : FactGraph) (subject : DeviceId) (seeds : List FactId)
    (stagedCold : List FactId) : ProjectionImpact :=
  let candidates := g.subjectParticipants subject stagedCold
  let dependents (id : FactId) : List FactId :=
    if g.facts.contains id then g.authorityDependents subject candidates id else []
  let visited := traverse dependents g.facts.keys seeds
  visited.foldl (fun impact id =>
    match g.facts[id]? with
    | some fact => impact.union fact.content.body.ownImpact
    | none => impact) .empty

/-- The impact of all facts of a subject, from extra seeds as well. -/
def authorityParticipantImpact (g : FactGraph) (subject : DeviceId) (seeds : List FactId)
    (stagedCold : List FactId) : ProjectionImpact :=
  let participating :=
    (Std.ExtTreeSet.ofList seeds compare) ∪ g.subjectParticipants subject stagedCold
  g.authorityBranchImpact subject participating.toList stagedCold

/-- The impact of an ordinary fact on one subject: none while it extends every
head it can see, the whole subject once it forks the lineage. -/
def ordinaryAuthorityForkImpact (g : FactGraph) (fact : SignedFact) (subject : DeviceId)
    (stagedCold : List FactId) : ProjectionImpact :=
  let heads := g.authorityHeadsIndex.getD subject ∅ ∪
    Std.ExtTreeSet.ofList (g.stagedParticipants subject stagedCold) compare
  let candidateDependencies := fact.dependencies
  if heads.toList.any fun head => head != fact.id && !candidateDependencies.contains head then
    g.authorityParticipantImpact subject heads.toList stagedCold
  else .empty

/-- The impact of one AuthorityUse subject of a fact. -/
def subjectImpact (g : FactGraph) (fact : SignedFact) (stagedCold : List FactId)
    (subject : DeviceId) : ProjectionImpact :=
  let branch :=
    if (fact.content.body.authorityResolutionSelection subject).isSome then
      let seeds := ((fact.authorityUse? subject).map AuthorityUse.predecessors).getD []
      match fact.content.body with
      | .authorityLineageResolution .. => g.authorityParticipantImpact subject seeds stagedCold
      | _ => g.authorityBranchImpact subject seeds stagedCold
    else if fact.payloadLocal subject then .empty
    else g.ordinaryAuthorityForkImpact fact subject stagedCold
  ⟨branch.cells, branch.subjects.insert subject⟩

def projectionImpactForFact (g : FactGraph) (fact : SignedFact) (stagedCold : List FactId) :
    ProjectionImpact :=
  fact.useSubjects.foldl (fun impact subject =>
    impact.union (g.subjectImpact fact stagedCold subject)) fact.content.body.ownImpact

/-- The impact of the resident facts among the given ones. -/
def projectionImpactForFacts (g : FactGraph) (ids stagedCold : List FactId) :
    ProjectionImpact :=
  ids.foldl (fun impact id =>
    match g.facts[id]? with
    | some fact => impact.union (g.projectionImpactForFact fact stagedCold)
    | none => impact) .empty

end FactGraph

end MyOwnMesh.Semantic

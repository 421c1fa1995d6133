import MyOwnMesh.Foundation.Traversal
import MyOwnMesh.Semantic.Graph

/-!
# Heads, lineages and authoritative facts

Read-only queries of the causal graph: signed-parent ancestry, the head sets of
exclusive cells and of authority lineages, the typed lineage selectors and the
provenance relations they are judged by, and the test whether an admitted fact
still belongs to its signed lineage.
-/

namespace MyOwnMesh.Semantic

open Foundation

/-! ## Ancestry -/

/-- Whether `ancestor` is reached from `descendant` along signed parents. -/
def isAncestorIn (facts : Facts) (ancestor descendant : FactId) : Bool :=
  (traverse (parentsIn facts) facts.keys [descendant]).any fun id =>
    (parentsIn facts id).contains ancestor

/-- Whether a head is a direct or transitive dependency of a candidate. -/
def signedHeadIsDominated (facts : Facts) (directDependencies : List FactId)
    (head : FactId) : Bool :=
  directDependencies.contains head ||
    (traverse (dependenciesIn facts) facts.keys directDependencies).any fun id =>
      (dependenciesIn facts id).contains head

/-- Drop the heads a candidate dominates and add the candidate. -/
def insertMaximalHead (facts : Facts) (heads : OrdSet FactId) (candidate : FactId) :
    OrdSet FactId :=
  match facts[candidate]? with
  | none => heads
  | some fact =>
    (keepMembers (fun head => !signedHeadIsDominated facts fact.dependencies head) heads).insert
      candidate

/-- Peel selectors newest first, keeping those every later kept one permits. A
round without maxima means a damaged summary. -/
def peelRounds (maximaOf : OrdSet FactId → List FactId) (permits : FactId → FactId → Bool) :
    Nat → OrdSet FactId → List FactId → Option (List FactId)
  | 0, pending, relevant => if pending.isEmpty then some relevant else none
  | fuel + 1, pending, relevant =>
    if pending.isEmpty then some relevant
    else
      let maxima := maximaOf pending
      if maxima.isEmpty then none
      else
        let permitted := maxima.filter fun candidate =>
          relevant.all fun later => permits later candidate
        peelRounds maximaOf permits fuel
          (maxima.foldl (fun pending id => pending.erase id) pending) (relevant ++ permitted)

/-- The semantic owner's authority relation for one subject. -/
structure AuthorityLineage where
  subject : DeviceId
  heads : List FactId
  selectedBranch : Option FactId

namespace AuthorityLineage

def isSingular (lineage : AuthorityLineage) : Bool := lineage.heads.length ≤ 1

def isConflicted (lineage : AuthorityLineage) : Bool := lineage.heads.length > 1

end AuthorityLineage

namespace FactGraph

def isAncestor (g : FactGraph) (ancestor descendant : FactId) : Bool :=
  isAncestorIn g.facts ancestor descendant

/-- The listed facts no other listed fact descends from. -/
def maximalIds (g : FactGraph) (ids : List FactId) : List FactId :=
  ids.filter fun candidate =>
    !ids.any fun other => candidate != other && g.isAncestor candidate other

/-! ## Head sets -/

/-- The heads of a cell, from the index when it is current. -/
def rawCellHeads (g : FactGraph) (cell : ExclusiveCell) : List FactId :=
  if g.indexesCurrent then (g.cellHeadsIndex.getD cell ∅).toList
  else g.maximalIds ((g.facts.toList.filter fun (_, fact) =>
    fact.content.body.advancesCell cell).map Prod.fst)

/-- The AuthorityUse heads of a subject, from the index when it is current. -/
def rawAuthorityUseHeads (g : FactGraph) (subject : DeviceId) : List FactId :=
  if g.indexesCurrent then
    (g.authorityHeadsIndex.getD subject ∅).toList.filter fun id =>
      match g.facts[id]? with
      | some fact => !fact.payloadLocal subject
      | none => false
  else g.maximalIds ((g.facts.toList.filter fun (_, fact) =>
    fact.usesSubject subject).map Prod.fst)

/-! ## Typed selectors -/

/-- Whether every indexed selector of a subject has its own provenance entry. -/
def selectorProvenanceComplete (g : FactGraph) (subject : DeviceId) : Bool :=
  (g.authoritySelectorIndex.getD subject ∅).toList.all fun (selector, selected) =>
    match (g.authorityProvenance.getD selector ∅)[selector]? with
    | some relation => relation.postSelector && relation.selected == selected
    | none => false

/-- Whether `selector` is a lineage selector of `subject` selecting `selected`. -/
def isSelectorOf (g : FactGraph) (selector : FactId) (subject : DeviceId)
    (selected : FactId) : Bool :=
  match g.facts[selector]? with
  | some fact => fact.content.body.lineageSelector == some (subject, selected)
  | none => false

/-- The selectors of a subject that the given heads descend from. -/
def ancestralTypedSelectors (g : FactGraph) (subject : DeviceId) (heads : List FactId) :
    OrdSet FactId :=
  .ofList (heads.flatMap fun head =>
    ((g.authorityProvenance.getD head ∅).toList.filter fun (selector, relation) =>
      relation.postSelector && g.isSelectorOf selector subject relation.selected).map
        Prod.fst) compare

/-- Whether `later` is recorded as a descendant of `earlier`. -/
def postSelector (g : FactGraph) (later earlier : FactId) : Bool :=
  match (g.authorityProvenance.getD later ∅)[earlier]? with
  | some relation => relation.postSelector
  | none => false

/-- The candidates no other candidate is recorded to descend from. -/
def maximaOf (g : FactGraph) (candidates : OrdSet FactId) : List FactId :=
  candidates.toList.filter fun candidate =>
    !candidates.toList.any fun other => candidate != other && g.postSelector other candidate

/-- The latest selectors of a subject above the given heads. -/
def maximalTypedSelectors (g : FactGraph) (subject : DeviceId) (heads : List FactId) :
    List FactId :=
  g.maximaOf (g.ancestralTypedSelectors subject heads)

/-- Whether a selector leaves a fact on its selected side. -/
def selectorPermitsFact (g : FactGraph) (selector fact : FactId) : Bool :=
  match g.facts[selector]? with
  | none => false
  | some stored =>
    match stored.content.body.lineageSelector with
    | none => false
    | some (_, selectedHead) =>
      match (g.authorityProvenance.getD fact ∅)[selector]? with
      | none => false
      | some relation =>
        relation.selected == selectedHead &&
          (relation.postSelector || relation.selectedBefore || relation.beforeSelected)

/-- The selectors a fact of this lineage is still judged by. Each round removes
a selector, so the candidate count bounds the rounds. -/
def relevantTypedSelectors (g : FactGraph) (subject : DeviceId) (heads : List FactId) :
    Option (List FactId) :=
  let pending := g.ancestralTypedSelectors subject heads
  peelRounds g.maximaOf g.selectorPermitsFact pending.size pending []

/-- The branch selected by the unique latest selector of a singular lineage. -/
def selectedAuthorityBranch (g : FactGraph) (subject : DeviceId) (heads : List FactId) :
    Option FactId :=
  if heads.length ≠ 1 then none
  else
    match g.maximalTypedSelectors subject heads with
    | [selector] => do
        let fact ← g.facts[selector]?
        let (_, selectedHead) ← fact.content.body.lineageSelector
        return selectedHead
    | _ => none

/-- The heads of a subject's lineage and the branch that holds. -/
def authorityLineage (g : FactGraph) (subject : DeviceId) : AuthorityLineage :=
  let heads := g.rawAuthorityUseHeads subject
  { subject
    heads := sortDedup heads
    selectedBranch := g.selectedAuthorityBranch subject heads }

/-! ## Authoritative facts -/

/-- The AuthorityUse heads of a subject among a fact's signed parents. -/
def authorityUseHeadsFromParents (g : FactGraph) (fact : SignedFact) (subject : DeviceId) :
    List FactId :=
  let direct := fact.content.parents.filter fun id =>
    match g.facts[id]? with
    | some parent => parent.usesSubject subject
    | none => false
  direct.filter fun candidate =>
    !direct.any fun other => candidate != other && g.isAncestor candidate other

/-- The test of one subject: complete selector provenance, at most one latest
selector, a common ancestor of all lineage heads, the signed predecessors, and
no veto by a relevant selector. -/
def authoritativeFor (g : FactGraph) (fact : SignedFact) (subject : DeviceId) : Bool :=
  let payloadLocal := fact.payloadLocal subject
  let lineage := g.authorityLineage subject
  (payloadLocal || g.selectorProvenanceComplete subject) &&
  (payloadLocal || (g.maximalTypedSelectors subject lineage.heads).length ≤ 1) &&
  (payloadLocal || lineage.isSingular ||
    lineage.heads.all fun head => fact.id == head || g.isAncestor fact.id head) &&
  (match fact.authorityUse? subject with
    | none => false
    | some use => use.predecessors == g.authorityUseHeadsFromParents fact subject) &&
  (payloadLocal ||
    match g.relevantTypedSelectors subject lineage.heads with
    | none => false
    | some selectors => selectors.all fun selector => g.selectorPermitsFact selector fact.id)

/-- Whether an admitted fact still belongs to its signed lineages. -/
def factIsAuthoritative (g : FactGraph) (id : FactId) : Bool :=
  match g.facts[id]? with
  | none => false
  | some fact => fact.useSubjects.all fun subject => g.authoritativeFor fact subject

/-- The authoritative heads of a cell. When a fork makes every one of several
heads ineligible the raw set is kept, so that the conflict stays visible. -/
def cellHeads (g : FactGraph) (cell : ExclusiveCell) : List FactId :=
  let raw := g.rawCellHeads cell
  let authoritative := raw.filter g.factIsAuthoritative
  if authoritative.isEmpty && raw.length > 1 then raw else authoritative

end FactGraph

end MyOwnMesh.Semantic

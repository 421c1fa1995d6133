import MyOwnMesh.Semantic.Lineage

/-!
# Projecting a graph

The pure projection of a causal graph into exclusive cells and stand-downs,
from scratch (`Projection.fromGraph`) and incrementally for a given set of
affected cells and stand-down targets (`Projection.updateFromGraph`).
-/

namespace MyOwnMesh.Semantic

open Foundation

/-! ## Resolution chains -/

/-- Ancestry along signed parents inside a visible set. -/
def isAncestorWithin (facts : Facts) (visible : OrdSet FactId)
    (ancestor descendant : FactId) : Bool :=
  (traverse (fun id => (parentsIn facts id).filter fun parent => visible.contains parent)
      facts.keys [descendant]).any fun id => (parentsIn facts id).contains ancestor

/-- The incomparable heads of a cell visible right before a resolution. -/
def headsAt (facts : Facts) (cell : ExclusiveCell) (resolution : FactId) : List FactId :=
  let visible : OrdSet FactId :=
    .ofList (traverse (parentsIn facts) facts.keys (parentsIn facts resolution)) compare
  let candidates := visible.toList.filter fun id =>
    match facts[id]? with
    | some fact => fact.content.body.advancesCell cell
    | none => false
  candidates.filter fun candidate =>
    !candidates.any fun other =>
      candidate != other && isAncestorWithin facts visible candidate other

/-- A cited head list that is a canonical set of at least two heads. -/
def citedCanonically (citedHeads : List FactId) : Bool :=
  let cited := sortDedup citedHeads
  2 ≤ cited.length && cited.length == citedHeads.length && cited == citedHeads

/-- Follow same-cell resolutions to the effective head. A malformed or cyclic
chain has none; each step marks a resident fact, so the fact count bounds it. -/
def resolveChain (facts : Facts) (cell : ExclusiveCell) :
    Nat → FactId → OrdSet FactId → Option FactId
  | 0, _, _ => none
  | fuel + 1, head, visited =>
    if visited.contains head then none
    else
      match facts[head]? with
      | none => none
      | some fact =>
        match fact.content.body with
        | .resolution resolutionCell citedHeads selectedHead =>
          if resolutionCell = cell then
            if citedCanonically citedHeads && citedHeads.contains selectedHead &&
                headsAt facts cell head == sortDedup citedHeads then
              match facts[selectedHead]? with
              | some selected =>
                if selected.content.body.advancesCell cell then
                  resolveChain facts cell fuel selectedHead (visited.insert head)
                else none
              | none => none
            else none
          else if fact.content.body.advancesCell cell then some head else none
        | body => if body.advancesCell cell then some head else none

/-- The effective non-resolution head behind a cell head. -/
def resolveEffectiveHead (facts : Facts) (cell : ExclusiveCell) (head : FactId) :
    Option FactId :=
  resolveChain facts cell (facts.size + 1) head ∅

namespace FactGraph

/-- All cells ever advanced, from the index when it is current. -/
def indexedCells (g : FactGraph) : OrdSet ExclusiveCell :=
  if g.indexesCurrent then g.cellsIndex
  else .ofList (g.facts.toList.flatMap fun (_, fact) => fact.content.body.exclusiveCells) compare

/-- Stand-down evidence by target, from the index when it is current. -/
def indexedStandDownCandidates (g : FactGraph) : OrdMap DeviceId (OrdSet FactId) :=
  if g.indexesCurrent then g.standDownIndex
  else g.facts.toList.foldl (fun candidates (id, fact) =>
    match fact.content.body.standDownTarget with
    | some target => addTo candidates target id
    | none => candidates) ∅

/-- The indexed evidence of one target; a stale index answers nothing. -/
def indexedStandDownCandidatesFor (g : FactGraph) (target : DeviceId) :
    Option (OrdSet FactId) :=
  if g.indexesCurrent then g.standDownIndex[target]? else none

/-- One head decides the cell; several are a conflict. -/
def projectedCell (g : FactGraph) (cell : ExclusiveCell) : Option CellProjection :=
  match g.cellHeads cell with
  | [] => none
  | [head] =>
    match resolveEffectiveHead g.facts cell head with
    | some id => some (.value id)
    | none => some (.conflict [head])
  | heads => some (.conflict heads)

/-- The admission that is the selected membership value of a target. -/
def projectedMembershipRestoration (g : FactGraph) (target : DeviceId) : Option FactId :=
  match g.cellHeads (.membership target) with
  | [head] =>
    match resolveEffectiveHead g.facts (.membership target) head with
    | some selected =>
      match g.facts[selected]? with
      | some fact =>
        if fact.content.body = .membershipAdmit target then some selected else none
      | none => none
    | none => none
  | _ => none

/-- Whether a restoration leaves a proof active: it must not descend from it. -/
def survivesRestoration (g : FactGraph) (restoration : Option FactId) (proof : FactId) : Bool :=
  match restoration with
  | none => true
  | some restored => proof != restored && !g.isAncestor proof restored

/-- The first authoritative proof that no restoration outweighs. -/
def projectedStandDownForTarget (g : FactGraph) (target : DeviceId) (proofs : OrdSet FactId) :
    Option StandDown :=
  let restoration := g.projectedMembershipRestoration target
  (proofs.toList.find? fun proof =>
    g.factIsAuthoritative proof && g.survivesRestoration restoration proof).map
      fun proof => { target, proof }

/-- All active stand-downs: the authoritative proofs of every target, then the
first one its restoration leaves active. -/
def projectedStandDown (g : FactGraph) : OrdMap DeviceId StandDown :=
  g.indexedStandDownCandidates |> mapEntries fun target candidates =>
    let proofs := candidates.toList.filter g.factIsAuthoritative
    let restoration := g.projectedMembershipRestoration target
    (proofs.find? (g.survivesRestoration restoration)).map fun proof => { target, proof }

end FactGraph

namespace Projection

def updateCells (g : FactGraph) (cells : OrdMap ExclusiveCell CellProjection)
    (affected : OrdSet ExclusiveCell) : OrdMap ExclusiveCell CellProjection :=
  affected.toList.foldl (fun cells cell => assign cells cell (g.projectedCell cell)) cells

/-- Project the affected targets again. -/
def updateStandDown (g : FactGraph) (standDown : OrdMap DeviceId StandDown)
    (affected : OrdSet DeviceId) : OrdMap DeviceId StandDown :=
  affected.toList.foldl (fun standDown target =>
    assign standDown target ((g.indexedStandDownCandidatesFor target).bind
      (g.projectedStandDownForTarget target))) standDown

/-- The update without its commitment, for an interval that rebuilds it once. -/
def updateFromGraphDeferredCommitment (g : FactGraph) (previous : Projection)
    (affectedCells : OrdSet ExclusiveCell) (affectedTargets : OrdSet DeviceId) : Projection :=
  { previous with
    cells := updateCells g previous.cells affectedCells
    standDown := updateStandDown g previous.standDown affectedTargets }

variable [Platform]

/-- The projection from scratch. -/
def fromGraph (g : FactGraph) : Projection :=
  let standDown := g.projectedStandDown
  let cells : OrdMap ExclusiveCell CellProjection :=
    g.indexedCells.toList.foldl (fun cells cell => assign cells cell (g.projectedCell cell)) ∅
  { cells, standDown, commitment := commitmentFromMaps cells standDown }

/-- Update only the cells and stand-down targets that may have changed. -/
def updateFromGraph (g : FactGraph) (previous : Projection)
    (affectedCells : OrdSet ExclusiveCell) (affectedTargets : OrdSet DeviceId) : Projection :=
  let next := updateFromGraphDeferredCommitment g previous affectedCells affectedTargets
  { next with
    commitment := recommit previous.commitment
      (affectedCells.toList.map fun cell => (cell, next.cells[cell]?))
      (affectedTargets.toList.map fun target => (target, next.standDown[target]?)) }

end Projection

end MyOwnMesh.Semantic

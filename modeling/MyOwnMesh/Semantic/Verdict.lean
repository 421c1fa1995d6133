import MyOwnMesh.Semantic.Evaluator

/-!
# The verdict on a candidate

The checks an admission makes in the graph visible to the candidate: that a
resolution cites exactly the live conflict, that every AuthorityUse names the
current heads of its subject, and that the author holds the required tier. The
checks before the tier read only indexes; the tier is read from the projection.
-/

namespace MyOwnMesh.Semantic

open Foundation

/-- The refusal of an unauthorized governance operation. -/
def FactBody.authorizationError : FactBody → Option SemanticError
  | .roleGrant .. | .roleRevoke .. | .evict .. | .resolution ..
  | .authorityLineageResolution .. => some .unauthorizedRoleGrant
  | .membershipAdmit .. => some .unauthorizedMembershipAdmit
  | .attestation .. => some .unauthorizedAttestation
  | .evictionProof .. | .selfStandDown .. => none

/-- The refusal of a lineage that is not the current one. -/
def FactBody.lineageError : FactBody → SemanticError
  | .evictionProof .. => .unauthorizedEviction
  | .selfStandDown .. => .invalidStandDownProof
  | body => body.authorizationError.getD .unauthorizedRoleGrant

/-- Whether admission reads the projection of the candidate's graph. -/
def FactBody.readsProjection : FactBody → Bool
  | .selfStandDown .. => false
  | _ => true

/-- Whether a no-op is judged in the candidate's own causal past. -/
def FactBody.noopInCausalPast : FactBody → Bool
  | .roleGrant .. | .roleRevoke .. | .resolution .. | .authorityLineageResolution .. => true
  | _ => false

namespace FactGraph

/-- A cell resolution cites exactly the raw heads of its cell. -/
def checkResolution (causal : FactGraph) (fact : SignedFact) : Except SemanticError Unit :=
  match fact.content.body with
  | .resolution cell citedHeads selectedHead => do
      if !citedHeads.contains selectedHead then
        throw .resolutionSelectionNotCited
      if !citedCanonically citedHeads then
        throw .incompleteResolution
      (sortDedup citedHeads).forM fun head => do
        if !causal.facts.contains head then
          throw (.unknownResolutionHead head)
        if !fact.content.parents.contains head then
          throw .incompleteResolution
      (sortDedup citedHeads).forM fun head => do
        let advances := match causal.facts[head]? with
          | some stored => stored.content.body.advancesCell cell
          | none => false
        if !advances then
          throw .incompleteResolution
      if causal.rawCellHeads cell ≠ sortDedup citedHeads then
        throw .resolutionNotCurrent
  | _ => .ok ()

/-- A lineage resolution cites exactly the lineage heads of its subject. -/
def checkLineageResolution (causal : FactGraph) (fact : SignedFact) :
    Except SemanticError Unit :=
  match fact.content.body with
  | .authorityLineageResolution subject citedHeads selectedHead => do
      if !citedHeads.contains selectedHead then
        throw .resolutionSelectionNotCited
      if !citedCanonically citedHeads then
        throw .incompleteResolution
      (sortDedup citedHeads).forM fun head => do
        let declares := match causal.facts[head]? with
          | some stored => stored.content.authorityUses.any fun use => use.subject == subject
          | none => false
        if !causal.facts.contains head || !fact.content.parents.contains head || !declares then
          throw .invalidAuthorityUse
      if sortDedup citedHeads ≠ (causal.authorityLineage subject).heads then
        throw .resolutionNotCurrent
  | _ => .ok ()

/-- A role resolution that cites exactly the forked heads, all of its cell. -/
def sameCellRoleResolution (causal : FactGraph) (body : FactBody) (subject : DeviceId)
    (expected : List FactId) : Bool :=
  match body with
  | .resolution (.role cellSubject) citedHeads _ =>
    cellSubject == subject && citedHeads == expected &&
      expected.all fun head =>
        match causal.facts[head]? with
        | some stored => stored.content.body.advancesCell (.role subject)
        | none => false
  | _ => false

/-- Whether a body is a lineage resolution of the subject. -/
def resolutionSelectsAuthorityHeads (body : FactBody) (subject : DeviceId) : Bool :=
  match body.lineageSelector with
  | some (selectedSubject, _) => selectedSubject == subject
  | none => false

/-- One AuthorityUse names the current heads of its subject, and a forked
lineage is only joined by a resolution of the fork. -/
def lineageIsCurrent (causal : FactGraph) (fact : SignedFact) (subject : DeviceId) : Bool :=
  match fact.authorityUse? subject with
  | none => false
  | some use =>
    let expected := causal.rawAuthorityUseHeads subject
    sortDedup use.predecessors == expected &&
      (expected.length ≤ 1 || fact.payloadLocal subject ||
        resolutionSelectsAuthorityHeads fact.content.body subject ||
        causal.sameCellRoleResolution fact.content.body subject expected)

def validateAuthorityLineage (causal : FactGraph) (fact : SignedFact) (error : SemanticError) :
    Except SemanticError Unit :=
  if fact.useSubjects.all (causal.lineageIsCurrent fact) then .ok () else .error error

/-- The checks that read only the indexes of the candidate's graph. -/
def lineageVerdict (causal : FactGraph) (fact : SignedFact) : Except SemanticError Unit := do
  causal.checkResolution fact
  causal.checkLineageResolution fact
  causal.validateAuthorityLineage fact fact.content.body.lineageError

/-- A self-stand-down cites eviction proofs of its own device only. -/
def validateSelfStandDown (causal : FactGraph) (deviceId : DeviceId) (evidence : List FactId)
    (author : DeviceId) : Except SemanticError Unit := do
  if deviceId ≠ author then
    throw .invalidStandDownProof
  evidence.forM fun evidenceId =>
    match causal.facts[evidenceId]? with
    | some proof =>
      match proof.content.body with
      | .evictionProof target _ =>
        if target ≠ deviceId then .error .invalidStandDownProof else .ok ()
      | _ => .error .invalidStandDownProof
    | none => .error .invalidStandDownProof

variable [Platform]

/-- An eviction proof cites evict attestations of current members only. -/
def validateEvictionProof (causal : FactGraph) (target : DeviceId) (evidence : List FactId)
    (author : DeviceId) : Except SemanticError Unit := do
  if !causal.isAuthorizedFor (.evict target) author then
    throw .unauthorizedEviction
  evidence.forM fun evidenceId =>
    match causal.facts[evidenceId]? with
    | some attestation =>
      match attestation.content.body with
      | .attestation attestationTarget _ .evict signer _ =>
        if attestationTarget ≠ target ∨ !causal.evaluator.hasTier signer .member ∨
            signer ≠ attestation.content.author then
          .error .invalidEvictionEvidence
        else .ok ()
      | _ => .error .invalidEvictionEvidence
    | none => .error .invalidEvictionEvidence

/-- The checks of the author's authority. -/
def authorityVerdict (causal : FactGraph) (fact : SignedFact) : Except SemanticError Unit :=
  match fact.content.body with
  | .evictionProof target evidence =>
    causal.validateEvictionProof target evidence fact.content.author
  | .selfStandDown deviceId evidence =>
    causal.validateSelfStandDown deviceId evidence fact.content.author
  | body =>
    if causal.isAuthorizedFor body fact.content.author then .ok ()
    else .error body.lineageError

/-- The complete verdict on a candidate in a graph. -/
def verdict (causal : FactGraph) (fact : SignedFact) : Except SemanticError Unit := do
  causal.lineageVerdict fact
  causal.authorityVerdict fact

end FactGraph

end MyOwnMesh.Semantic

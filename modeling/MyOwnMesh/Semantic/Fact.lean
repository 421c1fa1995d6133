import MyOwnMesh.Semantic.Content

/-!
# Signed facts

Fact content, its content-derived identity and its signature, with the checks
a fact passes before it may enter the causal graph. SHA-256, Ed25519, the JSON
encoder and the memory layout of the stored entries are outside the modelled
code: they are the fields of `Platform`, and every result holds for every
choice of them.
-/

namespace MyOwnMesh.Semantic

open Foundation

/-- The bounded resource an admission would exceed. -/
inductive SemanticCapacityDimension where
  | factEncodedBytes
  | dependenciesPerFact
  | authorityUsesPerFact
  | authorityPredecessorsPerUse
  | admittedFacts
  | admittedBytes
  | quarantinedFacts
  | quarantinedBytes
  | quarantinedFactsPerAuthor
  | quarantinedBytesPerAuthor
  | retainedFactsPerAuthor
  | retainedBytesPerAuthor
  | dependencyEdges
  | readyBatch
deriving DecidableEq

/-- Errors raised before a fact can enter the canonical causal graph. -/
inductive SemanticError where
  | unsupportedVersion (version : Nat)
  | emptyField (field : String)
  | domainMismatch
  | unsortedParents
  | duplicateParent
  | authorMismatch
  | nonCanonicalSet (field : String)
  | incompleteEvictionProof
  | factIdMismatch
  | invalidSignature
  | missingParent (id : FactId)
  | selfParent
  | contextMismatch (expected found : MeshContextId)
  | cycle
  | unknownResolutionHead (id : FactId)
  | incompleteResolution
  | resolutionSelectionNotCited
  | duplicateFact (id : FactId)
  | noOp (operation : String)
  | quarantineSignerNotEligible
  | resolutionNotCurrent
  | unauthorizedEviction
  | unauthorizedAttestation
  | unauthorizedRoleGrant
  | unauthorizedMembershipAdmit
  | invalidEvictionEvidence
  | invalidStandDownProof
  | invalidAuthorityUse
  | capacityExceeded (dimension : SemanticCapacityDimension) (limit observed : Nat)
  | encodingFailed
deriving DecidableEq

def semanticSchemaVersion : Nat := 4

/-- The signed, transport-independent content of a fact. -/
structure FactContent where
  version : Nat
  domain : FactDomain
  meshContext : MeshContextId
  body : FactBody
  author : DeviceId
  parents : List FactId
  authorityUses : List AuthorityUse
deriving DecidableEq

/-- A fact with the identity and signature it arrived with. -/
structure SignedFact where
  content : FactContent
  id : FactId
  signature : String
deriving DecidableEq

/-- What the modelled code takes from libraries and from the compiler. -/
class Platform where
  /-- SHA-256, as an arbitrary function. -/
  sha256 : List UInt8 → Fin (2 ^ 256)
  /-- Ed25519 verification of a fact identity; `none` is a malformed signature. -/
  verifySignature : DeviceId → FactId → String → Option Bool
  /-- The length of a fact's JSON encoding; `none` when encoding fails. -/
  encodedLen : SignedFact → Option Nat
  /-- `size_of::<FactId>()`. -/
  sizeFactId : Nat
  /-- `size_of::<(FactId, FactId)>()`. -/
  sizeFactIdPair : Nat
  /-- `size_of::<ExclusiveCell>()`. -/
  sizeCell : Nat
  /-- `size_of::<(ExclusiveCell, BTreeSet<FactId>)>()`. -/
  sizeCellEntry : Nat
  /-- `size_of::<(DeviceId, BTreeSet<FactId>)>()`. -/
  sizeDeviceEntry : Nat
  /-- `size_of::<(DeviceId, BTreeSet<(FactId, FactId)>)>()`. -/
  sizeSelectorEntry : Nat
  /-- `size_of::<(FactId, AuthorityProvenanceRow)>()`. -/
  sizeProvenanceEntry : Nat
  /-- `size_of::<(FactId, AuthoritySelectorRelation)>()`. -/
  sizeRelationEntry : Nat

/-! ## Content checks -/

/-- A list that must be a canonical set. -/
def requireSortedUnique (values : List FactId) (field : String) : Except SemanticError Unit :=
  if strictlyAscending values then .ok () else .error (.nonCanonicalSet field)

/-- Whether the sets of a body are in canonical order. -/
def FactBody.validateCanonical : FactBody → Except SemanticError Unit
  | .evictionProof _ evidence | .selfStandDown _ evidence =>
    if evidence.isEmpty then .error .incompleteEvictionProof
    else requireSortedUnique evidence "eviction evidence"
  | .attestation _ _ _ _ contributions =>
    requireSortedUnique contributions "attestation contributions"
  | .resolution _ citedHeads _ | .authorityLineageResolution _ citedHeads _ =>
    requireSortedUnique citedHeads "resolution cited heads"
  | _ => .ok ()

namespace FactContent

open Encoder in
/-- The bytes that are hashed and signed. -/
def canonicalBytes (content : FactContent) : List UInt8 :=
  tag "myownmesh-semantic-v4" ++ tag "schema" ++
    (beBytes 8 4 ++ beBytes 4 content.version) ++ tag content.domain.tag ++
    context content.meshContext ++ device content.author ++ tag "parents" ++
    listIds content.parents ++ tag "authority_uses" ++
    listAuthorityUses content.authorityUses ++ tag "body" ++ content.body.encode

/-- One AuthorityUse: an ascending predecessor list inside the signed parents. -/
def validateUse (content : FactContent) (use : AuthorityUse) : Except SemanticError Unit := do
  if !strictlyAscending use.predecessors then
    throw (.nonCanonicalSet "authority use predecessors")
  if !use.predecessors.all fun predecessor => content.parents.contains predecessor then
    throw .invalidAuthorityUse

/-- Adjacent parents: a duplicate and a descent are told apart. -/
def validateParents : List FactId → Except SemanticError Unit
  | a :: b :: rest => do
      if a = b then throw .duplicateParent
      if compare a b = .gt then throw .unsortedParents
      validateParents (b :: rest)
  | _ => .ok ()

/-- A self stand-down and an attestation are authored by whom they name. -/
def validateAuthor (content : FactContent) : Except SemanticError Unit :=
  match content.body with
  | .selfStandDown deviceId _ =>
    if content.author ≠ deviceId then .error .invalidStandDownProof else .ok ()
  | .attestation _ _ _ signer _ =>
    if content.author ≠ signer then .error .authorMismatch else .ok ()
  | _ => .ok ()

/-- The checks of `validate`, in the order of the source. -/
def validate (content : FactContent) : Except SemanticError Unit := do
  if content.version ≠ semanticSchemaVersion then
    throw (.unsupportedVersion content.version)
  if content.body.domain ≠ content.domain then
    throw .domainMismatch
  content.body.validateCanonical
  let expected := content.body.authorityUseSubjects content.author
  let actual := content.authorityUses.map AuthorityUse.subject
  if actual ≠ expected then
    throw .invalidAuthorityUse
  content.authorityUses.forM content.validateUse
  validateParents content.parents
  content.validateAuthor

end FactContent

namespace SignedFact

/-- The complete canonical dependency set of one fact: signed parents, declared
AuthorityUse predecessors and body-owned support. -/
def dependencies (fact : SignedFact) : List FactId :=
  sortDedup <| fact.content.parents ++
    fact.content.authorityUses.flatMap AuthorityUse.predecessors ++ fact.content.body.support

def authorityUse? (fact : SignedFact) (subject : DeviceId) : Option AuthorityUse :=
  fact.content.authorityUses.find? fun use => use.subject == subject

/-- The subjects whose lineage a fact must carry. -/
def useSubjects (fact : SignedFact) : List DeviceId :=
  fact.content.body.authorityUseSubjects fact.content.author

/-- Whether the fact's use of `subject` serves its payload only. -/
def payloadLocal (fact : SignedFact) (subject : DeviceId) : Bool :=
  fact.content.body.isPayloadLocalResolution fact.content.author subject

/-- Whether a fact declares a lineage edge of `subject`. -/
def usesSubject (fact : SignedFact) (subject : DeviceId) : Bool :=
  fact.content.authorityUses.any fun use => use.subject == subject && !fact.payloadLocal subject

/-- The subjects under which a fact enters the authority-facts index. -/
def indexedAuthoritySubjects (fact : SignedFact) : OrdSet DeviceId :=
  .ofList ((fact.content.authorityUses.filter fun use =>
    !fact.payloadLocal use.subject).map AuthorityUse.subject) compare

def cellSet (fact : SignedFact) : OrdSet ExclusiveCell :=
  .ofList fact.content.body.exclusiveCells compare

end SignedFact

/-! ## Verification -/

variable [Platform]

def FactId.fromContent (content : FactContent) : FactId :=
  ⟨Platform.sha256 content.canonicalBytes⟩

/-- Canonical content, the identity derived from it and its signature. -/
def SignedFact.verify (fact : SignedFact) : Except SemanticError Unit := do
  fact.content.validate
  if FactId.fromContent fact.content ≠ fact.id then
    throw .factIdMismatch
  match Platform.verifySignature fact.content.author fact.id fact.signature with
  | some true => pure ()
  | _ => throw .invalidSignature

end MyOwnMesh.Semantic

import MyOwnMesh.Semantic.Graph

/-!
# Facts of a small sample mesh

A platform and devices to state closed runs with. Signatures are
accepted and an encoded fact has length one. The digest is a polynomial hash of
a fact's canonical bytes, which start with the length of a tag; the inputs of
the projection commitment start with a text and all have digest zero.
-/

namespace MyOwnMesh.Semantic

open Foundation

def sampleDigest (bytes : List UInt8) : Fin (2 ^ 256) :=
  match bytes with
  | 0 :: _ => Fin.ofNat _ (bytes.foldl (fun h b => (h * 257 + b.toNat + 1) % 1000003) 7)
  | _ => 0

/-- Signatures verify and every size is one. -/
@[reducible] def samplePlatform : Platform where
  sha256 := sampleDigest
  verifySignature _ _ _ := some true
  encodedLen _ := some 1
  sizeFactId := 1
  sizeFactIdPair := 1
  sizeCell := 1
  sizeCellEntry := 1
  sizeDeviceEntry := 1
  sizeSelectorEntry := 1
  sizeProvenanceEntry := 1
  sizeRelationEntry := 1

def sampleDevice (key : Fin (2 ^ 256)) : DeviceId := .fromPublicKeyBytes key

def sampleContext : MeshContextId := ⟨5⟩

/-- Content by `author` with the listed AuthorityUse predecessors of each
subject; its parents are those predecessors and some extra facts. -/
def sampleContent (author : DeviceId) (body : FactBody)
    (uses : List (DeviceId × List FactId)) (extra : List FactId) : FactContent where
  version := semanticSchemaVersion
  domain := body.domain
  meshContext := sampleContext
  body
  author
  parents := sortDedup (uses.flatMap Prod.snd ++ extra)
  authorityUses := (body.authorityUseSubjects author).map fun subject =>
    ⟨subject, sortDedup ((uses.filter fun use => use.1 == subject).flatMap Prod.snd)⟩

def sampleSigned (content : FactContent) : SignedFact :=
  ⟨content, @FactId.fromContent samplePlatform content, ""⟩

def sampleFact (author : DeviceId) (body : FactBody) (uses : List (DeviceId × List FactId))
    (extra : List FactId) : SignedFact :=
  sampleSigned (sampleContent author body uses extra)

/-- Limits no sample reaches. -/
def sampleLimits : SemanticAdmissionPolicy where
  maxFactEncodedBytes := 1000000
  maxDependenciesPerFact := 1000000
  maxAuthorityUsesPerFact := 1000000
  maxAuthorityPredecessorsPerUse := 1000000
  maxAdmittedFacts := 1000000
  maxAdmittedBytes := 1000000
  maxQuarantinedFacts := 1000000
  maxQuarantinedBytes := 1000000
  maxQuarantinedFactsPerAuthor := 1000000
  maxQuarantinedBytesPerAuthor := 1000000
  maxRetainedFactsPerAuthor := 1000000
  maxRetainedBytesPerAuthor := 1000000
  maxHotHistoryFacts := 1000000
  maxDependencyEdges := 1000000
  maxReadyBatch := 1000
  maxDatabaseBytes := 1000000000

/-- A Closed project whose root is the device with key one. -/
def sampleBootstrap : VerifiedBootstrap := .closed sampleContext (sampleDevice 1)

/-- A sample fact verifies whenever its content is valid. -/
theorem sampleSigned_verify {content : FactContent} (h : content.validate = .ok ()) :
    @SignedFact.verify samplePlatform (sampleSigned content) = .ok () := by
  unfold SignedFact.verify sampleSigned
  rw [h]
  simp only [ne_eq, not_true_eq_false, if_false]
  rfl

end MyOwnMesh.Semantic

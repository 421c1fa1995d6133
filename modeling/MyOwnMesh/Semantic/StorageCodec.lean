import MyOwnMesh.Foundation.Bincode
import MyOwnMesh.Foundation.Program
import MyOwnMesh.Semantic.Fact

/-!
# The compact codec of the durable store

A stored row keeps the body, the parents, the AuthorityUse predecessors and the
signature bytes of a fact. Author, mesh context and identity are columns of the
row, and the AuthorityUse subjects follow from author and body. The decoder
puts the fact together again and recomputes its identity.

It does not repeat the other content checks: a row is validated by the caller
that is about to trust it.
-/

namespace MyOwnMesh.Semantic

open Foundation

/-! ## The stored form -/

/-- Thirty-two bytes, as the number they spell. -/
abbrev Bytes32 := Fin (2 ^ 256)

inductive StoredExclusiveCell where
  | role (subject : Bytes32)
  | membership (subject : Bytes32)
  | decision (proposal : Bytes32)
deriving DecidableEq

/-- A body with plain bytes for devices and identities. -/
inductive StoredFactBody where
  | roleGrant (target : Bytes32) (role : Role)
  | roleRevoke (target : Bytes32)
  | evict (target : Bytes32)
  | membershipAdmit (target : Bytes32)
  | evictionProof (target : Bytes32) (evidence : List Bytes32)
  | selfStandDown (deviceId : Bytes32) (evidence : List Bytes32)
  | attestation (target proposal : Bytes32) (decision : AttestationDecision) (signer : Bytes32)
      (contributions : List Bytes32)
  | resolution (cell : StoredExclusiveCell) (citedHeads : List Bytes32) (selectedHead : Bytes32)
  | authorityLineageResolution (subject : Bytes32) (citedHeads : List Bytes32)
      (selectedHead : Bytes32)
deriving DecidableEq

/-- What the store keeps of a fact beside its columns. -/
structure StoredFact where
  body : StoredFactBody
  parents : List Bytes32
  authorityPredecessors : List (List Bytes32)
  signature : List UInt8
deriving DecidableEq

/-- Why a fact cannot be stored or read. -/
inductive StorageError where
  /-- The content check failed before encoding. -/
  | content (error : SemanticError)
  /-- "invalid fact signature: .." -/
  | invalidSignature
  /-- "fact signature is not canonical" -/
  | signatureNotCanonical
  /-- "unsupported durable fact encoding" -/
  | unsupportedEncoding
  /-- An error of the bincode layer. -/
  | malformed
  /-- "stored fact signature length is invalid" -/
  | signatureLength
  /-- "invalid Ed25519 public key: .." -/
  | invalidKey
  /-- "stored authority-use count is invalid" -/
  | useCount
  /-- "stored fact id does not match canonical content" -/
  | idMismatch
deriving DecidableEq

/-- What the codec takes from the key and base32 libraries. -/
class StorageText where
  /-- `VerifyingKey::from_bytes(..).is_ok()`. -/
  validKey : Bytes32 → Bool
  /-- `BASE32_NOPAD.encode(..).to_lowercase()`. -/
  encodeSignature : List UInt8 → String
  /-- `BASE32_NOPAD.decode(..)` of the text in upper case. -/
  decodeSignature : String → Option (List UInt8)
  /-- Encoded bytes are decoded again. -/
  decode_encode : ∀ bytes, decodeSignature (encodeSignature bytes) = some bytes

def signatureLength : Nat := 64

/-! ## Facts and stored facts -/

def ids (values : List FactId) : List Bytes32 := values.map FactId.bytes

def factIds (values : List Bytes32) : List FactId := values.map FactId.mk

def storedCell : ExclusiveCell → StoredExclusiveCell
  | .role subject => .role subject.bytes
  | .membership subject => .membership subject.bytes
  | .decision proposal => .decision proposal.bytes

/-- The stored form of a body: plain bytes for devices and ids. -/
def storedBody : FactBody → StoredFactBody
  | .roleGrant target role => .roleGrant target.bytes role
  | .roleRevoke target => .roleRevoke target.bytes
  | .evict target => .evict target.bytes
  | .membershipAdmit target => .membershipAdmit target.bytes
  | .evictionProof target evidence => .evictionProof target.bytes (ids evidence)
  | .selfStandDown deviceId evidence => .selfStandDown deviceId.bytes (ids evidence)
  | .attestation target proposal decision signer contributions =>
    .attestation target.bytes proposal.bytes decision signer.bytes (ids contributions)
  | .resolution cell citedHeads selectedHead =>
    .resolution (storedCell cell) (ids citedHeads) selectedHead.bytes
  | .authorityLineageResolution subject citedHeads selectedHead =>
    .authorityLineageResolution subject.bytes (ids citedHeads) selectedHead.bytes

/-- The stored form of a fact with given signature bytes. -/
def storedFact (content : FactContent) (signature : List UInt8) : StoredFact where
  body := storedBody content.body
  parents := ids content.parents
  authorityPredecessors := content.authorityUses.map fun use => ids use.predecessors
  signature

section Decoded

variable [StorageText]

def decodedDevice (bytes : Bytes32) : Except StorageError DeviceId :=
  if StorageText.validKey bytes then .ok (.fromPublicKeyBytes bytes) else .error .invalidKey

def decodedCell : StoredExclusiveCell → Except StorageError ExclusiveCell
  | .role subject => return .role (← decodedDevice subject)
  | .membership subject => return .membership (← decodedDevice subject)
  | .decision proposal => return .decision ⟨proposal⟩

/-- The body of stored bytes, with every device key checked. -/
def decodedBody : StoredFactBody → Except StorageError FactBody
  | .roleGrant target role => return .roleGrant (← decodedDevice target) role
  | .roleRevoke target => return .roleRevoke (← decodedDevice target)
  | .evict target => return .evict (← decodedDevice target)
  | .membershipAdmit target => return .membershipAdmit (← decodedDevice target)
  | .evictionProof target evidence =>
    return .evictionProof (← decodedDevice target) (factIds evidence)
  | .selfStandDown deviceId evidence =>
    return .selfStandDown (← decodedDevice deviceId) (factIds evidence)
  | .attestation target proposal decision signer contributions =>
    return .attestation (← decodedDevice target) ⟨proposal⟩ decision (← decodedDevice signer)
      (factIds contributions)
  | .resolution cell citedHeads selectedHead =>
    return .resolution (← decodedCell cell) (factIds citedHeads) ⟨selectedHead⟩
  | .authorityLineageResolution subject citedHeads selectedHead =>
    return .authorityLineageResolution (← decodedDevice subject) (factIds citedHeads)
      ⟨selectedHead⟩

end Decoded

/-! ## The byte layout -/

def writeBytes32 (value : Bytes32) : List UInt8 := beBytes 32 value.val

/-- The number some big-endian bytes spell. -/
def beValue : List UInt8 → Nat
  | [] => 0
  | byte :: rest => byte.toNat * 256 ^ rest.length + beValue rest

def readBytes32 : Decoder Bytes32 := do
  let bytes ← decodeBytes 32
  pure (Fin.ofNat _ (beValue bytes))

def writeIds (values : List Bytes32) : List UInt8 := sequence writeBytes32 values

def readIds : Decoder (List Bytes32) := decodeSequence readBytes32

/-- A derived enumeration is written as the position of its variant. -/
def writeRole (role : Role) : List UInt8 := varint role.rank

def readRole : Decoder Role := do
  let variant ← decodeVarint
  match variant with
  | 0 => pure .member
  | 1 => pure .controller
  | 2 => pure .owner
  | _ => failure

def writeDecision : AttestationDecision → List UInt8
  | .evict => varint 0
  | .approve => varint 1
  | .reject => varint 2

def readDecision : Decoder AttestationDecision := do
  let variant ← decodeVarint
  match variant with
  | 0 => pure .evict
  | 1 => pure .approve
  | 2 => pure .reject
  | _ => failure

def writeCell : StoredExclusiveCell → List UInt8
  | .role subject => varint 0 ++ writeBytes32 subject
  | .membership subject => varint 1 ++ writeBytes32 subject
  | .decision proposal => varint 2 ++ writeBytes32 proposal

def readCell : Decoder StoredExclusiveCell := do
  let variant ← decodeVarint
  match variant with
  | 0 => return .role (← readBytes32)
  | 1 => return .membership (← readBytes32)
  | 2 => return .decision (← readBytes32)
  | _ => failure

/-- The variant number, then the fields in order. -/
def writeBody : StoredFactBody → List UInt8
  | .roleGrant target role => varint 0 ++ (writeBytes32 target ++ writeRole role)
  | .roleRevoke target => varint 1 ++ writeBytes32 target
  | .evict target => varint 2 ++ writeBytes32 target
  | .membershipAdmit target => varint 3 ++ writeBytes32 target
  | .evictionProof target evidence => varint 4 ++ (writeBytes32 target ++ writeIds evidence)
  | .selfStandDown deviceId evidence => varint 5 ++ (writeBytes32 deviceId ++ writeIds evidence)
  | .attestation target proposal decision signer contributions =>
    varint 6 ++ (writeBytes32 target ++ (writeBytes32 proposal ++ (writeDecision decision ++
      (writeBytes32 signer ++ writeIds contributions))))
  | .resolution cell citedHeads selectedHead =>
    varint 7 ++ (writeCell cell ++ (writeIds citedHeads ++ writeBytes32 selectedHead))
  | .authorityLineageResolution subject citedHeads selectedHead =>
    varint 8 ++ (writeBytes32 subject ++ (writeIds citedHeads ++ writeBytes32 selectedHead))

/-- The body behind its variant number. -/
def readBody : Decoder StoredFactBody := do
  let variant ← decodeVarint
  match variant with
  | 0 => return .roleGrant (← readBytes32) (← readRole)
  | 1 => return .roleRevoke (← readBytes32)
  | 2 => return .evict (← readBytes32)
  | 3 => return .membershipAdmit (← readBytes32)
  | 4 => return .evictionProof (← readBytes32) (← readIds)
  | 5 => return .selfStandDown (← readBytes32) (← readIds)
  | 6 => return .attestation (← readBytes32) (← readBytes32) (← readDecision)
          (← readBytes32) (← readIds)
  | 7 => return .resolution (← readCell) (← readIds) (← readBytes32)
  | 8 => return .authorityLineageResolution (← readBytes32) (← readIds) (← readBytes32)
  | _ => failure

/-- The fields of a stored fact, in order. -/
def writeStored (stored : StoredFact) : List UInt8 :=
  writeBody stored.body ++ (writeIds stored.parents ++
    (sequence writeIds stored.authorityPredecessors ++
      sequence (fun byte => [byte]) stored.signature))

/-- The record after the magic bytes. -/
def readStored : Decoder StoredFact := do
  let body ← readBody
  let parents ← readIds
  let authorityPredecessors ← decodeSequence readIds
  let signature ← decodeSequence decodeByte
  pure { body, parents, authorityPredecessors, signature }

/-! ## Encoding and decoding a row -/

/-- `b"MOMF\x01"`. -/
def magic : List UInt8 := [77, 79, 77, 70, 1]

section Codec

/-- The signature bytes of a text, which must be their canonical text. -/
def canonicalSignature [StorageText] (text : String) : Except StorageError (List UInt8) := do
  let signature ← (StorageText.decodeSignature text).elim (.error .invalidSignature) .ok
  failIf (signature.length ≠ signatureLength ∨ StorageText.encodeSignature signature ≠ text)
    .signatureNotCanonical
  pure signature

def encode [StorageText] (fact : SignedFact) : Except StorageError (List UInt8) := do
  fact.content.validate.mapError .content
  let signature ← canonicalSignature fact.signature
  pure (magic ++ writeStored (storedFact fact.content signature))

/-- The AuthorityUses of a row: the subjects its body fixes, in order, with the
stored predecessors. -/
def decodedUses (subjects : List DeviceId) (predecessors : List (List Bytes32)) :
    List AuthorityUse :=
  (subjects.zip predecessors).map fun entry => ⟨entry.1, factIds entry.2⟩

/-- The content of a stored value, for the decoded author and body. -/
def decodedContent (stored : StoredFact) (context : MeshContextId) (author : DeviceId)
    (body : FactBody) : FactContent where
  version := semanticSchemaVersion
  domain := body.domain
  meshContext := context
  body
  author
  parents := factIds stored.parents
  authorityUses := decodedUses (body.authorityUseSubjects author) stored.authorityPredecessors

variable [StorageText] [Platform]

/-- The fact of a stored value with the columns of its row. -/
def decodedFact (stored : StoredFact) (context : MeshContextId) (author id : Bytes32) :
    Except StorageError SignedFact := do
  failIf (stored.signature.length ≠ signatureLength) .signatureLength
  let author ← decodedDevice author
  let body ← decodedBody stored.body
  failIf ((body.authorityUseSubjects author).length ≠ stored.authorityPredecessors.length)
    .useCount
  let content := decodedContent stored context author body
  failIf (FactId.fromContent content ≠ ⟨id⟩) .idMismatch
  pure ⟨content, ⟨id⟩, StorageText.encodeSignature stored.signature⟩

/-- Read a stored fact; the columns of its row are checked too. -/
def decode (encoded : List UInt8) (context : MeshContextId) (author id : Bytes32) :
    Except StorageError SignedFact :=
  if !magic.isPrefixOf encoded then .error .unsupportedEncoding
  else
    match decodeAll readStored (encoded.drop magic.length) with
    | none => .error .malformed
    | some stored => decodedFact stored context author id

end Codec

end MyOwnMesh.Semantic

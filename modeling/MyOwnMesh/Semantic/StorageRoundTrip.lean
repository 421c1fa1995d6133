import MyOwnMesh.Semantic.Invariant
import MyOwnMesh.Semantic.StorageCodec

/-!
# Stored facts are read back

Whatever the encoder writes for a fact, the decoder returns that fact when it
is given the columns of the fact's row. The encoder accepts a verified fact
exactly when its signature text is the canonical one of 64 bytes. The decoder
in turn returns facts of the row's author, context and identity only, with
version, domain and AuthorityUse subjects as the content check wants them; the
order of the stored lists is not checked here.
-/

namespace MyOwnMesh.Semantic

open Foundation

/-! ## The byte layout -/

private theorem beValue_beBytes (width value : Nat) :
    beValue (beBytes width value) = value % 256 ^ width := by
  induction width with
  | zero => rw [Nat.pow_zero, Nat.mod_one]; rfl
  | succ width ih =>
    have hSplit : value % 256 ^ (width + 1) =
        value % 256 ^ width + 256 ^ width * (value / 256 ^ width % 256) := by
      rw [Nat.pow_succ, Nat.mod_mul]
    rw [beBytes, beValue, ih, beBytes_length, UInt8.toNat_ofNat', hSplit, Nat.add_comm,
      Nat.mul_comm]

theorem decodes_bytes32 (value : Bytes32) : Decodes readBytes32 (writeBytes32 value) value := by
  have hBytes := decodes_bytes (beBytes 32 value.val)
  rw [beBytes_length] at hBytes
  have hValue : Decodes readBytes32 (writeBytes32 value)
      (Fin.ofNat _ (beValue (beBytes 32 value.val))) := hBytes.last (.pure _)
  have hSame : Fin.ofNat (2 ^ 256) (beValue (beBytes 32 value.val)) = value := by
    rw [beValue_beBytes]
    refine Fin.ext ?_
    show value.val % 256 ^ 32 % 2 ^ 256 = value.val
    have hLt : value.val < 2 ^ 256 := value.isLt
    omega
  rwa [hSame] at hValue

/-- A list whose count fits 64 bits is read back. -/
theorem decodes_ids {values : List Bytes32} (h : Counted values) :
    Decodes readIds (writeIds values) values :=
  decodes_sequence h fun value _ => decodes_bytes32 value

private theorem decodes_tag (tag : Nat) (h : tag < 9) : Decodes decodeVarint (varint tag) tag :=
  decodes_varint (by omega)

theorem decodes_role (role : Role) : Decodes readRole (writeRole role) role := by
  cases role with
  | member => exact (decodes_tag 0 (by decide)).last (.pure _)
  | controller => exact (decodes_tag 1 (by decide)).last (.pure _)
  | owner => exact (decodes_tag 2 (by decide)).last (.pure _)

theorem decodes_decision (decision : AttestationDecision) :
    Decodes readDecision (writeDecision decision) decision := by
  cases decision with
  | evict => exact (decodes_tag 0 (by decide)).last (.pure _)
  | approve => exact (decodes_tag 1 (by decide)).last (.pure _)
  | reject => exact (decodes_tag 2 (by decide)).last (.pure _)

theorem decodes_cell (cell : StoredExclusiveCell) : Decodes readCell (writeCell cell) cell := by
  cases cell with
  | role subject => exact (decodes_tag 0 (by decide)).bind ((decodes_bytes32 subject).last (.pure _))
  | membership subject =>
    exact (decodes_tag 1 (by decide)).bind ((decodes_bytes32 subject).last (.pure _))
  | decision proposal =>
    exact (decodes_tag 2 (by decide)).bind ((decodes_bytes32 proposal).last (.pure _))

private theorem ids_counted {values : List FactId} (h : Counted values) : Counted (ids values) := by
  unfold Counted ids
  rwa [List.length_map]

theorem decodes_body {body : FactBody} (h : Counted body.support) :
    Decodes readBody (writeBody (storedBody body)) (storedBody body) := by
  cases body with
  | roleGrant target role =>
    exact (decodes_tag 0 (by decide)).bind ((decodes_bytes32 _).bind
      ((decodes_role role).last (.pure _)))
  | roleRevoke target =>
    exact (decodes_tag 1 (by decide)).bind ((decodes_bytes32 _).last (.pure _))
  | evict target =>
    exact (decodes_tag 2 (by decide)).bind ((decodes_bytes32 _).last (.pure _))
  | membershipAdmit target =>
    exact (decodes_tag 3 (by decide)).bind ((decodes_bytes32 _).last (.pure _))
  | evictionProof target evidence =>
    exact (decodes_tag 4 (by decide)).bind ((decodes_bytes32 _).bind
      ((decodes_ids (ids_counted h)).last (.pure _)))
  | selfStandDown deviceId evidence =>
    exact (decodes_tag 5 (by decide)).bind ((decodes_bytes32 _).bind
      ((decodes_ids (ids_counted h)).last (.pure _)))
  | attestation target proposal decision signer contributions =>
    have hContributions : Counted contributions := Nat.lt_of_succ_lt h
    exact (decodes_tag 6 (by decide)).bind ((decodes_bytes32 _).bind ((decodes_bytes32 _).bind
      ((decodes_decision decision).bind ((decodes_bytes32 _).bind
        ((decodes_ids (ids_counted hContributions)).last (.pure _))))))
  | resolution cell citedHeads selectedHead =>
    exact (decodes_tag 7 (by decide)).bind ((decodes_cell _).bind
      ((decodes_ids (ids_counted h)).bind ((decodes_bytes32 _).last (.pure _))))
  | authorityLineageResolution subject citedHeads selectedHead =>
    exact (decodes_tag 8 (by decide)).bind ((decodes_bytes32 _).bind
      ((decodes_ids (ids_counted h)).bind ((decodes_bytes32 _).last (.pure _))))

theorem decodes_stored {content : FactContent} {signature : List UInt8} (h : content.InMemory)
    (hSignature : signature.length = signatureLength) :
    Decodes readStored (writeStored (storedFact content signature))
      (storedFact content signature) := by
  have hUses : (storedFact content signature).authorityPredecessors.length < 256 ^ 8 := by
    show (content.authorityUses.map _).length < _
    rw [List.length_map]
    exact h.uses
  have hPredecessors : ∀ predecessors ∈ (storedFact content signature).authorityPredecessors,
      Decodes readIds (writeIds predecessors) predecessors := by
    intro predecessors hMem
    obtain ⟨use, hUse, rfl⟩ := List.mem_map.mp hMem
    exact decodes_ids (ids_counted (h.predecessors use hUse))
  have hBytes : signature.length < 256 ^ 8 := by
    rw [hSignature]
    decide
  exact (decodes_body h.support).bind ((decodes_ids (ids_counted h.parents)).bind
    ((decodes_sequence hUses hPredecessors).bind
      ((decodes_sequence hBytes fun byte _ => decodes_byte byte).last (.pure _))))

/-! ## The values of a row -/

section Rows

variable [StorageText]

/-- The devices a body names. -/
def FactBody.devices : FactBody → List DeviceId
  | .roleGrant target _ | .roleRevoke target | .evict target | .membershipAdmit target => [target]
  | .evictionProof target _ | .selfStandDown target _ => [target]
  | .attestation target _ _ signer _ => [target, signer]
  | .resolution (.role subject) _ _ | .resolution (.membership subject) _ _ => [subject]
  | .resolution (.decision _) _ _ => []
  | .authorityLineageResolution subject _ _ => [subject]

/-- The devices of a content are valid keys, as every `DeviceId` of the program is. -/
def FactContent.KeysValid (content : FactContent) : Prop :=
  ∀ device ∈ content.author :: content.body.devices, StorageText.validKey device.bytes = true

omit [StorageText] in
private theorem factIds_ids (values : List FactId) : factIds (ids values) = values := by
  unfold factIds ids
  rw [List.map_map]
  exact List.map_id _

theorem decodedDevice_bytes {device : DeviceId} (h : StorageText.validKey device.bytes = true) :
    decodedDevice device.bytes = .ok device := by
  have hSame : DeviceId.fromPublicKeyBytes device.bytes = device := DeviceId.bytes_injective rfl
  unfold decodedDevice
  rw [if_pos h, hSame]

/-- A stored body reads back. -/
theorem decodedBody_storedBody {body : FactBody}
    (h : ∀ device ∈ body.devices, StorageText.validKey device.bytes = true) :
    decodedBody (storedBody body) = .ok body := by
  have hDevice : ∀ device ∈ body.devices, decodedDevice device.bytes = .ok device :=
    fun device hMem => decodedDevice_bytes (h device hMem)
  cases body with
  | roleGrant target role =>
    rw [storedBody, decodedBody, hDevice target List.mem_cons_self]
    rfl
  | roleRevoke target =>
    rw [storedBody, decodedBody, hDevice target List.mem_cons_self]
    rfl
  | evict target =>
    rw [storedBody, decodedBody, hDevice target List.mem_cons_self]
    rfl
  | membershipAdmit target =>
    rw [storedBody, decodedBody, hDevice target List.mem_cons_self]
    rfl
  | evictionProof target evidence =>
    rw [storedBody, decodedBody, factIds_ids, hDevice target List.mem_cons_self]
    rfl
  | selfStandDown deviceId evidence =>
    rw [storedBody, decodedBody, factIds_ids, hDevice deviceId List.mem_cons_self]
    rfl
  | attestation target proposal decision signer contributions =>
    rw [storedBody, decodedBody, factIds_ids, hDevice target List.mem_cons_self,
      hDevice signer (List.mem_cons_of_mem _ List.mem_cons_self)]
    rfl
  | resolution cell citedHeads selectedHead =>
    rw [storedBody, decodedBody, factIds_ids]
    cases cell with
    | role subject =>
      rw [storedCell, decodedCell, hDevice subject List.mem_cons_self]
      rfl
    | membership subject =>
      rw [storedCell, decodedCell, hDevice subject List.mem_cons_self]
      rfl
    | decision proposal => rfl
  | authorityLineageResolution subject citedHeads selectedHead =>
    rw [storedBody, decodedBody, factIds_ids, hDevice subject List.mem_cons_self]
    rfl

omit [StorageText] in
/-- The subjects and the stored predecessors of a content pair up to its uses. -/
theorem decodedUses_stored (uses : List AuthorityUse) :
    decodedUses (uses.map AuthorityUse.subject)
      (uses.map fun use => ids use.predecessors) = uses := by
  unfold decodedUses
  rw [List.zip_map', List.map_map]
  refine (List.map_congr_left fun use _ => ?_).trans (List.map_id uses)
  show AuthorityUse.mk use.subject (factIds (ids use.predecessors)) = use
  rw [factIds_ids]

/-- The checks of a content that its stored form takes for granted. -/
structure FactContent.Storable (content : FactContent) : Prop where
  version : content.version = semanticSchemaVersion
  domain : content.domain = content.body.domain
  uses : content.authorityUses.map AuthorityUse.subject =
    content.body.authorityUseSubjects content.author
  inMemory : content.InMemory
  keys : content.KeysValid

variable [Platform]
variable {fact : SignedFact}

variable {context : MeshContextId} {author id : Bytes32}

/-- What a decoded row consists of. -/
theorem decodedFact_eq_ok {stored : StoredFact} :
    decodedFact stored context author id = .ok fact ↔
      stored.signature.length = signatureLength ∧ ∃ device body,
        decodedDevice author = .ok device ∧ decodedBody stored.body = .ok body ∧
        (body.authorityUseSubjects device).length = stored.authorityPredecessors.length ∧
        FactId.fromContent (decodedContent stored context device body) = ⟨id⟩ ∧
        fact = ⟨decodedContent stored context device body, ⟨id⟩,
          StorageText.encodeSignature stored.signature⟩ := by
  unfold decodedFact
  constructor
  · intro h
    obtain ⟨_, hLength, h⟩ := except_bind_eq_ok.mp h
    obtain ⟨device, hDevice, h⟩ := except_bind_eq_ok.mp h
    obtain ⟨body, hBody, h⟩ := except_bind_eq_ok.mp h
    obtain ⟨_, hCount, h⟩ := except_bind_eq_ok.mp h
    obtain ⟨_, hId, h⟩ := except_bind_eq_ok.mp h
    exact ⟨not_not.mp (failIf_eq_ok.mp hLength), device, body, hDevice, hBody,
      not_not.mp (failIf_eq_ok.mp hCount), not_not.mp (failIf_eq_ok.mp hId),
      (Except.ok.inj h).symm⟩
  · rintro ⟨hLength, device, body, hDevice, hBody, hCount, hId, rfl⟩
    refine except_bind_eq_ok.mpr ⟨(), failIf_eq_ok.mpr (not_not_intro hLength), ?_⟩
    refine except_bind_eq_ok.mpr ⟨device, hDevice, except_bind_eq_ok.mpr ⟨body, hBody, ?_⟩⟩
    refine except_bind_eq_ok.mpr ⟨(), failIf_eq_ok.mpr (not_not_intro hCount), ?_⟩
    exact except_bind_eq_ok.mpr ⟨(), failIf_eq_ok.mpr (not_not_intro hId), rfl⟩

variable {content : FactContent} {bytes signature : List UInt8}

/-- **The stored form of a fact is decoded to the fact.** -/
theorem decode_stored (h : content.Storable) (hSignature : signature.length = signatureLength) :
    decode (magic ++ writeStored (storedFact content signature)) content.meshContext
        content.author.bytes (FactId.fromContent content).bytes =
      .ok ⟨content, FactId.fromContent content, StorageText.encodeSignature signature⟩ := by
  have hPrefix : magic.isPrefixOf (magic ++ writeStored (storedFact content signature)) = true :=
    List.isPrefixOf_iff_prefix.mpr (List.prefix_append _ _)
  have hAuthor : decodedDevice content.author.bytes = .ok content.author :=
    decodedDevice_bytes (h.keys _ List.mem_cons_self)
  have hBody : decodedBody (storedBody content.body) = .ok content.body :=
    decodedBody_storedBody fun device hMem => h.keys _ (List.mem_cons_of_mem _ hMem)
  have hCount : (content.body.authorityUseSubjects content.author).length =
      (content.authorityUses.map fun use => ids use.predecessors).length := by
    rw [← h.uses, List.length_map, List.length_map]
  have hContent : decodedContent (storedFact content signature) content.meshContext
      content.author content.body = content := by
    unfold decodedContent storedFact
    rw [factIds_ids, ← h.uses, decodedUses_stored, ← h.version, ← h.domain]
  unfold decode
  rw [hPrefix, List.drop_left, decodeAll_of_decodes (decodes_stored h.inMemory hSignature)]
  show decodedFact (storedFact content signature) _ _ _ = _
  refine decodedFact_eq_ok.mpr ⟨hSignature, content.author, content.body, hAuthor, hBody, hCount,
    ?_, ?_⟩
  · rw [hContent]
  · rw [hContent]
    rfl

omit [Platform] in
/-- A text is accepted as the canonical text of 64 bytes only. -/
theorem canonicalSignature_eq_ok {text : String} :
    canonicalSignature text = .ok signature ↔
      signature.length = signatureLength ∧ text = StorageText.encodeSignature signature := by
  unfold canonicalSignature
  constructor
  · intro h
    obtain ⟨bytes, hDecoded, h⟩ := except_bind_eq_ok.mp h
    obtain ⟨_, hCanonical, h⟩ := except_bind_eq_ok.mp h
    obtain rfl := Except.ok.inj h
    obtain ⟨hLength, hText⟩ := not_or.mp (failIf_eq_ok.mp hCanonical)
    exact ⟨not_not.mp hLength, (not_not.mp hText).symm⟩
  · rintro ⟨hLength, rfl⟩
    refine except_bind_eq_ok.mpr ⟨signature, ?_, ?_⟩
    · rw [StorageText.decode_encode]
      rfl
    · refine except_bind_eq_ok.mpr ⟨(), failIf_eq_ok.mpr ?_, rfl⟩
      exact not_or.mpr ⟨not_not_intro hLength, not_not_intro rfl⟩

omit [Platform] in
/-- A valid fact is stored exactly when its signature text is canonical. -/
theorem encode_eq_ok (h : fact.content.validate = .ok ()) :
    encode fact = .ok bytes ↔ ∃ signature,
      signature.length = signatureLength ∧
      fact.signature = StorageText.encodeSignature signature ∧
      bytes = magic ++ writeStored (storedFact fact.content signature) := by
  unfold encode
  rw [h]
  show (canonicalSignature fact.signature >>= _) = _ ↔ _
  rw [except_bind_eq_ok]
  constructor
  · rintro ⟨signature, hSignature, hBytes⟩
    obtain ⟨hLength, hText⟩ := canonicalSignature_eq_ok.mp hSignature
    exact ⟨signature, hLength, hText, (Except.ok.inj hBytes).symm⟩
  · rintro ⟨signature, hLength, hText, rfl⟩
    exact ⟨signature, canonicalSignature_eq_ok.mpr ⟨hLength, hText⟩, rfl⟩

omit [Platform] [StorageText] in
theorem FactContent.domain_of_validate (h : content.validate = .ok ()) :
    content.domain = content.body.domain := by
  by_contra hDomain
  unfold FactContent.validate at h
  rw [if_neg (not_not_intro (FactContent.version_of_validate h)), if_pos (Ne.symm hDomain)] at h
  cases h

/-- A row is decoded to a fact with its columns, whose identity is recomputed and whose
version, domain and AuthorityUse subjects are those of valid content. -/
theorem decode_ok (h : decode bytes context author id = .ok fact) :
    fact.id = ⟨id⟩ ∧ FactId.fromContent fact.content = ⟨id⟩ ∧
      fact.content.meshContext = context ∧ fact.content.author = .fromPublicKeyBytes author ∧
      fact.content.version = semanticSchemaVersion ∧
      fact.content.domain = fact.content.body.domain ∧
      fact.content.authorityUses.map AuthorityUse.subject =
        fact.content.body.authorityUseSubjects fact.content.author := by
  unfold decode at h
  split_ifs at h
  cases hStored : decodeAll readStored (bytes.drop magic.length) with
  | none =>
    rw [hStored] at h
    cases h
  | some stored =>
    rw [hStored] at h
    obtain ⟨-, device, body, hDevice, -, hCount, hId, rfl⟩ := decodedFact_eq_ok.mp h
    have hAuthor : device = .fromPublicKeyBytes author := by
      unfold decodedDevice at hDevice
      split_ifs at hDevice
      exact (Except.ok.inj hDevice).symm
    refine ⟨rfl, hId, rfl, hAuthor, rfl, rfl, ?_⟩
    show (decodedUses (body.authorityUseSubjects device) stored.authorityPredecessors).map
      AuthorityUse.subject = body.authorityUseSubjects device
    unfold decodedUses
    rw [List.map_map]
    exact List.map_fst_zip hCount.le

/-- **Stored facts are read back.** A verified fact can be stored when its signature text
is canonical, and reading its row returns it; whatever row is read, the fact has the
columns of the row and an identity recomputed from its content. -/
theorem stored_facts_read_back :
    (∀ fact : SignedFact, fact.verify = .ok () → fact.content.InMemory → fact.content.KeysValid →
      ((∃ bytes, encode fact = .ok bytes) ↔ ∃ signature : List UInt8,
        signature.length = signatureLength ∧
          fact.signature = StorageText.encodeSignature signature) ∧
      ∀ bytes, encode fact = .ok bytes →
        decode bytes fact.content.meshContext fact.content.author.bytes fact.id.bytes =
          .ok fact) ∧
    (∀ (bytes : List UInt8) (context : MeshContextId) (author id : Bytes32) (fact : SignedFact),
      decode bytes context author id = .ok fact →
        fact.id = ⟨id⟩ ∧ FactId.fromContent fact.content = ⟨id⟩ ∧
        fact.content.meshContext = context ∧
        fact.content.author = .fromPublicKeyBytes author ∧
        fact.content.version = semanticSchemaVersion ∧
        fact.content.domain = fact.content.body.domain ∧
        fact.content.authorityUses.map AuthorityUse.subject =
          fact.content.body.authorityUseSubjects fact.content.author) := by
  refine ⟨fun fact hVerified hMemory hKeys => ?_, fun _ _ _ _ _ => decode_ok⟩
  obtain ⟨hValid, hId⟩ := SignedFact.verify_ok hVerified
  constructor
  · constructor
    · rintro ⟨bytes, hEncoded⟩
      obtain ⟨signature, hLength, hText, -⟩ := (encode_eq_ok hValid).mp hEncoded
      exact ⟨signature, hLength, hText⟩
    · rintro ⟨signature, hLength, hText⟩
      exact ⟨_, (encode_eq_ok hValid).mpr ⟨signature, hLength, hText, rfl⟩⟩
  · intro bytes hEncoded
    obtain ⟨signature, hLength, hText, rfl⟩ := (encode_eq_ok hValid).mp hEncoded
    have hStorable : fact.content.Storable :=
      ⟨FactContent.version_of_validate hValid, FactContent.domain_of_validate hValid,
        FactContent.uses_of_validate hValid, hMemory, hKeys⟩
    have hDecoded := decode_stored hStorable hLength
    rw [hId, ← hText] at hDecoded
    exact hDecoded

end Rows

/-! ## Sample rows -/

section Sample

/-- Text in which every byte is one character. -/
@[reducible] def sampleText : StorageText where
  validKey _ := true
  encodeSignature bytes := String.ofList (bytes.map fun byte => Char.ofNat byte.toNat)
  decodeSignature text := some (text.toList.map fun char => UInt8.ofNat char.toNat)
  decode_encode bytes := by
    rw [String.toList_ofList, List.map_map]
    have hChar : ∀ n < 256, (Char.ofNat n).toNat = n := by decide +kernel
    refine congrArg some ((List.map_congr_left fun byte _ => ?_).trans (List.map_id bytes))
    show UInt8.ofNat (Char.ofNat byte.toNat).toNat = byte
    rw [hChar _ byte.toNat_lt, UInt8.ofNat_toNat]

/-- A member grant of the sample mesh, signed with 64 zero bytes. -/
def storedGrant : SignedFact :=
  { sampleGrant with
    signature := sampleText.encodeSignature (List.replicate signatureLength 0) }

/-- The grant is stored and read back. -/
theorem stored_facts_read_back_grant :
    @SignedFact.verify samplePlatform storedGrant = .ok () ∧
    ∃ bytes, @encode sampleText storedGrant = .ok bytes ∧
      @decode sampleText samplePlatform bytes storedGrant.content.meshContext
        storedGrant.content.author.bytes storedGrant.id.bytes = .ok storedGrant := by
  have hVerified : @SignedFact.verify samplePlatform storedGrant = .ok () := by decide +kernel
  have hMemory : storedGrant.content.InMemory := by
    refine ⟨?_, ?_, ?_, ?_⟩ <;> unfold Counted <;> decide +kernel
  have hKeys : @FactContent.KeysValid sampleText storedGrant.content := fun _ _ => rfl
  obtain ⟨hStored, hRead⟩ := (@stored_facts_read_back sampleText samplePlatform).1 storedGrant
    hVerified hMemory hKeys
  obtain ⟨bytes, hBytes⟩ := hStored.mpr ⟨List.replicate signatureLength 0, rfl, rfl⟩
  exact ⟨hVerified, bytes, hBytes, hRead bytes hBytes⟩

/-- A grant whose parents are out of order. -/
def disorderedContent : FactContent :=
  { sampleGrant.content with parents := [⟨9⟩, ⟨4⟩, ⟨3⟩] }

private theorem disorderedContent_storable :
    @FactContent.Storable sampleText disorderedContent := by
  refine @FactContent.Storable.mk sampleText _ rfl rfl (by decide +kernel) ?_ fun _ _ => rfl
  refine ⟨?_, ?_, ?_, ?_⟩ <;> unfold Counted <;> decide +kernel

/-- A row with its parents out of order is decoded, though its content is not valid. -/
theorem disordered_row_decoded : ∃ (_ : Platform) (_ : StorageText) (bytes : List UInt8)
    (context : MeshContextId) (author id : Bytes32) (fact : SignedFact),
    decode bytes context author id = .ok fact ∧
      fact.content.validate = .error .unsortedParents := by
  have hLength : (List.replicate signatureLength (0 : UInt8)).length = signatureLength := rfl
  exact ⟨samplePlatform, sampleText, _, _, _, _, _,
    @decode_stored sampleText samplePlatform _ _ disorderedContent_storable hLength,
    by decide +kernel⟩

end Sample

end MyOwnMesh.Semantic

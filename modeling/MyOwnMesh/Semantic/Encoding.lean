import MyOwnMesh.Foundation.Netstring
import MyOwnMesh.Semantic.Sample

/-!
# The canonical encoding is injective

Every field of the canonical encoding can be read off the front of what
follows it: tags and byte fields carry their length, identities are 32 bytes,
lists carry their count. Two contents with the same canonical bytes are
therefore equal, and a digest without a collision identifies its content.

Counts are 64-bit. That is no restriction on the program's values, whose
vectors live in memory, but it is one on lists; `FactContent.InMemory` states
it.
-/

namespace MyOwnMesh.Semantic

open Foundation

/-! ## Numbers and identities -/

theorem beBytes_length (width value : Nat) : (beBytes width value).length = width := by
  induction width with
  | zero => rfl
  | succ width ih => rw [beBytes, List.length_cons, ih]

private theorem beBytes_mod (width : Nat) : ∀ {a b : Nat}, beBytes width a = beBytes width b →
    a % 256 ^ width = b % 256 ^ width := by
  induction width with
  | zero =>
    intro a b _
    rw [Nat.pow_zero, Nat.mod_one, Nat.mod_one]
  | succ width ih =>
    intro a b hEq
    obtain ⟨hHead, hTail⟩ := List.cons.inj hEq
    have hLow := ih hTail
    have hHigh : a / 256 ^ width % 256 = b / 256 ^ width % 256 := by
      have := congrArg UInt8.toNat hHead
      simpa using this
    rw [Nat.pow_succ, Nat.mod_mul, Nat.mod_mul, hLow, hHigh]

/-- Numbers below the width can be read back. -/
theorem beBytes_delimited (width : Nat) : Delimited (· < 256 ^ width) (beBytes width) := by
  refine Delimited.of_length (beBytes_length width) fun a b ha hb hEq => ?_
  rw [← Nat.mod_eq_of_lt ha, ← Nat.mod_eq_of_lt hb]
  exact beBytes_mod width hEq

theorem DeviceId.bytes_injective : Function.Injective DeviceId.bytes := by
  rintro ⟨a, textA, hA⟩ ⟨b, textB, hB⟩ h
  change a = b at h
  subst h hA hB
  rfl

/-- Thirty-two bytes determine a digest, and whatever it identifies. -/
private theorem digest_delimited {α : Type} (bytes : α → Fin (2 ^ 256))
    (hBytes : Function.Injective bytes) :
    Delimited (fun _ => True) fun a : α => beBytes 32 (bytes a).val :=
  fun a b r s _ _ hEq => by
    obtain ⟨hVal, hRest⟩ := beBytes_delimited 32 (bytes a).isLt (bytes b).isLt hEq
    exact ⟨hBytes (Fin.ext hVal), hRest⟩

theorem id_delimited : Delimited (fun _ => True) Encoder.id :=
  digest_delimited FactId.bytes fun ⟨_⟩ ⟨_⟩ h => congrArg FactId.mk h

theorem device_delimited : Delimited (fun _ => True) Encoder.device :=
  digest_delimited DeviceId.bytes DeviceId.bytes_injective

theorem context_delimited : Delimited (fun _ => True) Encoder.context :=
  digest_delimited MeshContextId.bytes fun ⟨_⟩ ⟨_⟩ h => congrArg MeshContextId.mk h

/-! ## Tags and lists -/

theorem tag_length (value : String) : (Encoder.tag value).length = 8 + value.utf8ByteSize := by
  unfold Encoder.tag Encoder.text
  rw [List.length_append, beBytes_length]
  exact congrArg (8 + ·) (textBytes_length value)

/-- A tag in front of any text determines the tag. -/
theorem tag_delimited :
    Delimited (fun value : String => value.utf8ByteSize < 2 ^ 64) Encoder.tag := by
  intro a b r s ha hb hEq
  unfold Encoder.tag Encoder.text at hEq
  rw [List.append_assoc, List.append_assoc] at hEq
  obtain ⟨hSize, hRest⟩ := beBytes_delimited 8 ha hb hEq
  have hLength : (textBytes a).length = (textBytes b).length := by
    rw [textBytes_length, textBytes_length, hSize]
  obtain ⟨hBytes, hEnd⟩ := List.append_inj hRest hLength
  exact ⟨textBytes_injective hBytes, hEnd⟩

/-- Whether a list's count fits its 64-bit prefix. -/
def Counted {α : Type} (values : List α) : Prop := values.length < 2 ^ 64

theorem listIds_delimited : Delimited Counted Encoder.listIds := by
  intro xs ys r s hxs hys hEq
  exact (beBytes_delimited 8).counted id_delimited ⟨hxs, fun _ _ => trivial⟩
    ⟨hys, fun _ _ => trivial⟩ hEq

private theorem authorityUse_delimited :
    Delimited (fun use : AuthorityUse => Counted use.predecessors)
      fun use => Encoder.device use.subject ++ Encoder.listIds use.predecessors := by
  rintro ⟨a, xs⟩ ⟨b, ys⟩ r s hxs hys hEq
  rw [List.append_assoc, List.append_assoc] at hEq
  obtain ⟨rfl, rfl, hRest⟩ :=
    device_delimited.append listIds_delimited trivial trivial hxs hys hEq
  exact ⟨rfl, hRest⟩

theorem listAuthorityUses_delimited :
    Delimited (fun uses : List AuthorityUse => Counted uses ∧ ∀ use ∈ uses,
      Counted use.predecessors) Encoder.listAuthorityUses :=
  (beBytes_delimited 8).counted authorityUse_delimited

/-! ## Cells and bodies -/

theorem Role.tag_injective : Function.Injective Role.tag := by
  intro a b
  cases a <;> cases b <;> decide

theorem AttestationDecision.tag_injective : Function.Injective AttestationDecision.tag := by
  intro a b
  cases a <;> cases b <;> decide

theorem FactDomain.tag_injective : Function.Injective FactDomain.tag := by
  intro a b
  cases a <;> cases b <;> decide

private theorem Role.tag_size (role : Role) : role.tag.utf8ByteSize < 2 ^ 64 := by
  cases role <;> decide +kernel

private theorem AttestationDecision.tag_size (decision : AttestationDecision) :
    decision.tag.utf8ByteSize < 2 ^ 64 := by
  cases decision <;> decide +kernel

private theorem FactDomain.tag_size (domain : FactDomain) : domain.tag.utf8ByteSize < 2 ^ 64 := by
  cases domain <;> decide +kernel

private def ExclusiveCell.tag : ExclusiveCell → String
  | .role _ => "role"
  | .membership _ => "membership"
  | .decision _ => "decision"

private theorem ExclusiveCell.tag_size (cell : ExclusiveCell) : cell.tag.utf8ByteSize < 2 ^ 64 := by
  cases cell <;> dsimp only [ExclusiveCell.tag] <;> decide +kernel

private def ExclusiveCell.field : ExclusiveCell → List UInt8
  | .role subject | .membership subject => Encoder.device subject
  | .decision proposal => Encoder.id proposal

theorem cell_delimited : Delimited (fun _ => True) ExclusiveCell.encode := by
  intro a b r s _ _ hEq
  have hEncode : ∀ cell : ExclusiveCell, cell.encode = Encoder.tag cell.tag ++ cell.field :=
    fun cell => by cases cell <;> rfl
  rw [hEncode, hEncode, List.append_assoc, List.append_assoc] at hEq
  obtain ⟨hTag, hField⟩ := tag_delimited a.tag_size b.tag_size hEq
  cases a <;> cases b <;> dsimp only [ExclusiveCell.tag] at hTag <;>
    try exact absurd hTag (by decide)
  · obtain ⟨rfl, hRest⟩ := device_delimited trivial trivial hField
    exact ⟨rfl, hRest⟩
  · obtain ⟨rfl, hRest⟩ := device_delimited trivial trivial hField
    exact ⟨rfl, hRest⟩
  · obtain ⟨rfl, hRest⟩ := id_delimited trivial trivial hField
    exact ⟨rfl, hRest⟩

private def FactBody.tag : FactBody → String
  | .roleGrant .. => "role_grant"
  | .roleRevoke _ => "role_revoke"
  | .evict _ => "evict"
  | .membershipAdmit _ => "membership_admit"
  | .evictionProof .. => "eviction_proof"
  | .selfStandDown .. => "self_stand_down"
  | .attestation .. => "attestation"
  | .resolution .. => "resolution"
  | .authorityLineageResolution .. => "authority_lineage_resolution"

private theorem FactBody.tag_size (body : FactBody) : body.tag.utf8ByteSize < 2 ^ 64 := by
  cases body <;> dsimp only [FactBody.tag] <;> decide +kernel

open Encoder in
private def FactBody.fields : FactBody → List UInt8
  | .roleGrant target role => device target ++ (Encoder.tag role.tag ++ [])
  | .roleRevoke target | .evict target | .membershipAdmit target => device target ++ []
  | .evictionProof target evidence | .selfStandDown target evidence =>
    device target ++ (listIds evidence ++ [])
  | .attestation target proposal decision signer contributions =>
    device target ++ (Encoder.id proposal ++ (Encoder.tag decision.tag ++
      (device signer ++ (listIds contributions ++ []))))
  | .resolution cell citedHeads selectedHead =>
    cell.encode ++ (listIds citedHeads ++ (Encoder.id selectedHead ++ []))
  | .authorityLineageResolution subject citedHeads selectedHead =>
    device subject ++ (listIds citedHeads ++ (Encoder.id selectedHead ++ []))

private theorem FactBody.encode_eq (body : FactBody) :
    body.encode = Encoder.tag body.tag ++ body.fields := by
  cases body <;>
    simp only [FactBody.encode, FactBody.tag, FactBody.fields, List.append_assoc, List.append_nil]

/-- Bodies whose lists are counted in 64 bits are determined by their encoding. -/
theorem FactBody.encode_injective {a b : FactBody} (ha : Counted a.support)
    (hb : Counted b.support) (hEq : a.encode = b.encode) : a = b := by
  rw [FactBody.encode_eq, FactBody.encode_eq] at hEq
  obtain ⟨hTag, hFields⟩ := tag_delimited a.tag_size b.tag_size hEq
  cases a <;> cases b <;> dsimp only [FactBody.tag] at hTag <;>
    try exact absurd hTag (by decide)
  case roleGrant.roleGrant target role target' role' =>
      obtain ⟨rfl, hRole, -⟩ :=
        device_delimited.append tag_delimited trivial trivial role.tag_size role'.tag_size hFields
      rw [Role.tag_injective hRole]
  case roleRevoke.roleRevoke =>
      obtain ⟨rfl, -⟩ := device_delimited trivial trivial hFields
      rfl
  case evict.evict =>
      obtain ⟨rfl, -⟩ := device_delimited trivial trivial hFields
      rfl
  case membershipAdmit.membershipAdmit =>
      obtain ⟨rfl, -⟩ := device_delimited trivial trivial hFields
      rfl
  case evictionProof.evictionProof =>
      obtain ⟨rfl, rfl, -⟩ :=
        device_delimited.append listIds_delimited trivial trivial ha hb hFields
      rfl
  case selfStandDown.selfStandDown =>
      obtain ⟨rfl, rfl, -⟩ :=
        device_delimited.append listIds_delimited trivial trivial ha hb hFields
      rfl
  case attestation.attestation target proposal decision signer contributions
      target' proposal' decision' signer' contributions' =>
      obtain ⟨rfl, rfl, hRest⟩ :=
        device_delimited.append id_delimited trivial trivial trivial trivial hFields
      obtain ⟨hDecision, rfl, hIds⟩ := tag_delimited.append device_delimited
        decision.tag_size decision'.tag_size trivial trivial hRest
      obtain ⟨rfl, -⟩ := listIds_delimited (Nat.lt_of_succ_lt ha) (Nat.lt_of_succ_lt hb) hIds
      rw [AttestationDecision.tag_injective hDecision]
  case resolution.resolution =>
      obtain ⟨rfl, rfl, hRest⟩ :=
        cell_delimited.append listIds_delimited trivial trivial ha hb hFields
      obtain ⟨rfl, -⟩ := id_delimited trivial trivial hRest
      rfl
  case authorityLineageResolution.authorityLineageResolution =>
      obtain ⟨rfl, rfl, hRest⟩ :=
        device_delimited.append listIds_delimited trivial trivial ha hb hFields
      obtain ⟨rfl, -⟩ := id_delimited trivial trivial hRest
      rfl

/-! ## Contents -/

/-- The vectors of a content hold fewer than `2 ^ 64` elements, as every vector
in memory does. -/
structure FactContent.InMemory (content : FactContent) : Prop where
  parents : Counted content.parents
  uses : Counted content.authorityUses
  predecessors : ∀ use ∈ content.authorityUses, Counted use.predecessors
  support : Counted content.body.support

theorem FactContent.version_of_validate {content : FactContent} (h : content.validate = .ok ()) :
    content.version = semanticSchemaVersion := by
  by_contra hVersion
  unfold FactContent.validate at h
  rw [if_pos hVersion] at h
  cases h

theorem FactContent.canonicalBytes_injective {a b : FactContent} (ha : a.validate = .ok ())
    (hb : b.validate = .ok ()) (hMa : a.InMemory) (hMb : b.InMemory)
    (hEq : a.canonicalBytes = b.canonicalBytes) : a = b := by
  have hVersion : a.version = b.version := by
    rw [version_of_validate ha, version_of_validate hb]
  unfold FactContent.canonicalBytes at hEq
  rw [hVersion] at hEq
  simp only [List.append_assoc] at hEq
  have hEq := List.append_cancel_left (List.append_cancel_left hEq)
  have hEq := List.append_cancel_left (List.append_cancel_left hEq)
  obtain ⟨hDomain, hContext, hEq⟩ := tag_delimited.append context_delimited
    a.domain.tag_size b.domain.tag_size trivial trivial hEq
  obtain ⟨hAuthor, hEq⟩ := device_delimited trivial trivial hEq
  obtain ⟨hParents, hEq⟩ := listIds_delimited hMa.parents hMb.parents
    (List.append_cancel_left hEq)
  obtain ⟨hUses, hEq⟩ := listAuthorityUses_delimited ⟨hMa.uses, hMa.predecessors⟩
    ⟨hMb.uses, hMb.predecessors⟩ (List.append_cancel_left hEq)
  have hBody := FactBody.encode_injective hMa.support hMb.support (List.append_cancel_left hEq)
  cases a
  cases b
  rw [FactContent.mk.injEq]
  exact ⟨hVersion, FactDomain.tag_injective hDomain, hContext, hBody, hAuthor, hParents, hUses⟩

/-- A verified fact has valid content and the identity derived from it. -/
theorem SignedFact.verify_ok [Platform] {fact : SignedFact} (h : fact.verify = .ok ()) :
    fact.content.validate = .ok () ∧ FactId.fromContent fact.content = fact.id := by
  unfold SignedFact.verify at h
  cases hValid : fact.content.validate with
  | error e =>
    rw [hValid] at h
    cases h
  | ok _ =>
    refine ⟨rfl, ?_⟩
    by_contra hId
    rw [hValid] at h
    simp only [bind, Except.bind] at h
    rw [if_pos hId] at h
    cases h

/-- Valid contents with equal canonical bytes are equal in every field; and
where the digest does not collide on the two encodings, verified facts with one
identity have one content. -/
theorem canonical_encoding_injective :
    (∀ a b : FactContent, a.validate = .ok () → b.validate = .ok () → a.InMemory → b.InMemory →
      a.canonicalBytes = b.canonicalBytes → a = b) ∧
    ∀ [Platform] (f g : SignedFact), f.verify = .ok () → g.verify = .ok () →
      f.content.InMemory → g.content.InMemory →
      Set.InjOn Platform.sha256 {f.content.canonicalBytes, g.content.canonicalBytes} →
      f.id = g.id → f.content = g.content := by
  refine ⟨fun a b ha hb hMa hMb => FactContent.canonicalBytes_injective ha hb hMa hMb, ?_⟩
  intro _ f g hf hg hMf hMg hCollision hId
  obtain ⟨hValidF, hIdF⟩ := SignedFact.verify_ok hf
  obtain ⟨hValidG, hIdG⟩ := SignedFact.verify_ok hg
  refine FactContent.canonicalBytes_injective hValidF hValidG hMf hMg ?_
  refine hCollision (Set.mem_insert _ _) (Set.mem_insert_of_mem _ rfl) ?_
  have hDigest : FactId.fromContent f.content = FactId.fromContent g.content := by
    rw [hIdF, hIdG, hId]
  exact congrArg FactId.bytes hDigest

/-- A member grant above two facts of its author and one other parent. -/
def sampleGrant : SignedFact :=
  sampleFact (sampleDevice 1) (.roleGrant (sampleDevice 2) .member)
    [(sampleDevice 1, [⟨3⟩, ⟨4⟩])] [⟨9⟩]

/-- The same grant under another signature string has the same content. -/
theorem canonical_encoding_injective_sample :
    sampleGrant ≠ { sampleGrant with signature := "other" } ∧
      sampleGrant.content = ({ sampleGrant with signature := "other" } : SignedFact).content := by
  have hValid : sampleGrant.content.validate = .ok () := by decide +kernel
  have hMemory : sampleGrant.content.InMemory := by
    refine ⟨?_, ?_, ?_, ?_⟩ <;> unfold Counted <;> decide +kernel
  have hVerify : @SignedFact.verify samplePlatform sampleGrant = .ok () :=
    sampleSigned_verify hValid
  have hOther : @SignedFact.verify samplePlatform { sampleGrant with signature := "other" } =
      .ok () := hVerify
  refine ⟨fun h => absurd (congrArg SignedFact.signature h) (by decide), ?_⟩
  let _ : Platform := samplePlatform
  exact canonical_encoding_injective.2 sampleGrant { sampleGrant with signature := "other" }
    hVerify hOther hMemory hMemory (by simp) rfl

end MyOwnMesh.Semantic

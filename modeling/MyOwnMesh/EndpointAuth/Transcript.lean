import Mathlib.Data.String.Basic
import MyOwnMesh.Foundation.Netstring

/-!
# The signed transcript of endpoint authentication

The context one attempt is fixed to and the bytes each role signs. Every paired
field is put in the order of the roles, which follow from the two device ids, so
both endpoints frame the same bytes from opposite views; and every field stands
behind its length, so the bytes determine the fields. Together: what one endpoint
verifies is what another signed only if their contexts are mirror images.
-/

namespace MyOwnMesh.EndpointAuth

open Foundation

/-- Domain tag of every endpoint-authentication transcript. -/
def endpointAuthDomainTag : String := "myownmesh-endpoint-auth-v1:"

/-- The ordered roles of one attempt. -/
inductive EndpointRole where
  | initiator
  | responder
deriving DecidableEq

namespace EndpointRole

def tag : EndpointRole → String
  | initiator => "initiator"
  | responder => "responder"

def peer : EndpointRole → EndpointRole
  | initiator => responder
  | responder => initiator

end EndpointRole

/-- The one closed profile. -/
inductive EndpointAuthProfile where
  | v1Ed25519Dtls
deriving DecidableEq

def EndpointAuthProfile.tag : EndpointAuthProfile → String
  | v1Ed25519Dtls => "ed25519-dtls-v1"

/-- The connector's fingerprint pair, relative to this endpoint. -/
structure EndpointAuthBinding where
  localComponent : String
  remoteComponent : String
  local_present : localComponent ≠ ""
  remote_present : remoteComponent ≠ ""
deriving DecidableEq

def roleOf (localDeviceId remoteDeviceId : String) : EndpointRole :=
  if localDeviceId < remoteDeviceId then .initiator else .responder

/-- The facts one task authenticates under. -/
structure EndpointAuthContext where
  meshContext : String
  localDeviceId : String
  expectedRemoteDeviceId : String
  profile : EndpointAuthProfile
  binding : EndpointAuthBinding
  localRole : EndpointRole
  mesh_present : meshContext ≠ ""
  local_present : localDeviceId ≠ ""
  remote_present : expectedRemoteDeviceId ≠ ""
  role_eq : localRole = roleOf localDeviceId expectedRemoteDeviceId
deriving DecidableEq

/-- The nine signed fields, in the order of the roles. -/
def transcriptFields (meshContext : String) (profile : EndpointAuthProfile)
    (signer : EndpointRole) (localDeviceId remoteDeviceId localContribution remoteContribution
      localFingerprint remoteFingerprint : String) : List String :=
  match roleOf localDeviceId remoteDeviceId with
  | .initiator =>
    [meshContext, profile.tag, signer.tag, localDeviceId, remoteDeviceId, localContribution,
      remoteContribution, localFingerprint, remoteFingerprint]
  | .responder =>
    [meshContext, profile.tag, signer.tag, remoteDeviceId, localDeviceId, remoteContribution,
      localContribution, remoteFingerprint, localFingerprint]

/-- The exact bytes the named role must sign. -/
def transcriptBytes (meshContext : String) (profile : EndpointAuthProfile)
    (signer : EndpointRole) (localDeviceId remoteDeviceId localContribution remoteContribution
      localFingerprint remoteFingerprint : String) : List UInt8 :=
  textBytes endpointAuthDomainTag ++
    (transcriptFields meshContext profile signer localDeviceId remoteDeviceId localContribution
      remoteContribution localFingerprint remoteFingerprint).flatMap netstring

/-- The transcript of a task that has fixed its context. -/
def transcriptForContext (context : EndpointAuthContext) (signer : EndpointRole)
    (localContribution peerContribution : String) : List UInt8 :=
  transcriptBytes context.meshContext context.profile signer context.localDeviceId
    context.expectedRemoteDeviceId localContribution peerContribution
    context.binding.localComponent context.binding.remoteComponent

/-! ## What the bytes determine -/

/-- The other endpoint's view of the same attempt; it is another device. -/
structure Mirrors (context other : EndpointAuthContext) : Prop where
  mesh : other.meshContext = context.meshContext
  profile : other.profile = context.profile
  device : other.localDeviceId = context.expectedRemoteDeviceId
  remote : other.expectedRemoteDeviceId = context.localDeviceId
  distinct : other.localDeviceId ≠ context.localDeviceId
  localComponent : other.binding.localComponent = context.binding.remoteComponent
  remoteComponent : other.binding.remoteComponent = context.binding.localComponent

theorem transcriptFields_length (meshContext : String) (profile : EndpointAuthProfile)
    (signer : EndpointRole) (a b c d e f : String) :
    (transcriptFields meshContext profile signer a b c d e f).length = 9 := by
  unfold transcriptFields
  cases roleOf a b <;> rfl

theorem lt_of_roleOf {a b : String} (h : roleOf a b = .initiator) : a < b := by
  unfold roleOf at h
  split at h
  · next hLt => exact hLt
  · cases h

/-- Two framings of the same bytes have the same fields. -/
theorem fields_eq_of_flatMap {xs ys : List String} (hLength : xs.length = ys.length)
    (h : textBytes endpointAuthDomainTag ++ xs.flatMap netstring =
      textBytes endpointAuthDomainTag ++ ys.flatMap netstring) : xs = ys := by
  have hFields := List.append_cancel_left h
  have hEnd : xs.flatMap netstring ++ [] = ys.flatMap netstring ++ [] := by rw [hFields]
  exact (netstring_delimited.flatMap hLength (fun _ _ => trivial) (fun _ _ => trivial) hEnd).1

/-- The bytes one endpoint verifies are bytes another signs only as its mirror image,
with the contributions exchanged. -/
theorem mirrors_of_transcript_eq {context other : EndpointAuthContext}
    {localContribution peerContribution ownContribution boundContribution : String}
    (h : transcriptForContext context context.localRole.peer localContribution peerContribution =
      transcriptForContext other other.localRole ownContribution boundContribution) :
    Mirrors context other ∧ ownContribution = peerContribution ∧
      boundContribution = localContribution := by
  have hProfile : other.profile = context.profile := by
    cases other.profile
    cases context.profile
    rfl
  have hFields := fields_eq_of_flatMap
    (by rw [transcriptFields_length, transcriptFields_length]) h
  unfold transcriptFields at hFields
  rw [context.role_eq, other.role_eq] at hFields
  cases hOwn : roleOf context.localDeviceId context.expectedRemoteDeviceId with
  | initiator =>
    cases hPeer : roleOf other.localDeviceId other.expectedRemoteDeviceId with
    | initiator =>
      -- both in the same role: the signer tags differ
      rw [hOwn, hPeer] at hFields
      simp [EndpointRole.peer, EndpointRole.tag] at hFields
    | responder =>
      rw [hOwn, hPeer] at hFields
      simp only [List.cons.injEq, and_true] at hFields
      obtain ⟨hMesh, -, -, hInitiator, hResponder, hFirst, hSecond, hPrint, hOtherPrint⟩ :=
        hFields
      have hDistinct : other.localDeviceId ≠ context.localDeviceId := by
        rw [← hResponder]
        exact ne_of_gt (lt_of_roleOf hOwn)
      exact ⟨⟨hMesh.symm, hProfile, hResponder.symm, hInitiator.symm, hDistinct,
        hOtherPrint.symm, hPrint.symm⟩, hSecond.symm, hFirst.symm⟩
  | responder =>
    cases hPeer : roleOf other.localDeviceId other.expectedRemoteDeviceId with
    | initiator =>
      rw [hOwn, hPeer] at hFields
      simp only [List.cons.injEq, and_true] at hFields
      obtain ⟨hMesh, -, -, hInitiator, hResponder, hFirst, hSecond, hPrint, hOtherPrint⟩ :=
        hFields
      have hDistinct : other.localDeviceId ≠ context.localDeviceId := by
        rw [hResponder]
        exact ne_of_lt (lt_of_roleOf hPeer)
      exact ⟨⟨hMesh.symm, hProfile, hInitiator.symm, hResponder.symm, hDistinct, hPrint.symm,
        hOtherPrint.symm⟩, hFirst.symm, hSecond.symm⟩
    | responder =>
      rw [hOwn, hPeer] at hFields
      simp [EndpointRole.peer, EndpointRole.tag] at hFields

end MyOwnMesh.EndpointAuth

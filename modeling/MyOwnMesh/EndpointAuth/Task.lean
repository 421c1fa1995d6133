import MyOwnMesh.EndpointAuth.Transcript

/-!
# The endpoint-authentication task

One owner of one attempt over one channel: it binds the first peer contribution,
signs once, verifies the peer's half and moves the channel out. Each call is one
critical section of the task's lock, modelled as a function that returns the
answer, the task after it and the effects it had outside: a signature, and the
channel handed on or released. `terminalize` is the only way a task ends.
-/

namespace MyOwnMesh.EndpointAuth

/-- Signatures of devices and the digest of a transcript. -/
class EndpointCrypto where
  sign : String → List UInt8 → String
  verify : String → List UInt8 → String → Bool
  digestOf : List UInt8 → String

/-- Why an authentication failed. -/
inductive EndpointAuthError where
  | noBoundTranscript
  | notMutual
  | contributionNotFresh
  | signatureInvalid
  | channelNotCurrent
  | conflictingPeerContribution
deriving DecidableEq

/-- The connected channel; its capability names the runtime. -/
structure ConnectedChannelHandoff where
  incarnation : Nat
  capability : Option Nat
deriving DecidableEq

/-- What an authenticated channel is bound to. -/
structure AuthenticatedBindingRecord where
  meshContext : String
  localDeviceId : String
  remoteDeviceId : String
  localRole : EndpointRole
  transcriptDigest : String
  connector : Nat
  runtime : Nat
deriving DecidableEq

/-- What a promotion hands out. -/
structure AuthenticatedChannelCapability where
  record : AuthenticatedBindingRecord
  handoff : ConnectedChannelHandoff
deriving DecidableEq

/-- The minimal identity of what a task issued. -/
structure IssuedIdentity where
  transcriptDigest : String
  runtime : Nat
deriving DecidableEq

/-- Either answer carries the local proof. -/
inductive AcceptedPeerHello where
  | firstBinding (proof : String)
  | exactDuplicate (proof : String)
deriving DecidableEq

def AcceptedPeerHello.proof : AcceptedPeerHello → String
  | firstBinding proof | exactDuplicate proof => proof

inductive PeerProofAcceptance where
  | promoted (capability : AuthenticatedChannelCapability)
  | alreadyPromoted
deriving DecidableEq

/-- What the exchange has bound so far. -/
inductive ExchangeState where
  | awaitingPeerContribution
  | bound (peerContribution localProof : String)
  | terminal (error : EndpointAuthError)
  | promoted (peerContribution localProof : String) (issued : IssuedIdentity)
deriving DecidableEq

/-- What a call does outside of the task. -/
inductive Effect where
  | signed (device : String) (message : List UInt8)
  | moved (handoff : ConnectedChannelHandoff)
  | released (handoff : ConnectedChannelHandoff)
deriving DecidableEq

/-- The owner of one attempt, with what it holds under its lock. -/
structure EndpointAuthTask where
  incarnation : Nat
  retired : Bool
  context : EndpointAuthContext
  signer : String
  localContribution : String
  handoff : Option ConnectedChannelHandoff
  state : ExchangeState
deriving DecidableEq

namespace EndpointAuthTask

/-- The task of a connected channel, before the peer's Hello. -/
def begin (context : EndpointAuthContext) (handoff : ConnectedChannelHandoff) (signer : String)
    (contribution : String) : EndpointAuthTask where
  incarnation := handoff.incarnation
  retired := false
  context
  signer
  localContribution := contribution
  handoff := some handoff
  state := .awaitingPeerContribution

/-- The one way to end: the first cause wins, and a held channel is released. -/
def terminalize (task : EndpointAuthTask) (cause : EndpointAuthError) :
    EndpointAuthError × EndpointAuthTask × List Effect :=
  match task.state with
  | .terminal existing => (existing, { task with retired := true }, [])
  | _ =>
    (cause, { task with retired := true, handoff := none, state := .terminal cause },
      task.handoff.toList.map Effect.released)

def isRetired (task : EndpointAuthTask) : Bool := task.retired

def retire (task : EndpointAuthTask) : EndpointAuthTask × List Effect :=
  (task.terminalize .channelNotCurrent).2

/-- The bytes this endpoint signs for a peer contribution. -/
def localTranscript (task : EndpointAuthTask) (peerContribution : String) : List UInt8 :=
  transcriptForContext task.context task.context.localRole task.localContribution peerContribution

/-- The bytes the peer must have signed. -/
def peerTranscript (task : EndpointAuthTask) (peerContribution : String) : List UInt8 :=
  transcriptForContext task.context task.context.localRole.peer task.localContribution
    peerContribution

/-- End with a cause, as the answer of a call. -/
def refuse {α : Type} (task : EndpointAuthTask) (cause : EndpointAuthError) :
    Except EndpointAuthError α × EndpointAuthTask × List Effect :=
  let ended := task.terminalize cause
  (.error ended.1, ended.2.1, ended.2.2)

variable [EndpointCrypto]

/-- Bind the peer contribution and answer with this endpoint's proof. -/
def acceptPeerHello (task : EndpointAuthTask) (peerContribution : String) :
    Except EndpointAuthError AcceptedPeerHello × EndpointAuthTask × List Effect :=
  match task.state with
  | .terminal error => (.error error, task, [])
  | .bound bound localProof | .promoted bound localProof _ =>
    if bound = peerContribution then (.ok (.exactDuplicate localProof), task, [])
    else task.refuse .conflictingPeerContribution
  | .awaitingPeerContribution =>
    if peerContribution = task.localContribution then task.refuse .contributionNotFresh
    else if task.context.localDeviceId = task.context.expectedRemoteDeviceId then
      task.refuse .notMutual
    else
      let transcript := task.localTranscript peerContribution
      let localProof := EndpointCrypto.sign task.signer transcript
      (.ok (.firstBinding localProof), { task with state := .bound peerContribution localProof },
        [.signed task.signer transcript])

/-- Verify the peer's half and promote: the channel moves into the capability. -/
def acceptPeerProof (task : EndpointAuthTask) (peerSignature : String) :
    Except EndpointAuthError PeerProofAcceptance × EndpointAuthTask × List Effect :=
  match task.state with
  | .terminal error => (.error error, task, [])
  | .promoted _ _ _ => (.ok .alreadyPromoted, task, [])
  | .awaitingPeerContribution => task.refuse .noBoundTranscript
  | .bound peerContribution localProof =>
    let peerTranscript := task.peerTranscript peerContribution
    if EndpointCrypto.verify task.context.expectedRemoteDeviceId peerTranscript peerSignature then
      match task.handoff with
      | none => task.refuse .channelNotCurrent
      | some handoff =>
        match handoff.capability with
        | none =>
          let ended := { task with handoff := none }.refuse .channelNotCurrent
          (ended.1, ended.2.1, .released handoff :: ended.2.2)
        | some runtime =>
          let record : AuthenticatedBindingRecord :=
            { meshContext := task.context.meshContext
              localDeviceId := task.context.localDeviceId
              remoteDeviceId := task.context.expectedRemoteDeviceId
              localRole := task.context.localRole
              transcriptDigest := EndpointCrypto.digestOf peerTranscript
              connector := handoff.incarnation
              runtime }
          (.ok (.promoted ⟨record, handoff⟩),
            { task with
              handoff := none
              state := .promoted peerContribution localProof
                ⟨record.transcriptDigest, record.runtime⟩ },
            [.moved handoff])
    else task.refuse .signatureInvalid

end EndpointAuthTask

end MyOwnMesh.EndpointAuth

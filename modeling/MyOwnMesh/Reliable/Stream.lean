import Mathlib.Algebra.Order.Ring.Nat
import Mathlib.Data.Fin.Basic

/-!
# The reliable stream of a session

The acknowledged-delivery state one promoted session owns: the frames it retains
until the peer acknowledges them, and the mark of what it has accepted from the
peer. A caller's wait is known by a number; every operation returns the outcomes
it has sent to such waits.

The bytes of a frame and whether the resource provider funds an operation are
given from outside, as are the callers that have dropped their wait.
-/

namespace MyOwnMesh.Reliable

def maxSeq : Nat := 2 ^ 64 - 1

/-- `u64::checked_add` of one. -/
def checkedSucc (n : Nat) : Option Nat := if n < maxSeq then some (n + 1) else none

/-- The successor where it is defined. -/
theorem eq_succ_of_checkedSucc {n next : Nat} (h : checkedSucc n = some next) : next = n + 1 := by
  unfold checkedSucc at h
  split at h
  · exact (Option.some.inj h).symm
  · cases h

/-- A frame of the stream. -/
structure ChannelSeq (P : Type) where
  stream : Nat
  seq : Nat
  channel : String
  payload : P
deriving DecidableEq

/-- The wire encoding of frames; what is encoded decodes to the same frame. The
JSON encoding of the source keeps this law for payloads without floats: the
feature that reads a float back exactly is not enabled. -/
class FrameCodec (P : Type) where
  encode : ChannelSeq P → Option (List UInt8)
  decode : List UInt8 → Option (ChannelSeq P)
  decode_encode : ∀ {frame : ChannelSeq P} {bytes : List UInt8},
    encode frame = some bytes → decode bytes = some frame

abbrev CallerId := Nat

/-- What a caller is told: success, or a transport error with its text. -/
abbrev Outcome := Except String Unit

abbrev Resolution := CallerId × Outcome

/-- A frame retained until the peer acknowledges it. -/
structure PendingFrame where
  seq : Nat
  frame : List UInt8
  sent : Bool
  handedOut : Bool
  reply : Option CallerId
deriving DecidableEq

namespace PendingFrame

def resolve (frame : PendingFrame) (outcome : Outcome) : PendingFrame × List Resolution :=
  match frame.reply with
  | some caller => ({ frame with reply := none }, [(caller, outcome)])
  | none => (frame, [])

/-- Whether the caller this frame exists to answer has gone. -/
def abandoned (frame : PendingFrame) (gone : CallerId → Bool) : Bool :=
  match frame.reply with
  | some caller => gone caller
  | none => false

/-- A frame that ends unresolved tells its caller so. -/
def drop (frame : PendingFrame) : List Resolution :=
  (frame.resolve (.error "reliable send abandoned: the session that retained it is gone")).2

end PendingFrame

/-- The receiver's mark on the peer's stream. -/
structure InboundMark where
  stream : Option Nat
  lastSeq : Nat
deriving DecidableEq

/-- How a frame lies to what was delivered. -/
inductive InboundOutcome where
  | delivered (mark : Nat)
  | duplicate (mark : Nat)
  | gap (mark : Nat)
  | foreignStream
deriving DecidableEq

/-- The mark to acknowledge, if any. -/
def InboundOutcome.acknowledge : InboundOutcome → Option Nat
  | .delivered mark | .duplicate mark | .gap mark => some mark
  | .foreignStream => none

/-- Both directions of a reliable channel. -/
structure ReliableState where
  stream : Nat
  nextSeq : Nat
  pending : List PendingFrame
  inbound : InboundMark
deriving DecidableEq

/-- What the environment answers to one submission: the refusal of each fallible
step, and whether the frame encodes to its counted size. -/
structure Funding where
  claim : Option String
  retention : Option String
  nodeClaim : Option String
  node : Option String
  exact : Bool

/-- One frame owed to the wire, with the copy handed to the write. -/
structure UnsentFrame where
  seq : Nat
  bytes : List UInt8
deriving DecidableEq

/-- Release the never handed out, abandoned frames at the tail; the list is
newest first. The sequence number of each is given back. -/
def releaseTail (gone : CallerId → Bool) :
    List PendingFrame → Nat → List PendingFrame × Nat × List Resolution
  | [], nextSeq => ([], nextSeq, [])
  | frame :: older, nextSeq =>
    if !frame.handedOut && frame.abandoned gone then
      let rest := releaseTail gone older (frame.seq - 1)
      (rest.1, rest.2.1, frame.drop ++ rest.2.2)
    else (frame :: older, nextSeq, [])

/-- Settle the front frames that are sent and at or below `upTo`. -/
def settleFront (upTo : Nat) : List PendingFrame → List PendingFrame × Nat × List Resolution
  | [] => ([], 0, [])
  | frame :: newer =>
    if frame.sent && frame.seq ≤ upTo then
      let rest := settleFront upTo newer
      let answered := frame.resolve (.ok ())
      (rest.1, rest.2.1 + 1, answered.2 ++ answered.1.drop ++ rest.2.2)
    else (frame :: newer, 0, [])

/-- Change the first frame with the given number. -/
def updateSeq (seq : Nat) (change : PendingFrame → PendingFrame) :
    List PendingFrame → List PendingFrame
  | [] => []
  | frame :: newer =>
    if frame.seq = seq then change frame :: newer else frame :: updateSeq seq change newer

namespace ReliableState

def new (stream : Nat) : ReliableState where
  stream
  nextSeq := 0
  pending := []
  inbound := ⟨none, 0⟩

/-- Release every abandoned frame whose release tells the peer nothing untrue:
the newest ones never handed to a write, then the sent ones. -/
def releaseAbandoned (state : ReliableState) (gone : CallerId → Bool) :
    ReliableState × List Resolution :=
  let tail := releaseTail gone state.pending.reverse state.nextSeq
  let kept := tail.1.reverse
  let ended := kept.filter fun frame => frame.sent && frame.abandoned gone
  ({ state with
      nextSeq := tail.2.1
      pending := kept.filter fun frame => !(frame.sent && frame.abandoned gone) },
    tail.2.2 ++ ended.flatMap PendingFrame.drop)

section Submit

variable {P : Type} [FrameCodec P]

/-- The encoded frame of a submission, or why it is not retained. -/
def encodeFunded (frame : ChannelSeq P) (answers : Funding) : Except String (List UInt8) :=
  match FrameCodec.encode frame with
  | none => .error "reliable frame does not encode to a measurable size"
  | some bytes =>
    match answers.claim with
    | some e => .error ("reliable frame is not representable as a resource claim: " ++ e)
    | none =>
      match answers.retention with
      | some e =>
        .error ("reliable send refused: no capacity to retain the frame until it is " ++
          "acknowledged: " ++ e)
      | none =>
        match answers.nodeClaim with
        | some e =>
          .error ("reliable queue node is not representable as a resource claim: " ++ e)
        | none =>
          match answers.node with
          | some e =>
            .error ("reliable send refused: no capacity to retain its queue node: " ++ e)
          | none =>
            if answers.exact then .ok bytes
            else .error "reliable frame did not encode to its counted size"

/-- Retain one frame, or tell the caller why not. The sequence number is consumed
only if the frame is retained. -/
def submit (state : ReliableState) (channel : String) (payload : P) (reply : CallerId)
    (answers : Funding) : ReliableState × List Resolution :=
  match checkedSucc state.nextSeq with
  | none =>
    (state, [(reply, .error
      "reliable stream has no sequence numbers left; the session must be rebuilt")])
  | some seq =>
    match encodeFunded ⟨state.stream, seq, channel, payload⟩ answers with
    | .error text => (state, [(reply, .error text)])
    | .ok encoded =>
      ({ state with
          nextSeq := seq
          pending := state.pending ++
            [{ seq, frame := encoded, sent := false, handedOut := false, reply := some reply }] },
        [])

end Submit

/-- Whether this session still owes the wire anything. -/
def hasUnsent (state : ReliableState) (gone : CallerId → Bool) :
    Bool × ReliableState × List Resolution :=
  let swept := state.releaseAbandoned gone
  (swept.1.pending.any fun frame => !frame.sent, swept.1, swept.2)

/-- The next frame owed to the wire, with its copy when the provider funds it. -/
def nextUnsent (state : ReliableState) (gone : CallerId → Bool) (funded : Bool) :
    Option UnsentFrame × ReliableState × List Resolution :=
  let swept := state.releaseAbandoned gone
  match swept.1.pending.find? fun frame => !frame.sent with
  | none => (none, swept.1, swept.2)
  | some frame =>
    if funded then
      (some ⟨frame.seq, frame.frame⟩,
        { swept.1 with
          pending := updateSeq frame.seq (fun f => { f with handedOut := true })
            swept.1.pending },
        swept.2)
    else (none, swept.1, swept.2)

def markSent (state : ReliableState) (seq : Nat) : ReliableState :=
  { state with pending := updateSeq seq (fun f => { f with sent := true }) state.pending }

/-- Settle the frames an acknowledgement covers, and count them. -/
def acknowledge (state : ReliableState) (gone : CallerId → Bool) (stream upTo : Nat) :
    Nat × ReliableState × List Resolution :=
  if stream ≠ state.stream then (0, state, [])
  else
    let swept := state.releaseAbandoned gone
    let settled := settleFront upTo swept.1.pending
    (settled.2.1, { swept.1 with pending := settled.1 }, swept.2 ++ settled.2.2)

/-- Accept one inbound frame, delivering it only if it is the next one. The first
frame binds the stream, also when it is not delivered. -/
def tryReceive {P E : Type} (state : ReliableState) (frame : ChannelSeq P)
    (deliver : ChannelSeq P → Except E Unit) : Except E InboundOutcome × ReliableState :=
  let receiveBound (state : ReliableState) : Except E InboundOutcome × ReliableState :=
    match checkedSucc state.inbound.lastSeq with
    | none => (.ok (.gap state.inbound.lastSeq), state)
    | some next =>
      if frame.seq = next then
        match deliver frame with
        | .error e => (.error e, state)
        | .ok () =>
          (.ok (.delivered frame.seq),
            { state with inbound := { state.inbound with lastSeq := frame.seq } })
      else if frame.seq < next then (.ok (.duplicate state.inbound.lastSeq), state)
      else (.ok (.gap state.inbound.lastSeq), state)
  match state.inbound.stream with
  | none =>
    receiveBound { state with inbound := { state.inbound with stream := some frame.stream } }
  | some bound =>
    if bound ≠ frame.stream then (.ok .foreignStream, state) else receiveBound state

end ReliableState

end MyOwnMesh.Reliable

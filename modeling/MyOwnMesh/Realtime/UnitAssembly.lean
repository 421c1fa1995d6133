import MyOwnMesh.Foundation.Collections
import Mathlib.Order.Defs.LinearOrder

/-!
# RTP unit assembly

`RealtimeUnitAssembler` collects the payloads of one RTP timestamp by unwrapped
sequence number and hands a unit to its framing when the packets from the expected
start through the marker are all there. The start is the packet after the last consumed
unit; once an unfinished unit was dropped it is the first packet held, if the framing
says that it can begin a unit.

What the codec decides is a `RealtimeUnitFraming`; what the flow answers is the
environment of a push. A cursor past the end of a slice panics in the source and is the
error `outOfRange` here.
-/

namespace MyOwnMesh.Realtime

open Foundation

abbrev Payload := List (BitVec 8)

/-- The errors of assembly; `outOfRange` is a panic. -/
inductive UnitError where
  | transport (message : String)
  | outOfRange
deriving DecidableEq

/-- What the assembler reads of a packet. -/
structure RtpPacket where
  sequenceNumber : BitVec 16
  timestamp : BitVec 32
  marker : Bool
  payload : Payload
deriving DecidableEq

/-! ## Fragments of one unit -/

/-- The fragments of one unit in sequence order, each with its cursor. -/
@[ext]
structure UnitFragments where
  entries : List (Int × Payload)
  ordered : entries.Pairwise fun a b => a.1 < b.1

namespace UnitFragments

/-- The fragments of a map from `first` through `last`. -/
def new (parts : OrdMap Int Payload) (first last : Int) : UnitFragments where
  entries := parts.toList.filter fun entry => first ≤ entry.1 ∧ entry.1 ≤ last
  ordered := by
    refine List.Pairwise.filter _ ?_
    have hKeys := (Std.ExtTreeMap.ordered_keys (t := parts))
    rw [← Std.ExtTreeMap.map_fst_toList_eq_keys, List.pairwise_map] at hKeys
    exact hKeys.imp fun hLt => compare_lt_iff_lt.mp hLt

def iter (fragments : UnitFragments) : List (Int × Payload) := fragments.entries

/-- The payloads from one cursor through another. -/
def between (fragments : UnitFragments) (first last : Int) : List Payload :=
  (fragments.entries.filter fun entry => first ≤ entry.1 ∧ entry.1 ≤ last).map Prod.snd

end UnitFragments

/-- What only a codec can answer. -/
structure RealtimeUnitFraming where
  payloadStartsUnit : Payload → Bool
  framedLen : UnitFragments → Except UnitError Nat
  writeFramed : UnitFragments → Nat → Except UnitError Payload
  isEntryPoint : Payload → Bool

/-- A complete unit; `output` says whether a claim covers its bytes. -/
structure AssembledUnit where
  rtpTimestamp : BitVec 32
  entryPoint : Bool
  data : Payload
  output : Bool
deriving DecidableEq

/-- What the flow answers in one push: whether its port is still there, whether it opens a
unit and retains the fragment, and whether it covers the output. -/
structure FlowAnswers where
  port : Bool
  beginUnit : Bool
  retain : Bool
  reserveOutput : Bool

/-- A flow that refuses nothing. -/
def FlowAnswers.granting : FlowAnswers := ⟨true, true, true, true⟩

/-! ## The assembler -/

/-- The unit in progress and what is known of the stream. -/
structure RealtimeUnitAssembler where
  timestamp : BitVec 32
  /-- Payloads of the current timestamp by unwrapped sequence number. -/
  parts : OrdMap Int Payload
  markerSeq : Option Int
  /-- The marker of the last consumed unit. -/
  prevEnd : Option Int
  /-- The last raw sequence number with its unwrapped value. -/
  lastSeq : Option (BitVec 16 × Int)
  /-- Whether a reservation for the unit in progress is held. -/
  assembly : Bool

/-- RTP timestamp `a` is newer than `b`: the distance is below `u32::MAX / 2`. -/
def newerRtpTs (a b : BitVec 32) : Bool := a ≠ b ∧ (a - b).toNat < 4294967295 / 2

namespace RealtimeUnitAssembler

/-- An assembler that has seen no packet. -/
def guarded : RealtimeUnitAssembler :=
  { timestamp := 0
    parts := ∅
    markerSeq := none
    prevEnd := none
    lastSeq := none
    assembly := false }

/-- The unwrapped value of a raw sequence number; the anchor only advances. -/
def unwrapSeq (a : RealtimeUnitAssembler) (raw : BitVec 16) : Int × RealtimeUnitAssembler :=
  match a.lastSeq with
  | none => (raw.toNat, { a with lastSeq := some (raw, raw.toNat) })
  | some (lastRaw, lastUnwrapped) =>
    let delta := (raw - lastRaw).toInt
    let unwrapped := lastUnwrapped + delta
    (unwrapped, if 0 < delta then { a with lastSeq := some (raw, unwrapped) } else a)

def clearCurrent (a : RealtimeUnitAssembler) : RealtimeUnitAssembler :=
  { a with
    parts := ∅
    assembly := false }

/-- The unit of a newer timestamp begins; an unfinished one is dropped with its anchor. -/
def beginTimestamp (a : RealtimeUnitAssembler) (timestamp : BitVec 32) :
    RealtimeUnitAssembler :=
  { a.clearCurrent with
    prevEnd := if a.parts.isEmpty then a.prevEnd else none
    markerSeq := none
    timestamp := timestamp }

/-- The unit up to `last` is consumed; the next one anchors right after it. -/
def consumed (a : RealtimeUnitAssembler) (last : Int) : RealtimeUnitAssembler :=
  { a.clearCurrent with
    prevEnd := some last
    markerSeq := none }

/-- Where the unit being collected has to start. -/
def expectedStart (framing : RealtimeUnitFraming) (a : RealtimeUnitAssembler) : Option Int :=
  match a.prevEnd with
  | some prev => some (prev + 1)
  | none =>
    match a.parts.toList.head? with
    | none => none
    | some (lo, first) => if framing.payloadStartsUnit first then some lo else none

/-- The span of the unit being collected, when nothing of it is missing. -/
def completeSpan (framing : RealtimeUnitFraming) (a : RealtimeUnitAssembler) :
    Option (Int × Int) :=
  match a.markerSeq, expectedStart framing a with
  | some last, some first =>
    if last < first then none
    else if (UnitFragments.new a.parts first last).entries.length < (last - first + 1).toNat then
      none
    else some (first, last)
  | _, _ => none

/-- Frame the parts of a complete span and consume it. -/
def emitSpan (framing : RealtimeUnitFraming) (answers : FlowAnswers) (a : RealtimeUnitAssembler)
    (first last : Int) : Except UnitError (Option AssembledUnit) × RealtimeUnitAssembler :=
  match framing.framedLen (UnitFragments.new a.parts first last) with
  | .error e => (.error e, a.consumed last)
  | .ok framedLen =>
    if framedLen ≠ 0 ∧ ¬ (answers.port && answers.reserveOutput) then
      (.ok none, { a.clearCurrent with
        markerSeq := none
        prevEnd := none })
    else
      match framing.writeFramed (UnitFragments.new a.parts first last) framedLen with
      | .error e => (.error e, a.consumed last)
      | .ok data =>
        if data = [] then (.ok none, a.consumed last)
        else
          (.ok (some
            { rtpTimestamp := a.timestamp
              entryPoint := framing.isEntryPoint data
              data := data
              output := framedLen ≠ 0 }), a.consumed last)

/-- Emit the unit of a complete span. -/
def tryEmit (framing : RealtimeUnitFraming) (answers : FlowAnswers) (a : RealtimeUnitAssembler) :
    Except UnitError (Option AssembledUnit) × RealtimeUnitAssembler :=
  match completeSpan framing a with
  | none => (.ok none, a)
  | some (first, last) => emitSpan framing answers a first last

def noteMarker (a : RealtimeUnitAssembler) (seq : Int) (marker : Bool) : RealtimeUnitAssembler :=
  if marker then { a with markerSeq := some seq } else a

/-- What becomes of the assembler when a packet of the current timestamp is taken in. -/
inductive Collected where
  /-- The fragment is held, and the unit may be complete. -/
  | held (a : RealtimeUnitAssembler)
  | refused (result : Except UnitError (Option AssembledUnit)) (a : RealtimeUnitAssembler)

/-- Store a part under its sequence number, if it is funded. -/
def collect (answers : FlowAnswers) (a : RealtimeUnitAssembler) (seq : Int) (pkt : RtpPacket) :
    Collected :=
  if a.parts.contains seq then .held (a.noteMarker seq pkt.marker)
  else if ¬ answers.port then .refused (.ok none) a.clearCurrent
  else if ¬ a.assembly ∧ ¬ answers.beginUnit then .refused (.ok none) a.clearCurrent
  else if ¬ answers.retain then
    .refused (.error (.transport "real-time unit exceeded its owner-selected byte envelope"))
      { a.clearCurrent with prevEnd := none }
  else
    .held (({ a with
      assembly := true
      parts := a.parts.insert seq pkt.payload } : RealtimeUnitAssembler).noteMarker seq pkt.marker)

/-- What `push` does before it looks whether the unit is complete. -/
def takeIn (answers : FlowAnswers) (a : RealtimeUnitAssembler) (pkt : RtpPacket) : Collected :=
  if pkt.payload = [] then .refused (.ok none) a
  else
    let uninitialised := a.lastSeq.isNone
    let (seq, a) := a.unwrapSeq pkt.sequenceNumber
    if pkt.timestamp = a.timestamp then collect answers a seq pkt
    else if uninitialised || newerRtpTs pkt.timestamp a.timestamp then
      collect answers (a.beginTimestamp pkt.timestamp) seq pkt
    else .refused (.ok none) a

/-- Take in a packet, and emit the unit if it is complete. -/
def push (framing : RealtimeUnitFraming) (answers : FlowAnswers) (a : RealtimeUnitAssembler)
    (pkt : RtpPacket) : Except UnitError (Option AssembledUnit) × RealtimeUnitAssembler :=
  match takeIn answers a pkt with
  | .held a => tryEmit framing answers a
  | .refused result a => (result, a)

/-- The span of the unit that a push hands to the framing. -/
def framedSpan (framing : RealtimeUnitFraming) (answers : FlowAnswers)
    (a : RealtimeUnitAssembler) (pkt : RtpPacket) : Option (Int × Int) :=
  match takeIn answers a pkt with
  | .held a => completeSpan framing a
  | .refused _ _ => none

end RealtimeUnitAssembler

/-! ## Runs -/

/-- What a push did: the span it framed, and what it returned. -/
structure AssemblyStep where
  span : Option (Int × Int)
  result : Except UnitError (Option AssembledUnit)

namespace RealtimeUnitAssembler

/-- The pushes of some packets, with a flow that refuses nothing. -/
def steps (framing : RealtimeUnitFraming) (a : RealtimeUnitAssembler) :
    List RtpPacket → List AssemblyStep
  | [] => []
  | pkt :: later =>
    ⟨framedSpan framing .granting a pkt, (push framing .granting a pkt).1⟩ ::
      steps framing (push framing .granting a pkt).2 later

def after (framing : RealtimeUnitFraming) (a : RealtimeUnitAssembler)
    (pkts : List RtpPacket) : RealtimeUnitAssembler :=
  pkts.foldl (fun a pkt => (push framing .granting a pkt).2) a

end RealtimeUnitAssembler

def emittedUnits (steps : List AssemblyStep) : List AssembledUnit :=
  steps.filterMap fun step => step.result.toOption.join

end MyOwnMesh.Realtime

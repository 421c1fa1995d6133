import MyOwnMesh.Foundation.Program
import MyOwnMesh.Realtime.UnitAssembly

/-!
# H.264 Annex-B framing

Two passes over the fragments of a unit: `annexbOutputLen` validates them and computes
the length of the Annex-B output, `writeAnnexbOutput` builds it. Each reads three packet
formats: single NAL units, STAP-A aggregates and FU-A fragments. The contents of a
fragmented NAL unit are copied when its end fragment is met.
-/

namespace MyOwnMesh.Realtime

open Foundation

def annexbStartCode : Payload := [0, 0, 0, 1]

def outputLengthOverflow : UnitError := .transport "video unit output length overflowed"

def checkedAdd (a b : Nat) : Except UnitError Nat :=
  if a + b < 2 ^ 64 then .ok (a + b) else .error outputLengthOverflow

def addOutputLen (total bytes : Nat) : Except UnitError Nat := checkedAdd total bytes

/-- `payload[i]`. -/
def byteAt (payload : Payload) (i : Nat) : Except UnitError (BitVec 8) :=
  match payload[i]? with
  | some byte => .ok byte
  | none => .error .outOfRange

/-- `payload[first..last]`. -/
def sliceAt (payload : Payload) (first last : Nat) : Except UnitError Payload :=
  if first ≤ last ∧ last ≤ payload.length then .ok ((payload.drop first).take (last - first))
  else .error .outOfRange

/-- A big-endian length of two bytes. -/
def naluLen (hi lo : BitVec 8) : Nat := (hi.toNat <<< 8) ||| lo.toNat

/-! ## Length -/

/-- The units of an aggregate from `offset` on. -/
def stapALen (payload : Payload) (offset outputLen : Nat) : Except UnitError Nat :=
  if offset < payload.length then do
    let lengthEnd ← checkedAdd offset 2
    failIf (payload.length < lengthEnd)
      (.transport "h264 depacketize: truncated STAP-A length")
    let hi ← byteAt payload offset
    let lo ← byteAt payload (offset + 1)
    let naluEnd ← checkedAdd lengthEnd (naluLen hi lo)
    failIf (payload.length < naluEnd)
      (.transport "h264 depacketize: STAP-A unit exceeds packet")
    let outputLen ← addOutputLen outputLen annexbStartCode.length
    let outputLen ← addOutputLen outputLen (naluLen hi lo)
    -- `naluEnd` is `offset + 2 + naluLen`.
    stapALen payload (offset + 2 + naluLen hi lo) outputLen
  else .ok outputLen
termination_by payload.length - offset

/-- The output length and the bytes of an unfinished FU-A unit so far. -/
structure LenState where
  outputLen : Nat
  fuaContentBytes : Option Nat

/-- One packet of the pass that measures the output. -/
def lenStep (s : LenState) (payload : Payload) : Except UnitError LenState := do
  failIf (payload.length ≤ 2) (.transport "h264 depacketize: short packet")
  let first ← byteAt payload 0
  let naluType := (first &&& 0x1f).toNat
  if 1 ≤ naluType ∧ naluType ≤ 23 then
    let outputLen ← addOutputLen s.outputLen annexbStartCode.length
    let outputLen ← addOutputLen outputLen payload.length
    pure { s with outputLen := outputLen }
  else if naluType = 24 then
    let outputLen ← stapALen payload 1 s.outputLen
    pure { s with outputLen := outputLen }
  else if naluType = 28 then
    let accumulated ← checkedAdd (s.fuaContentBytes.getD 0) (payload.length - 2)
    let second ← byteAt payload 1
    if second &&& 0x40 ≠ 0 then
      let outputLen ← addOutputLen s.outputLen annexbStartCode.length
      let outputLen ← addOutputLen outputLen 1
      let outputLen ← addOutputLen outputLen accumulated
      pure ⟨outputLen, none⟩
    else pure ⟨s.outputLen, some accumulated⟩
  else .error (.transport s!"h264 depacketize: NAL type {naluType} is not handled")

def annexbOutputLen (fragments : UnitFragments) : Except UnitError Nat := do
  let s ← fragments.iter.foldlM (fun s entry => lenStep s entry.2) ⟨0, none⟩
  pure s.outputLen

/-! ## Output -/

/-- Write each unit of an aggregate behind a start code. -/
def stapAWrite (payload : Payload) (offset : Nat) (output : Payload) : Except UnitError Payload :=
  if offset < payload.length then do
    let hi ← byteAt payload offset
    let lo ← byteAt payload (offset + 1)
    let nalu ← sliceAt payload (offset + 2) (offset + 2 + naluLen hi lo)
    stapAWrite payload (offset + 2 + naluLen hi lo) (output ++ annexbStartCode ++ nalu)
  else .ok output
termination_by payload.length - offset

/-- Copy the contents of the FU-A fragments among some payloads. -/
def copyFragments (output : Payload) (payloads : List Payload) : Except UnitError Payload :=
  payloads.foldlM (fun output fragment => do
    let first ← byteAt fragment 0
    if first &&& 0x1f = 28 then
      let content ← sliceAt fragment 2 fragment.length
      pure (output ++ content)
    else pure output) output

/-- The output so far and where the FU-A unit in progress began. -/
structure WriteState where
  output : Payload
  fuaStart : Option Int

/-- One packet of the pass that writes the output. -/
def writeStep (fragments : UnitFragments) (s : WriteState) (cursor : Int) (payload : Payload) :
    Except UnitError WriteState := do
  let first ← byteAt payload 0
  let naluType := (first &&& 0x1f).toNat
  if 1 ≤ naluType ∧ naluType ≤ 23 then
    pure { s with output := s.output ++ annexbStartCode ++ payload }
  else if naluType = 24 then
    let output ← stapAWrite payload 1 s.output
    pure { s with output := output }
  else if naluType = 28 then
    let chainStart := s.fuaStart.getD cursor
    let second ← byteAt payload 1
    if second &&& 0x40 ≠ 0 then
      let output ← copyFragments
        (s.output ++ annexbStartCode ++ [(first &&& 0x60) ||| (second &&& 0x1f)])
        (fragments.between chainStart cursor)
      pure ⟨output, none⟩
    else pure ⟨s.output, some chainStart⟩
  else .error (.transport "validated H.264 payload changed during assembly")

/-- The framed unit; its length was computed before. -/
def writeAnnexbOutput (fragments : UnitFragments) (outputLen : Nat) :
    Except UnitError Payload := do
  let s ← fragments.iter.foldlM (fun s entry => writeStep fragments s entry.1 entry.2) ⟨[], none⟩
  failIf (s.output.length ≠ outputLen)
    (.transport "validated H.264 output length changed during assembly")
  pure s.output

/-! ## Starts and entry points -/

/-- Whether a payload can be the first of an access unit. -/
def payloadStartsAu (payload : Payload) : Bool :=
  match payload.head? with
  | none => false
  | some first =>
    let naluType := (first &&& 0x1f).toNat
    if 1 ≤ naluType ∧ naluType ≤ 23 then true
    else if naluType = 24 then true
    else if naluType = 28 then payload[1]?.any fun second => second &&& 0x80 ≠ 0
    else false

/-- The NAL types of an Annex-B stream; the argument is what lies from the scan position
on. Start codes have three or four bytes. -/
def annexbNalTypes : Payload → List (BitVec 8)
  | a :: b :: c :: rest =>
    if a = 0 ∧ b = 0 ∧ c = 1 then
      match rest with
      | header :: rest => (header &&& 0x1f) :: annexbNalTypes rest
      | [] => []
    else
      match rest with
      | d :: rest =>
        if a = 0 ∧ b = 0 ∧ c = 0 ∧ d = 1 then
          match rest with
          | header :: rest => (header &&& 0x1f) :: annexbNalTypes rest
          | [] => []
        else annexbNalTypes (b :: c :: d :: rest)
      | [] => annexbNalTypes [b, c]
  | _ => []
termination_by data => data.length

def auHasIdr (data : Payload) : Bool := (annexbNalTypes data).any (· == 5)

def h264Framing : RealtimeUnitFraming where
  payloadStartsUnit := payloadStartsAu
  framedLen := annexbOutputLen
  writeFramed := writeAnnexbOutput
  isEntryPoint := auHasIdr

end MyOwnMesh.Realtime

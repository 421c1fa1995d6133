import MyOwnMesh.Attempt.RemoteCandidate
import MyOwnMesh.Foundation.Bincode

/-!
# De-duplication keys

A copy of a signaling message is recognised by its attempt and by a payload that spells out
its kind, device and content. The length of the payload is planned before it is written, so
that it can be paid for first.
-/

namespace MyOwnMesh.Signaling

open Foundation Attempt

/-- An ICE candidate as it is signaled. -/
structure Candidate where
  candidate : String
  sdpMid : Option String
  sdpMlineIndex : Option UInt16
  usernameFragment : Option String
deriving DecidableEq

/-- A message of a signaling relay. -/
inductive SignalingInbound where
  | offer (deviceId attempt sdp : String)
  | answer (deviceId attempt sdp : String)
  | candidate (deviceId attempt : String) (candidate : Candidate)
  | peerAnnounced (deviceId : String)
  | peerLeft (deviceId : String)
deriving DecidableEq

/-- `attempt_is_empty` looks at this attempt. -/
def SignalingInbound.attempt? : SignalingInbound → Option String
  | .offer _ attempt _ | .answer _ attempt _ | .candidate _ attempt _ => some attempt
  | .peerAnnounced _ | .peerLeft _ => none

/-- The key before its bytes are reserved. -/
structure DedupKeyPlan where
  attempt : String
  payloadBytes : Nat

/-- Equal for copies of one message only. -/
structure DedupKey where
  attempt : String
  payload : List UInt8
deriving DecidableEq

/-- `add_framed_len`: what it adds, in two checked additions. -/
def framedLen (text : String) : List Nat := [8, (textBytes text).length]

/-- What is added to the one byte of the kind, addition by addition. -/
def SignalingInbound.increments : SignalingInbound → List Nat
  | .offer deviceId _ sdp | .answer deviceId _ sdp => framedLen deviceId ++ framedLen sdp
  | .candidate deviceId _ ice =>
    framedLen deviceId ++ framedLen ice.candidate ++ 1 :: ice.sdpMid.elim [] framedLen ++
      1 :: ice.sdpMlineIndex.elim [] (fun _ => [2]) ++
      1 :: ice.usernameFragment.elim [] framedLen
  | .peerAnnounced _ | .peerLeft _ => []

/-- `dedup_key_plan`: a message without an attempt is an error, one without a key has no
plan. -/
def dedupKeyPlan (message : SignalingInbound) : Except Unit (Option DedupKeyPlan) :=
  match message.attempt? with
  | none => .ok none
  | some attempt =>
    match message.increments.foldlM addBytes 1 with
    | none => .error ()
    | some payloadBytes =>
      if attempt = "" then .error () else .ok (some { attempt, payloadBytes })

/-- A text behind its length. -/
def framed (text : String) : List UInt8 := leBytes 8 (textBytes text).length ++ textBytes text

/-- The bytes that identify a message. -/
def SignalingInbound.payload : SignalingInbound → List UInt8
  | .offer deviceId _ sdp => 1 :: (framed deviceId ++ framed sdp)
  | .answer deviceId _ sdp => 2 :: (framed deviceId ++ framed sdp)
  | .candidate deviceId _ ice =>
    3 :: (framed deviceId ++ (framed ice.candidate ++ (optionally framed ice.sdpMid ++
      (optionally (fun index => leBytes 2 index.toNat) ice.sdpMlineIndex ++
        optionally framed ice.usernameFragment))))
  | .peerAnnounced _ | .peerLeft _ => []

/-- The texts that are framed. -/
def SignalingInbound.texts : SignalingInbound → List String
  | .offer deviceId _ sdp | .answer deviceId _ sdp => [deviceId, sdp]
  | .candidate deviceId _ ice =>
    [deviceId, ice.candidate] ++ ice.sdpMid.toList ++ ice.usernameFragment.toList
  | .peerAnnounced _ | .peerLeft _ => []

/-- A text whose length is a `u64`. -/
def Framable (text : String) : Prop := (textBytes text).length < 2 ^ 64

instance (text : String) : Decidable (Framable text) := inferInstanceAs (Decidable (_ < _))

/-- `dedup_key`: there is none when a length is no `u64`. -/
def dedupKey (message : SignalingInbound) : Option DedupKey :=
  match message.attempt? with
  | none => none
  | some attempt =>
    if ∀ text ∈ message.texts, Framable text then some ⟨attempt, message.payload⟩ else none

/-! ## The plan is what is written -/

theorem foldlM_addBytes (increments : List Nat) : ∀ {total n : Nat}, total < 2 ^ 64 →
    increments.foldlM addBytes total = some n → n = total + increments.sum ∧ n < 2 ^ 64 := by
  induction increments with
  | nil =>
    intro total n hTotal hPlan
    obtain rfl := Option.some.inj hPlan
    exact ⟨rfl, hTotal⟩
  | cons more increments ih =>
    intro total n hTotal hPlan
    rw [List.foldlM_cons] at hPlan
    obtain ⟨next, hNext, hRest⟩ := Option.bind_eq_some_iff.mp hPlan
    obtain ⟨rfl, hBound⟩ := addBytes_eq_some.mp hNext
    obtain ⟨hSum, hLast⟩ := ih hBound hRest
    exact ⟨by rw [hSum, List.sum_cons, Nat.add_assoc], hLast⟩

theorem framed_length (text : String) : (framed text).length = (framedLen text).sum := by
  simp [framed, framedLen, leBytes_length]

variable {message : SignalingInbound}

/-- The increments add up to the payload. -/
theorem payload_length (h : message.attempt?.isSome = true) :
    message.payload.length = 1 + message.increments.sum := by
  cases message with
  | offer deviceId attempt sdp =>
    simp only [SignalingInbound.payload, SignalingInbound.increments, List.length_cons,
      List.length_append, framed_length, List.sum_append]
    omega
  | answer deviceId attempt sdp =>
    simp only [SignalingInbound.payload, SignalingInbound.increments, List.length_cons,
      List.length_append, framed_length, List.sum_append]
    omega
  | candidate deviceId attempt candidate =>
    obtain ⟨text, sdpMid, sdpMlineIndex, usernameFragment⟩ := candidate
    cases sdpMid <;> cases sdpMlineIndex <;> cases usernameFragment <;>
      simp only [SignalingInbound.payload, SignalingInbound.increments, optionally,
        List.length_cons, List.length_append, framed_length, leBytes_length, List.sum_append,
        List.sum_cons, List.sum_nil, List.length_nil, Option.elim_none, Option.elim_some] <;> omega
  | peerAnnounced deviceId => simp [SignalingInbound.attempt?] at h
  | peerLeft deviceId => simp [SignalingInbound.attempt?] at h

variable {key : DedupKey}

theorem dedupKey_eq_some (h : dedupKey message = some key) :
    message.attempt? = some key.attempt ∧ key.payload = message.payload ∧
      ∀ text ∈ message.texts, Framable text := by
  unfold dedupKey at h
  split at h
  · simp at h
  · next attempt hAttempt =>
    split at h
    · next hTexts =>
      obtain rfl := Option.some.inj h
      exact ⟨hAttempt, rfl, hTexts⟩
    · simp at h

/-- **The plan is exact.** -/
theorem dedupKeyPlan_exact {plan : DedupKeyPlan} (hPlan : dedupKeyPlan message = .ok (some plan))
    (hKey : dedupKey message = some key) :
    key.attempt = plan.attempt ∧ key.payload.length = plan.payloadBytes := by
  obtain ⟨hAttempt, hPayload, -⟩ := dedupKey_eq_some hKey
  unfold dedupKeyPlan at hPlan
  rw [hAttempt] at hPlan
  dsimp only at hPlan
  split at hPlan
  · cases hPlan
  · next payloadBytes hSum =>
    split at hPlan
    · cases hPlan
    · obtain rfl := Option.some.inj (Except.ok.inj hPlan)
      refine ⟨rfl, ?_⟩
      rw [hPayload, payload_length (by simp [hAttempt]), (foldlM_addBytes _ (by decide) hSum).1]

/-! ## Different messages have different keys -/

theorem leBytes_delimited (width : Nat) :
    Delimited (fun value : Nat => value < 256 ^ width) (leBytes width) :=
  .of_length (leBytes_length width) fun a b ha hb hEq => by
    rw [← leValue_leBytes width a ha, hEq, leValue_leBytes width b hb]

theorem framed_delimited : Delimited Framable framed := by
  intro a b r s ha hb hEq
  rw [framed, framed, List.append_assoc, List.append_assoc] at hEq
  obtain ⟨hLength, hRest⟩ := leBytes_delimited 8 (by simpa [Framable] using ha)
    (by simpa [Framable] using hb) hEq
  obtain ⟨hText, hRest⟩ := List.append_inj hRest hLength
  exact ⟨textBytes_injective hText, hRest⟩

theorem lineIndex_delimited :
    Delimited (fun _ => True) fun index : UInt16 => leBytes 2 index.toNat := by
  intro a b r s _ _ hEq
  obtain ⟨hIndex, hRest⟩ := leBytes_delimited 2 a.toNat_lt b.toNat_lt hEq
  exact ⟨UInt16.toNat_inj.mp hIndex, hRest⟩

theorem optional_framable {texts : Option String} (h : ∀ text ∈ texts.toList, Framable text) :
    ∀ text ∈ texts, Framable text := fun text hText => h text (Option.mem_toList.mpr hText)

/-- The contents of two candidates with one payload are the same. -/
theorem candidate_payload_injective {device device' : String} {a b : Candidate}
    (ha : ∀ text ∈ (SignalingInbound.candidate device "" a).texts, Framable text)
    (hb : ∀ text ∈ (SignalingInbound.candidate device' "" b).texts, Framable text)
    (h : (SignalingInbound.candidate device "" a).payload =
      (SignalingInbound.candidate device' "" b).payload) : device = device' ∧ a = b := by
  obtain ⟨text, sdpMid, sdpMlineIndex, usernameFragment⟩ := a
  obtain ⟨text', sdpMid', sdpMlineIndex', usernameFragment'⟩ := b
  simp only [SignalingInbound.texts, List.mem_append, List.mem_cons, List.not_mem_nil,
    or_false] at ha hb
  have hEq := (List.cons.inj h).2
  obtain ⟨hDevice, hText, hRest⟩ := framed_delimited.append framed_delimited
    (ha _ (.inl (.inl (.inl rfl)))) (hb _ (.inl (.inl (.inl rfl))))
    (ha _ (.inl (.inl (.inr rfl)))) (hb _ (.inl (.inl (.inr rfl)))) hEq
  obtain ⟨hMid, hRest⟩ := optionally_delimited framed_delimited
    (optional_framable fun other h => ha other (.inl (.inr h)))
    (optional_framable fun other h => hb other (.inl (.inr h))) hRest
  obtain ⟨hIndex, hRest⟩ :=
    optionally_delimited lineIndex_delimited (fun _ _ => trivial) (fun _ _ => trivial) hRest
  have hFragment := (optionally_delimited framed_delimited).injective
    (optional_framable fun other h => ha other (.inr h))
    (optional_framable fun other h => hb other (.inr h)) hRest
  obtain rfl : text = text' := hText
  obtain rfl : sdpMid = sdpMid' := hMid
  obtain rfl : sdpMlineIndex = sdpMlineIndex' := hIndex
  obtain rfl : usernameFragment = usernameFragment' := hFragment
  exact ⟨hDevice, rfl⟩

/-- An offer and an answer differ in their first byte only. -/
theorem described_payload_injective {device device' sdp sdp' : String}
    (ha : ∀ text ∈ [device, sdp], Framable text) (hb : ∀ text ∈ [device', sdp'], Framable text)
    (h : framed device ++ framed sdp = framed device' ++ framed sdp') :
    device = device' ∧ sdp = sdp' := by
  obtain ⟨hDevice, hRest⟩ := framed_delimited (ha _ (by simp)) (hb _ (by simp)) h
  exact ⟨hDevice, framed_delimited.injective (ha _ (by simp)) (hb _ (by simp)) hRest⟩

/-- **Keys tell messages apart**: kind, device, attempt and content. -/
theorem dedupKey_injective {a b : SignalingInbound} (ha : dedupKey a = some key)
    (hb : dedupKey b = some key) : a = b := by
  obtain ⟨hAttempt, hPayload, hTexts⟩ := dedupKey_eq_some ha
  obtain ⟨hAttempt', hPayload', hTexts'⟩ := dedupKey_eq_some hb
  have hSame := hPayload.symm.trans hPayload'
  have hAttempts := hAttempt.trans hAttempt'.symm
  cases a with
  | offer device attempt sdp =>
    cases b with
    | offer device' attempt' sdp' =>
      obtain ⟨rfl, rfl⟩ := described_payload_injective hTexts hTexts' (List.cons.inj hSame).2
      rw [Option.some.inj hAttempts]
    | answer _ _ _ => exact absurd (List.cons.inj hSame).1 (by decide)
    | candidate _ _ _ => exact absurd (List.cons.inj hSame).1 (by decide)
    | peerAnnounced _ => cases hAttempt'
    | peerLeft _ => cases hAttempt'
  | answer device attempt sdp =>
    cases b with
    | offer _ _ _ => exact absurd (List.cons.inj hSame).1 (by decide)
    | answer device' attempt' sdp' =>
      obtain ⟨rfl, rfl⟩ := described_payload_injective hTexts hTexts' (List.cons.inj hSame).2
      rw [Option.some.inj hAttempts]
    | candidate _ _ _ => exact absurd (List.cons.inj hSame).1 (by decide)
    | peerAnnounced _ => cases hAttempt'
    | peerLeft _ => cases hAttempt'
  | candidate device attempt content =>
    cases b with
    | offer _ _ _ => exact absurd (List.cons.inj hSame).1 (by decide)
    | answer _ _ _ => exact absurd (List.cons.inj hSame).1 (by decide)
    | candidate device' attempt' content' =>
      obtain ⟨rfl, rfl⟩ := candidate_payload_injective hTexts hTexts' hSame
      rw [Option.some.inj hAttempts]
    | peerAnnounced _ => cases hAttempt'
    | peerLeft _ => cases hAttempt'
  | peerAnnounced _ => cases hAttempt
  | peerLeft _ => cases hAttempt

end MyOwnMesh.Signaling

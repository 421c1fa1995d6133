import Mathlib.Data.Finset.Image
import MyOwnMesh.Foundation.Transition
import MyOwnMesh.Signaling.DedupKey

/-!
# Delivering signaling copies

Several carriers hand copies of one message to `deliver` at the same time. A call remembers
the key of its message under the `seen` lock, then sends, and takes the key back when the
send fails; the remembered key holds its token weakly, so it is pruned once every owner of
the token is gone. Each section under the lock and each send is one step. A call, its token
and its leases have one number.
-/

namespace MyOwnMesh.Signaling

open Foundation

/-! ## The runtime -/

/-- What a delivery returns. -/
inductive Delivered where
  | accepted
  | refused
  | unavailable
  | closed
deriving DecidableEq

/-- How far a call of `deliver` has come. -/
inductive CallState where
  | idle
  /-- Paid for, and about to take the lock. -/
  | checking (key : DedupKey)
  /-- Its key is remembered, and it is about to send. -/
  | sending
  /-- The send failed and dropped the token; the key is still to be removed. -/
  | removing (outcome : Delivered)
  /-- Nothing to remember, and about to send. -/
  | forwarding
  /-- Returned `Duplicate`, for the key of another call. -/
  | duplicate (of : Nat)
  | done (outcome : Delivered)
deriving DecidableEq

/-- A key and the token of the copy that is kept. -/
structure SeenKey where
  key : DedupKey
  token : Nat
deriving DecidableEq

/-- The two leases of a retained message. -/
inductive Lease where
  | key (call : Nat)
  | token (call : Nat)
deriving DecidableEq

/-- `SignalingRuntime` with its calls, and the strong owners of every token. -/
structure SignalingRuntime where
  issued : Nat
  message : Nat → SignalingInbound
  call : Nat → CallState
  owners : Nat → Nat
  seen : List SeenKey
  held : Finset Lease

/-- A copy that arrives, and the answers it meets before the lock. The claim for the raw
value is released before anything else, so only its refusal is seen. -/
structure Arrival where
  message : SignalingInbound
  restampsDuplicates : Bool
  hubMissing : Bool
  rawGranted : Bool
  keyGranted : Bool
  tokenGranted : Bool

/-- `deliver` up to the lock. -/
def Arrival.admitted (arrival : Arrival) : CallState :=
  if arrival.hubMissing then .done .refused
  else if ¬ arrival.rawGranted then .done .unavailable
  else if arrival.message.attempt? = some "" then .done .refused
  else if ¬ arrival.restampsDuplicates then .forwarding
  else
    match dedupKeyPlan arrival.message with
    | .error _ => .done .refused
    | .ok none => .forwarding
    | .ok (some _) =>
      if ¬ arrival.keyGranted then .done .unavailable
      else
        match dedupKey arrival.message with
        | none => .done .unavailable
        | some key => if ¬ arrival.tokenGranted then .done .unavailable else .checking key

inductive SendAnswer where
  | accepted
  | pressure
  | closed
deriving DecidableEq

def SendAnswer.delivered : SendAnswer → Delivered
  | .accepted => .accepted
  | .pressure => .refused
  | .closed => .closed

namespace SignalingRuntime

def new : SignalingRuntime :=
  { issued := 0, message := fun _ => .peerLeft "", call := fun _ => .idle, owners := fun _ => 0
    seen := [], held := ∅ }

def setCall (s : SignalingRuntime) (i : Nat) (state : CallState) : SignalingRuntime :=
  { s with call := Function.update s.call i state }

/-- Unlink the remembered keys that are not kept; each releases its lease. -/
def retain (s : SignalingRuntime) (keep : SeenKey → Bool) : SignalingRuntime :=
  { s with
    seen := s.seen.filter keep
    held := s.held \ ((s.seen.filter (! keep ·)).map fun entry => Lease.key entry.token).toFinset }

/-- `prune_seen`. -/
def prune (s : SignalingRuntime) : SignalingRuntime :=
  s.retain fun entry => 0 < s.owners entry.token

/-- `remove_seen_for_token`; one node at most has the token. -/
def removeKey (s : SignalingRuntime) (i : Nat) : SignalingRuntime :=
  s.retain fun entry => entry.token ≠ i

/-- One owner of a token drops it; the last one releases its lease. -/
def dropToken (s : SignalingRuntime) (i : Nat) : SignalingRuntime :=
  { s with
    owners := Function.update s.owners i (s.owners i - 1)
    held := if s.owners i ≤ 1 then s.held.erase (.token i) else s.held }

/-- A message arrives and its call starts. -/
def deliver (s : SignalingRuntime) (arrival : Arrival) : SignalingRuntime :=
  let i := s.issued
  let started := { s with
    issued := s.issued + 1
    message := Function.update s.message i arrival.message
    call := Function.update s.call i arrival.admitted }
  match arrival.admitted with
  | .checking _ => { started with
      owners := Function.update s.owners i 1
      held := insert (.key i) (insert (.token i) s.held) }
  | _ => started

/-- A key seen before ends the call as a duplicate. -/
def checkSeen (s : SignalingRuntime) (i : Nat) (key : DedupKey) : SignalingRuntime :=
  match s.prune.seen.find? (·.key = key) with
  | some entry =>
    { (s.prune.dropToken i).setCall i (.duplicate entry.token) with
      held := (s.prune.dropToken i).held.erase (.key i) }
  | none => { s.prune.setCall i .sending with seen := ⟨key, i⟩ :: s.prune.seen }

/-- The next step of a call; `none` if it has none. -/
def advance (s : SignalingRuntime) (i : Nat) (answer : SendAnswer) : Option SignalingRuntime :=
  match s.call i with
  | .checking key => some (s.checkSeen i key)
  | .sending =>
    match answer with
    | .accepted => some (s.setCall i (.done .accepted))
    | answer => some ((s.dropToken i).setCall i (.removing answer.delivered))
  | .removing outcome => some ((s.removeKey i).setCall i (.done outcome))
  | .forwarding => some (s.setCall i (.done answer.delivered))
  | _ => none

/-- `forget_token`: the last owner removes the key. -/
def forgetToken (s : SignalingRuntime) (i : Nat) : SignalingRuntime :=
  if (s.dropToken i).owners i ≠ 0 then s.dropToken i else (s.dropToken i).removeKey i

end SignalingRuntime

/-- The steps; the engine clones, drops and forgets the tokens it was handed. -/
inductive IngressMove where
  | deliver (arrival : Arrival)
  | advance (call : Nat) (answer : SendAnswer)
  | cloneToken (call : Nat)
  | dropToken (call : Nat)
  | forgetToken (call : Nat)

namespace SignalingRuntime

def Handed (s : SignalingRuntime) (i : Nat) : Prop := s.call i = .done .accepted ∧ 0 < s.owners i

instance (s : SignalingRuntime) (i : Nat) : Decidable (s.Handed i) :=
  inferInstanceAs (Decidable (_ ∧ _))

/-- One step of a call or of a token; `none` where it is not possible. -/
def move (s : SignalingRuntime) : IngressMove → Option SignalingRuntime
  | .deliver arrival => some (s.deliver arrival)
  | .advance i answer => s.advance i answer
  | .cloneToken i =>
    if s.Handed i then some { s with owners := Function.update s.owners i (s.owners i + 1) }
    else none
  | .dropToken i => if s.Handed i then some (s.dropToken i) else none
  | .forgetToken i => if s.Handed i then some (s.forgetToken i) else none

end SignalingRuntime

/-! ## What holds of a call -/

namespace CallState

/-- The call has no token any more, or never had one. -/
def ownerless : CallState → Bool
  | .checking _ | .sending | .done .accepted => false
  | _ => true

/-- The call itself is the one owner of its token. -/
def owned : CallState → Bool
  | .checking _ | .sending => true
  | _ => false

/-- The key of the call may be remembered. -/
def retains : CallState → Bool
  | .sending | .removing _ | .done .accepted => true
  | _ => false

def checks : CallState → Bool
  | .checking _ => true
  | _ => false

end CallState

namespace SignalingRuntime

/-- The call, its token, its key and its leases agree. -/
structure Fits (s : SignalingRuntime) (i : Nat) : Prop where
  fresh : s.issued ≤ i → s.call i = .idle
  ownerless : (s.call i).ownerless = true → s.owners i = 0
  owned : (s.call i).owned = true → s.owners i = 1
  keyed : ∀ key, s.call i = .checking key → dedupKey (s.message i) = some key
  origin : ∀ entry ∈ s.seen, entry.token = i →
    dedupKey (s.message i) = some entry.key ∧ (s.call i).retains = true
  present : 0 < s.owners i → (s.call i).retains = true → ∃ entry ∈ s.seen, entry.token = i
  keyLease : .key i ∈ s.held ↔ (∃ entry ∈ s.seen, entry.token = i) ∨ (s.call i).checks = true
  tokenLease : .token i ∈ s.held ↔ 0 < s.owners i
  duplicate : ∀ j, s.call i = .duplicate j → j ≠ i ∧ j < s.issued ∧ s.message j = s.message i

/-- Every call fits, and no key is remembered for two live tokens. -/
structure Sound (s : SignalingRuntime) : Prop where
  fits : ∀ i, s.Fits i
  unique : ∀ entry ∈ s.seen, ∀ other ∈ s.seen, 0 < s.owners entry.token →
    0 < s.owners other.token → entry.key = other.key → entry.token = other.token

/-- `t` is `s` but for one call. -/
structure Elsewhere (s t : SignalingRuntime) (i : Nat) : Prop where
  issued : s.issued ≤ t.issued
  message : ∀ j, j < s.issued ∨ j ≠ i → t.message j = s.message j
  call : ∀ j, j ≠ i → t.call j = s.call j
  owners : ∀ j, j ≠ i → t.owners j = s.owners j
  seen : ∀ entry, entry.token ≠ i → (entry ∈ t.seen ↔ entry ∈ s.seen)
  keyLease : ∀ j, j ≠ i → (.key j ∈ t.held ↔ .key j ∈ s.held)
  tokenLease : ∀ j, j ≠ i → (.token j ∈ t.held ↔ .token j ∈ s.held)

variable {s t : SignalingRuntime} {i : Nat}

theorem new_sound : new.Sound :=
  ⟨fun i => ⟨fun _ => rfl, fun _ => rfl, by simp [new, CallState.owned], by simp [new],
    by simp [new], by simp [new], by simp [new, CallState.checks], by simp [new], by simp [new]⟩,
    by simp [new]⟩

/-- A call that a step does not touch still fits. -/
theorem Fits.elsewhere {j : Nat} (h : s.Fits j) (hStep : Elsewhere s t i) (hj : j ≠ i) :
    t.Fits j := by
  have hMessage := hStep.message j (.inr hj)
  have hEntries : (∃ entry ∈ t.seen, entry.token = j) ↔ ∃ entry ∈ s.seen, entry.token = j := by
    refine exists_congr fun entry => and_congr_left fun hToken => hStep.seen entry ?_
    rw [hToken]
    exact hj
  refine ⟨fun hFresh => ?_, ?_, ?_, ?_, fun entry hEntry hToken => ?_, ?_, ?_, ?_, ?_⟩
  · rw [hStep.call j hj]
    exact h.fresh (hStep.issued.trans hFresh)
  · rw [hStep.call j hj, hStep.owners j hj]
    exact h.ownerless
  · rw [hStep.call j hj, hStep.owners j hj]
    exact h.owned
  · rw [hStep.call j hj, hMessage]
    exact h.keyed
  · rw [hStep.call j hj, hMessage]
    exact h.origin entry ((hStep.seen entry (hToken ▸ hj)).mp hEntry) hToken
  · rw [hStep.call j hj, hStep.owners j hj, hEntries]
    exact h.present
  · rw [hStep.call j hj, hStep.keyLease j hj, hEntries]
    exact h.keyLease
  · rw [hStep.owners j hj, hStep.tokenLease j hj]
    exact h.tokenLease
  · intro k hDuplicate
    rw [hStep.call j hj] at hDuplicate
    obtain ⟨hNe, hLt, hSame⟩ := h.duplicate k hDuplicate
    rw [hStep.message k (.inl hLt), hMessage]
    exact ⟨hNe, hLt.trans_le hStep.issued, hSame⟩

/-- A step that touches one call keeps the invariant if the call fits afterwards and what it
remembers is new. -/
theorem Sound.elsewhere (h : s.Sound) (hStep : Elsewhere s t i) (hFits : t.Fits i)
    (hUnique : ∀ entry ∈ t.seen, entry.token = i → 0 < t.owners i →
      ∀ other ∈ s.seen, other.token ≠ i → 0 < s.owners other.token → entry.key ≠ other.key) :
    t.Sound := by
  refine ⟨fun j => ?_, fun entry hEntry other hOther hLive hLive' hKey => ?_⟩
  · by_cases hj : j = i
    · exact hj ▸ hFits
    · exact (h.fits j).elsewhere hStep hj
  · by_cases hi : entry.token = i
    · by_cases hi' : other.token = i
      · rw [hi, hi']
      · rw [hStep.owners _ hi'] at hLive'
        exact absurd hKey (hUnique entry hEntry hi (hi ▸ hLive) other
          ((hStep.seen other hi').mp hOther) hi' hLive')
    · by_cases hi' : other.token = i
      · rw [hStep.owners _ hi] at hLive
        exact absurd hKey.symm (hUnique other hOther hi' (hi' ▸ hLive') entry
          ((hStep.seen entry hi).mp hEntry) hi hLive)
      · rw [hStep.owners _ hi] at hLive
        rw [hStep.owners _ hi'] at hLive'
        exact h.unique entry ((hStep.seen entry hi).mp hEntry) other
          ((hStep.seen other hi').mp hOther) hLive hLive' hKey

/-! ## Unlinking keys -/

theorem mem_retain_held {keep : SeenKey → Bool} {lease : Lease} :
    lease ∈ (s.retain keep).held ↔
      lease ∈ s.held ∧ ∀ entry ∈ s.seen, keep entry = false → Lease.key entry.token ≠ lease := by
  simp [retain, Finset.mem_sdiff]

/-- Keys of dead tokens may be unlinked at any time. -/
theorem Sound.retain (h : s.Sound) {keep : SeenKey → Bool} (hAll : ∀ entry other,
      entry.token = other.token → keep entry = keep other)
    (hKeep : ∀ entry ∈ s.seen, 0 < s.owners entry.token → keep entry = true) :
    (s.retain keep).Sound := by
  have hSeen : ∀ {entry}, entry ∈ (s.retain keep).seen ↔ entry ∈ s.seen ∧ keep entry = true :=
    List.mem_filter
  refine ⟨fun i => ?_, fun entry hEntry other hOther =>
    h.unique entry (hSeen.mp hEntry).1 other (hSeen.mp hOther).1⟩
  have hi := h.fits i
  refine ⟨hi.fresh, hi.ownerless, hi.owned, hi.keyed,
    fun entry hEntry => hi.origin entry (hSeen.mp hEntry).1, fun hLive hRetains => ?_, ?_, ?_,
    hi.duplicate⟩
  · obtain ⟨entry, hEntry, hToken⟩ := hi.present hLive hRetains
    exact ⟨entry, hSeen.mpr ⟨hEntry, hKeep entry hEntry (hToken ▸ hLive)⟩, hToken⟩
  · rw [mem_retain_held, hi.keyLease]
    constructor
    · rintro ⟨⟨entry, hEntry, hToken⟩ | hChecks, hOthers⟩
      · refine .inl ⟨entry, hSeen.mpr ⟨hEntry, ?_⟩, hToken⟩
        by_contra hLost
        exact hOthers entry hEntry (by simpa using hLost) (by rw [hToken])
      · exact .inr hChecks
    · rintro (⟨entry, hEntry, hToken⟩ | hChecks)
      · obtain ⟨hMem, hKept⟩ := hSeen.mp hEntry
        refine ⟨.inl ⟨entry, hMem, hToken⟩, fun other hOther hLost hSame => ?_⟩
        rw [hAll other entry ((Lease.key.inj hSame).trans hToken.symm), hKept] at hLost
        exact absurd hLost (by simp)
      · refine ⟨.inr hChecks, fun other hOther _ hSame => ?_⟩
        have hRetains := (hi.origin other hOther (Lease.key.inj hSame)).2
        change (s.call i).checks = true at hChecks
        revert hRetains hChecks
        cases s.call i <;> simp [CallState.retains, CallState.checks]
  · rw [mem_retain_held, hi.tokenLease]
    exact and_iff_left fun _ _ _ => by simp

theorem Sound.prune (h : s.Sound) : s.prune.Sound :=
  h.retain (fun _ _ hToken => by rw [hToken]) fun _ _ hLive => by simpa using hLive

theorem Sound.removeKey (h : s.Sound) (hDead : s.owners i = 0) : (s.removeKey i).Sound := by
  refine h.retain (fun _ _ hToken => by rw [hToken]) fun entry _ hLive => ?_
  have hNe : entry.token ≠ i := fun hToken => by rw [hToken, hDead] at hLive; omega
  simpa using hNe

theorem not_mem_removeKey (entry : SeenKey) (hEntry : entry ∈ (s.removeKey i).seen) :
    entry.token ≠ i := by
  simpa using (List.mem_filter.mp hEntry).2

/-! ## The steps -/

/-- Only a copy that is paid for holds anything at the lock. -/
theorem admitted_cases (arrival : Arrival) :
    (∃ key, arrival.admitted = .checking key ∧ dedupKey arrival.message = some key) ∨
      arrival.admitted = .forwarding ∨
      ∃ outcome, outcome ≠ Delivered.accepted ∧ arrival.admitted = .done outcome := by
  unfold Arrival.admitted
  repeat' split
  all_goals first
    | exact .inr (.inl rfl)
    | exact .inr (.inr ⟨_, by simp, rfl⟩)
    | exact .inl ⟨_, rfl, by assumption⟩

theorem Sound.deliver (h : s.Sound) (arrival : Arrival) : (s.deliver arrival).Sound := by
  have hi := h.fits s.issued
  have hIdle := hi.fresh le_rfl
  have hNone : ∀ entry ∈ s.seen, entry.token ≠ s.issued := by
    intro entry hEntry hToken
    have hRetains := (hi.origin entry hEntry hToken).2
    simp [hIdle, CallState.retains] at hRetains
  have hKey : Lease.key s.issued ∉ s.held := by
    rw [hi.keyLease, hIdle]
    rintro (⟨entry, hEntry, hToken⟩ | hChecks)
    · exact hNone entry hEntry hToken
    · simp [CallState.checks] at hChecks
  have hOwners : s.owners s.issued = 0 := hi.ownerless (by rw [hIdle]; rfl)
  have hToken : Lease.token s.issued ∉ s.held := by
    rw [hi.tokenLease]
    omega
  have hNew : ∀ state : CallState, Elsewhere s { s with
      issued := s.issued + 1
      message := Function.update s.message s.issued arrival.message
      call := Function.update s.call s.issued state } s.issued := fun state =>
    ⟨Nat.le_succ _, fun j hj => Function.update_of_ne (hj.elim Nat.ne_of_lt id) _ _,
      fun j hj => Function.update_of_ne hj _ _, fun _ _ => rfl, fun _ _ => Iff.rfl,
      fun _ _ => Iff.rfl, fun _ _ => Iff.rfl⟩
  unfold SignalingRuntime.deliver
  rcases admitted_cases arrival with ⟨key, hState, hDedup⟩ | hState | ⟨outcome, hOutcome, hState⟩
  · simp only [hState]
    obtain ⟨hIssued, hMessage, hCall, -, -, -, -⟩ := hNew (.checking key)
    refine h.elsewhere ⟨hIssued, hMessage, hCall, fun j hj => Function.update_of_ne hj _ _,
      fun _ _ => Iff.rfl, fun j hj => by simp [hj], fun j hj => by simp [hj]⟩
      ⟨by simp, by simp [CallState.ownerless], by simp, ?_, ?_, by simp [CallState.retains], ?_,
        by simp, by simp⟩ fun entry hEntry hSame => absurd hSame (hNone entry hEntry)
    · simpa using hDedup
    · exact fun entry hEntry hSame => absurd hSame (hNone entry hEntry)
    · simp [CallState.checks]
  · simp only [hState]
    refine h.elsewhere (hNew _) ⟨by simp, fun _ => hOwners, by simp [CallState.owned], by simp,
      fun entry hEntry hSame => absurd hSame (hNone entry hEntry), by simp [CallState.retains], ?_,
      by simp [hToken, hOwners], by simp⟩
      fun entry hEntry hSame => absurd hSame (hNone entry hEntry)
    simpa [hKey, CallState.checks] using hNone
  · simp only [hState]
    refine h.elsewhere (hNew _) ⟨by simp, fun _ => hOwners, by simp [CallState.owned], by simp,
      fun entry hEntry hSame => absurd hSame (hNone entry hEntry), by simp [hOwners], ?_,
      by simp [hToken, hOwners], by simp⟩
      fun entry hEntry hSame => absurd hSame (hNone entry hEntry)
    simpa [hKey, CallState.checks] using hNone

theorem Sound.setCall (h : s.Sound) {state : CallState} (hBorn : s.call i ≠ .idle)
    (hOwnerless : state.ownerless = true → s.owners i = 0) (hOwned : state.owned = false)
    (hChecks : state.checks = false) (hChecked : (s.call i).checks = false)
    (hRetains : ∀ entry ∈ s.seen, entry.token = i → state.retains = true)
    (hPresent : 0 < s.owners i → (s.call i).retains = true) (hFinal : ∀ j, state ≠ .duplicate j) :
    (s.setCall i state).Sound := by
  have hi := h.fits i
  refine h.elsewhere ⟨le_rfl, fun _ _ => rfl, fun j hj => Function.update_of_ne hj _ _,
    fun _ _ => rfl, fun _ _ => Iff.rfl, fun _ _ => Iff.rfl, fun _ _ => Iff.rfl⟩
    ⟨fun hFresh => absurd (hi.fresh hFresh) hBorn, ?_, ?_, ?_, ?_, ?_, ?_, hi.tokenLease, ?_⟩ ?_
  · simpa [SignalingRuntime.setCall] using hOwnerless
  · simp [SignalingRuntime.setCall, hOwned]
  · intro key hKey
    have hKey : state = .checking key := by simpa [SignalingRuntime.setCall] using hKey
    simp [hKey, CallState.checks] at hChecks
  · intro entry hEntry hToken
    refine ⟨(hi.origin entry hEntry hToken).1, ?_⟩
    simpa [SignalingRuntime.setCall] using hRetains entry hEntry hToken
  · exact fun hLive _ => hi.present hLive (hPresent hLive)
  · have hLease := hi.keyLease
    simp only [hChecked, Bool.false_eq_true, or_false] at hLease
    simpa [SignalingRuntime.setCall, hChecks] using hLease
  · intro j hDuplicate
    exact absurd (by simpa [SignalingRuntime.setCall] using hDuplicate) (hFinal j)
  · intro entry hEntry hToken hLive other hOther hNe hLive' hKey
    exact hNe ((h.unique other hOther entry hEntry hLive' (hToken ▸ hLive) hKey.symm).trans hToken)

theorem mem_dropToken_held {lease : Lease} (hNe : lease ≠ .token i) :
    lease ∈ (s.dropToken i).held ↔ lease ∈ s.held := by
  unfold SignalingRuntime.dropToken
  dsimp only
  split
  · simp [hNe]
  · rfl

/-- An owner drops the token of a call whose key may stay. -/
theorem Sound.dropToken (h : s.Sound) {state : CallState} (hRetained : (s.call i).retains = true)
    (hLast : state.ownerless = true → s.owners i = 1) (hOwned : state.owned = false)
    (hChecks : state.checks = false) (hRetains : state.retains = true)
    (hFinal : ∀ j, state ≠ .duplicate j) : ((s.dropToken i).setCall i state).Sound := by
  have hi := h.fits i
  have hChecked : (s.call i).checks = false := by
    revert hRetained
    cases s.call i <;> simp [CallState.retains, CallState.checks]
  have hDown : ((s.dropToken i).setCall i state).owners i = s.owners i - 1 := by
    simp [SignalingRuntime.dropToken, SignalingRuntime.setCall]
  have hCall : ((s.dropToken i).setCall i state).call i = state := by
    simp [SignalingRuntime.setCall]
  refine h.elsewhere ⟨le_rfl, fun _ _ => rfl, fun j hj => Function.update_of_ne hj _ _,
    fun j hj => Function.update_of_ne hj _ _, fun _ _ => Iff.rfl,
    fun j hj => mem_dropToken_held (by simp), fun j hj => mem_dropToken_held (by simp [hj])⟩
    ⟨fun hFresh => ?_, ?_, ?_, ?_, ?_, ?_, ?_, ?_, ?_⟩ ?_
  · rw [hi.fresh hFresh] at hRetained
    simp [CallState.retains] at hRetained
  · rw [hCall, hDown]
    intro hOwnerless
    rw [hLast hOwnerless]
  · simp [hCall, hOwned]
  · intro key hKey
    rw [hCall] at hKey
    simp [hKey, CallState.checks] at hChecks
  · intro entry hEntry hToken
    exact ⟨(hi.origin entry hEntry hToken).1, by rw [hCall]; exact hRetains⟩
  · rw [hDown]
    exact fun hLive _ => hi.present (by omega) hRetained
  · have hLease := hi.keyLease
    simp only [hChecked, Bool.false_eq_true, or_false] at hLease
    rw [hCall, hChecks]
    show Lease.key i ∈ (s.dropToken i).held ↔ _
    rw [mem_dropToken_held (by simp), hLease]
    simp [SignalingRuntime.setCall, SignalingRuntime.dropToken]
  · rw [hDown]
    show Lease.token i ∈ (s.dropToken i).held ↔ _
    unfold SignalingRuntime.dropToken
    dsimp only
    split
    · simp only [Finset.mem_erase, ne_eq, not_true_eq_false, false_and, false_iff]
      omega
    · rw [hi.tokenLease]
      omega
  · intro j hDuplicate
    rw [hCall] at hDuplicate
    exact absurd hDuplicate (hFinal j)
  · intro entry hEntry hToken hLive other hOther hNe hLive' hKey
    rw [hDown] at hLive
    exact hNe ((h.unique other hOther entry hEntry hLive' (by rw [hToken]; omega) hKey.symm).trans
      hToken)

/-- The lock section: a duplicate gives up its leases, a new key is seen. -/
theorem Sound.checkSeen (h : s.Sound) {key : DedupKey} (hCall : s.call i = .checking key) :
    (s.checkSeen i key).Sound := by
  have hPruned := h.prune
  have hCall : s.prune.call i = .checking key := hCall
  unfold SignalingRuntime.checkSeen
  generalize s.prune = p at hPruned hCall
  have hi := hPruned.fits i
  have hOne : p.owners i = 1 := hi.owned (by rw [hCall]; rfl)
  have hKey := hi.keyed key hCall
  have hNone : ∀ entry ∈ p.seen, entry.token ≠ i := by
    intro entry hEntry hToken
    have hRetains := (hi.origin entry hEntry hToken).2
    simp [hCall, CallState.retains] at hRetains
  cases hFind : p.seen.find? (·.key = key) with
  | some entry =>
    have hEntry := List.mem_of_find?_eq_some hFind
    have hSame : entry.key = key := by simpa using List.find?_some hFind
    obtain ⟨hOrigin, hRetains⟩ := (hPruned.fits entry.token).origin entry hEntry rfl
    refine hPruned.elsewhere ⟨le_rfl, fun _ _ => rfl, fun j hj => Function.update_of_ne hj _ _,
      fun j hj => Function.update_of_ne hj _ _, fun _ _ => Iff.rfl, fun j hj => ?_, fun j hj => ?_⟩
      ⟨fun hFresh => ?_, ?_, ?_, ?_, ?_, ?_, ?_, ?_, ?_⟩ ?_
    · simp [SignalingRuntime.dropToken, hOne, hj]
    · simp [SignalingRuntime.dropToken, hOne, hj]
    · rw [hi.fresh hFresh] at hCall
      cases hCall
    · simp [SignalingRuntime.dropToken, SignalingRuntime.setCall, hOne]
    · simp [SignalingRuntime.setCall, CallState.owned]
    · simp [SignalingRuntime.setCall]
    · exact fun other hOther hToken => absurd hToken (hNone other hOther)
    · simp [SignalingRuntime.dropToken, SignalingRuntime.setCall, hOne]
    · simpa [SignalingRuntime.setCall, SignalingRuntime.dropToken, CallState.checks] using hNone
    · simp [SignalingRuntime.setCall, SignalingRuntime.dropToken, hOne]
    · intro j hDuplicate
      obtain rfl : entry.token = j := by simpa [SignalingRuntime.setCall] using hDuplicate
      refine ⟨hNone entry hEntry, ?_, dedupKey_injective (hOrigin.trans (by rw [hSame])) hKey⟩
      show entry.token < p.issued
      by_contra hFresh
      rw [(hPruned.fits _).fresh (not_lt.mp hFresh)] at hRetains
      simp [CallState.retains] at hRetains
    · exact fun other hOther hToken => absurd hToken (hNone other hOther)
  | none =>
    refine hPruned.elsewhere ⟨le_rfl, fun _ _ => rfl, fun j hj => Function.update_of_ne hj _ _,
      fun _ _ => rfl, fun other hOther => ?_, fun _ _ => Iff.rfl, fun _ _ => Iff.rfl⟩
      ⟨fun hFresh => ?_, ?_, ?_, ?_, ?_, ?_, ?_, hi.tokenLease, ?_⟩ ?_
    · rw [List.mem_cons, or_iff_right]
      rintro rfl
      exact hOther rfl
    · rw [hi.fresh hFresh] at hCall
      cases hCall
    · simp [SignalingRuntime.setCall, CallState.ownerless]
    · exact fun _ => hOne
    · simp [SignalingRuntime.setCall]
    · intro other hOther hToken
      rcases List.mem_cons.mp hOther with rfl | hOther
      · exact ⟨hKey, by simp [SignalingRuntime.setCall, CallState.retains]⟩
      · exact absurd hToken (hNone other hOther)
    · exact fun _ _ => ⟨_, List.mem_cons_self, rfl⟩
    · have hLease := hi.keyLease
      simp only [hCall, CallState.checks, or_true, iff_true] at hLease
      exact iff_of_true hLease (.inl ⟨_, List.mem_cons_self, rfl⟩)
    · simp [SignalingRuntime.setCall]
    · intro other hOther hToken _ third hThird _ _ hSame
      rcases List.mem_cons.mp hOther with rfl | hOther
      · exact absurd (List.find?_eq_none.mp hFind third hThird) (by simp [← hSame])
      · exact hNone other hOther hToken

theorem Sound.advance (h : s.Sound) {answer : SendAnswer} (hStep : s.advance i answer = some t) :
    t.Sound := by
  have hi := h.fits i
  unfold SignalingRuntime.advance at hStep
  split at hStep
  · next key hCall =>
    obtain rfl := Option.some.inj hStep
    exact h.checkSeen hCall
  · next hCall =>
    have hOne : s.owners i = 1 := hi.owned (by rw [hCall]; rfl)
    split at hStep
    · obtain rfl := Option.some.inj hStep
      exact h.setCall (by simp [hCall]) (by simp [CallState.ownerless]) rfl rfl (by rw [hCall]; rfl)
        (fun _ _ _ => rfl) (fun _ => by rw [hCall]; rfl) (by simp)
    · obtain rfl := Option.some.inj hStep
      exact h.dropToken (by rw [hCall]; rfl) (fun _ => hOne) rfl rfl rfl (by simp)
  · next outcome hCall =>
    obtain rfl := Option.some.inj hStep
    have hDead : s.owners i = 0 := hi.ownerless (by rw [hCall]; rfl)
    have hRemoved := h.removeKey hDead
    have hCall' : (s.removeKey i).call i = .removing outcome := hCall
    exact hRemoved.setCall (by simp [hCall']) (fun _ => hDead) rfl rfl (by rw [hCall']; rfl)
      (fun entry hEntry hToken => absurd hToken (not_mem_removeKey entry hEntry))
      (fun _ => by rw [hCall']; rfl) (by simp)
  · next hCall =>
    obtain rfl := Option.some.inj hStep
    have hDead : s.owners i = 0 := hi.ownerless (by rw [hCall]; rfl)
    refine h.setCall (by simp [hCall]) (fun _ => hDead) rfl rfl (by rw [hCall]; rfl)
      (fun entry hEntry hToken => ?_) (fun hLive => by omega) (by simp)
    have hRetains := (hi.origin entry hEntry hToken).2
    simp [hCall, CallState.retains] at hRetains
  · simp at hStep

/-- The engine drops a token it was handed. -/
theorem Sound.dropHanded (h : s.Sound) (hHanded : s.Handed i) : (s.dropToken i).Sound := by
  have hDropped : ((s.dropToken i).setCall i (.done .accepted)).Sound :=
    h.dropToken (by rw [hHanded.1]; rfl) (by simp [CallState.ownerless]) rfl rfl rfl (by simp)
  have hCall : Function.update (s.dropToken i).call i (.done .accepted) =
      (s.dropToken i).call := by
    rw [← hHanded.1]
    exact Function.update_eq_self i s.call
  unfold SignalingRuntime.setCall at hDropped
  rwa [hCall] at hDropped

/-- **Every move keeps the invariant.** -/
theorem Sound.move {label : IngressMove} (h : s.Sound) (hMove : s.move label = some t) :
    t.Sound := by
  cases label with
  | deliver arrival =>
    obtain rfl := Option.some.inj hMove
    exact h.deliver arrival
  | advance i answer => exact h.advance hMove
  | cloneToken i =>
    obtain ⟨hHanded, hSome⟩ := Option.ite_none_right_eq_some.mp hMove
    obtain rfl := Option.some.inj hSome
    have hi := h.fits i
    refine h.elsewhere ⟨le_rfl, fun _ _ => rfl, fun _ _ => rfl,
      fun j hj => Function.update_of_ne hj _ _, fun _ _ => Iff.rfl, fun _ _ => Iff.rfl,
      fun _ _ => Iff.rfl⟩ ⟨hi.fresh, ?_, ?_, hi.keyed, hi.origin,
        fun _ => hi.present hHanded.2, hi.keyLease, ?_, hi.duplicate⟩ ?_
    · simp [hHanded.1, CallState.ownerless]
    · simp [hHanded.1, CallState.owned]
    · simpa using hi.tokenLease.mpr hHanded.2
    · intro entry hEntry hToken _ other hOther hNe hLive hKey
      exact hNe ((h.unique other hOther entry hEntry hLive (hToken ▸ hHanded.2) hKey.symm).trans
        hToken)
  | dropToken i =>
    obtain ⟨hHanded, hSome⟩ := Option.ite_none_right_eq_some.mp hMove
    obtain rfl := Option.some.inj hSome
    exact h.dropHanded hHanded
  | forgetToken i =>
    obtain ⟨hHanded, hSome⟩ := Option.ite_none_right_eq_some.mp hMove
    obtain rfl := Option.some.inj hSome
    unfold SignalingRuntime.forgetToken
    split
    · exact h.dropHanded hHanded
    · next hDead => exact (h.dropHanded hHanded).removeKey (not_not.mp hDead)

end SignalingRuntime

open SignalingRuntime

/-- **Copies are delivered at most once**, in every interleaving. A call about to be accepted
has another message than every accepted call whose token is held. A duplicate has the message
of another call, keys tell messages apart, and a key has the planned length. A call that
failed has left neither a key nor a lease. -/
theorem signaling_copies_delivered_once (s : SignalingRuntime)
    (hRun : Runs SignalingRuntime.move (fun _ _ => True) SignalingRuntime.new s) :
    (∀ i j, s.call i = .sending ∨ s.Handed i → s.call j = .sending ∨ s.Handed j → i ≠ j →
      s.message i ≠ s.message j) ∧
    (∀ i j, s.call i = .duplicate j → j ≠ i ∧ s.message j = s.message i) ∧
    (∀ a b key, dedupKey a = some key → dedupKey b = some key → a = b) ∧
    (∀ message plan key, dedupKeyPlan message = .ok (some plan) → dedupKey message = some key →
      key.attempt = plan.attempt ∧ key.payload.length = plan.payloadBytes) ∧
    ∀ i outcome, s.call i = .done outcome → outcome ≠ .accepted →
      (∀ entry ∈ s.seen, entry.token ≠ i) ∧ .key i ∉ s.held ∧ .token i ∉ s.held := by
  have h : s.Sound := Runs.invariant (fun _ _ _ h _ hMove => h.move hMove) new_sound hRun
  have hLive : ∀ i, s.call i = .sending ∨ s.Handed i →
      0 < s.owners i ∧
        ∃ entry ∈ s.seen, entry.token = i ∧ dedupKey (s.message i) = some entry.key := by
    intro i hState
    have hi := h.fits i
    have hOwned : 0 < s.owners i ∧ (s.call i).retains = true := by
      rcases hState with hCall | hHanded
      · exact ⟨by rw [hi.owned (by rw [hCall]; rfl)]; omega, by rw [hCall]; rfl⟩
      · exact ⟨hHanded.2, by rw [hHanded.1]; rfl⟩
    obtain ⟨entry, hEntry, hToken⟩ := hi.present hOwned.1 hOwned.2
    exact ⟨hOwned.1, entry, hEntry, hToken, (hi.origin entry hEntry hToken).1⟩
  refine ⟨fun i j hi hj hNe hSame => ?_, fun i j hCall => ?_, fun _ _ _ => dedupKey_injective,
    fun _ _ _ => dedupKeyPlan_exact, fun i outcome hCall hFailed => ?_⟩
  · obtain ⟨hOwners, entry, hEntry, rfl, hKey⟩ := hLive i hi
    obtain ⟨hOwners', other, hOther, rfl, hKey'⟩ := hLive j hj
    rw [hSame, hKey'] at hKey
    exact hNe (h.unique entry hEntry other hOther hOwners hOwners' (Option.some.inj hKey).symm)
  · exact ⟨((h.fits i).duplicate j hCall).1, ((h.fits i).duplicate j hCall).2.2⟩
  · have hi := h.fits i
    have hNone : ∀ entry ∈ s.seen, entry.token ≠ i := by
      intro entry hEntry hToken
      have hRetains := (hi.origin entry hEntry hToken).2
      cases outcome <;> simp [hCall, CallState.retains] at hRetains hFailed
    have hOwners : s.owners i = 0 := by
      refine hi.ownerless ?_
      cases outcome <;> simp [hCall, CallState.ownerless] at hFailed ⊢
    refine ⟨hNone, ?_, ?_⟩
    · rw [hi.keyLease, hCall]
      rintro (⟨entry, hEntry, hToken⟩ | hChecks)
      · exact hNone entry hEntry hToken
      · simp [CallState.checks] at hChecks
    · rw [hi.tokenLease]
      omega

/-- A copy that meets no refusal before the lock. -/
def sampleCopy : Arrival := ⟨.offer "device" "attempt" "sdp", true, false, true, true, true⟩

/-- Two copies: the first is accepted, the second is its duplicate. -/
def sampleIngressMoves : List IngressMove :=
  [.deliver sampleCopy, .deliver sampleCopy, .advance 0 .accepted, .advance 0 .accepted,
    .advance 1 .accepted]

def sampleIngress : SignalingRuntime :=
  (play SignalingRuntime.move (fun _ _ => True) .new sampleIngressMoves).getD .new

theorem sampleIngress_reached :
    Runs SignalingRuntime.move (fun _ _ => True) SignalingRuntime.new sampleIngress :=
  Runs.play_getD sampleIngressMoves _ (by decide +kernel)

theorem signaling_copies_delivered_once_duplicate :
    sampleIngress.call 1 = .duplicate 0 ∧ sampleIngress.message 0 = sampleIngress.message 1 :=
  ⟨by decide +kernel, ((signaling_copies_delivered_once sampleIngress
    sampleIngress_reached).2.1 1 0 (by decide +kernel)).2⟩

/-! ## Duplicates of what is never delivered -/

/-- A send that this step has refused is of a call that no copy was dropped for. -/
def RefusesUnseen (s : SignalingRuntime) (label : IngressMove) : Prop :=
  ∀ i answer, label = .advance i answer → s.call i = .sending →
    answer = .accepted ∨ ∀ k < s.issued, s.call k ≠ .duplicate i

instance (s : SignalingRuntime) : ∀ label, Decidable (RefusesUnseen s label)
  | .advance i answer => decidable_of_iff (s.call i = .sending →
        answer = .accepted ∨ ∀ k < s.issued, s.call k ≠ .duplicate i)
      ⟨fun h _ _ hLabel => by cases hLabel; exact h, fun h => h i answer rfl⟩
  | .deliver _ | .cloneToken _ | .dropToken _ | .forgetToken _ => isTrue (by rintro _ _ ⟨⟩)

/-- The call is accepted, or about to be. -/
def SignalingRuntime.Delivers (s : SignalingRuntime) (i : Nat) : Prop :=
  s.call i = .sending ∨ s.call i = .done .accepted

/-- A duplicate was dropped for a call that delivers. -/
def SignalingRuntime.Fulfilled (s : SignalingRuntime) : Prop :=
  ∀ i j, s.call i = .duplicate j → s.Delivers j

namespace SignalingRuntime

variable {s t : SignalingRuntime}

/-- The call of a remembered key with a live token delivers. -/
theorem Sound.delivers (h : s.Sound) {entry : SeenKey} (hEntry : entry ∈ s.seen)
    (hLive : 0 < s.owners entry.token) : s.Delivers entry.token := by
  have hRetains := ((h.fits entry.token).origin entry hEntry rfl).2
  have hOwnerless := (h.fits entry.token).ownerless
  unfold Delivers
  revert hRetains hOwnerless
  cases s.call entry.token with
  | done outcome => cases outcome <;> simp [CallState.retains]
  | removing outcome =>
    intro _ hDead
    exact absurd (hDead rfl) (by omega)
  | _ => simp [CallState.retains]

/-- A step that keeps the calls that deliver and returns duplicates of them only. -/
theorem Fulfilled.step (h : s.Fulfilled) (hKept : ∀ i, s.Delivers i → t.Delivers i)
    (hDuplicate : ∀ i j, t.call i = .duplicate j → s.call i = .duplicate j ∨ s.Delivers j) :
    t.Fulfilled := by
  intro i j hCall
  rcases hDuplicate i j hCall with hOld | hNew
  · exact hKept _ (h i j hOld)
  · exact hKept _ hNew

/-- Another state of one call that does not deliver before, or delivers after. -/
theorem Delivers.setCall {i j : Nat} {state : CallState} (h : s.Delivers j)
    (hState : s.Delivers i → state = .sending ∨ state = .done .accepted) :
    (s.setCall i state).Delivers j := by
  by_cases hj : j = i
  · subst hj
    simpa [Delivers, SignalingRuntime.setCall] using hState h
  · simpa [Delivers, SignalingRuntime.setCall, hj] using h

theorem setCall_duplicate {i j k : Nat} {state : CallState} (hState : ∀ j, state ≠ .duplicate j)
    (h : (s.setCall i state).call k = .duplicate j) : s.call k = .duplicate j := by
  by_cases hk : k = i
  · subst hk
    exact absurd (by simpa [SignalingRuntime.setCall] using h) (hState j)
  · simpa [SignalingRuntime.setCall, hk] using h

theorem Fulfilled.advance {i : Nat} (h : s.Fulfilled) (hSound : s.Sound) {answer : SendAnswer}
    (hRefuses : s.call i = .sending → answer = .accepted ∨
      ∀ k < s.issued, s.call k ≠ .duplicate i)
    (hStep : s.advance i answer = some t) : t.Fulfilled := by
  unfold SignalingRuntime.advance at hStep
  split at hStep
  · next key hCall =>
    obtain rfl := Option.some.inj hStep
    have hNot : ¬ s.Delivers i := by simp [Delivers, hCall]
    unfold SignalingRuntime.checkSeen
    split
    · next entry hFind =>
      obtain ⟨hEntry, hLive⟩ := List.mem_filter.mp (List.mem_of_find?_eq_some hFind)
      refine h.step (fun j hj => ?_) fun k j hDuplicate => ?_
      · exact Delivers.setCall (s := s) hj fun hDelivers => absurd hDelivers hNot
      · by_cases hk : k = i
        · subst hk
          obtain rfl : entry.token = j := by simpa [SignalingRuntime.setCall] using hDuplicate
          exact .inr (hSound.delivers hEntry (by simpa using hLive))
        · have hCall : s.call k = .duplicate j := by
            rw [← hDuplicate]
            exact (Function.update_of_ne hk _ _).symm
          exact .inl hCall
    · exact h.step (fun j hj => Delivers.setCall (s := s) hj fun _ => .inl rfl)
        fun k j hDuplicate => .inl (setCall_duplicate (s := s) (by simp) hDuplicate)
  · next hCall =>
    split at hStep
    · obtain rfl := Option.some.inj hStep
      exact h.step (fun j hj => hj.setCall fun _ => .inr rfl)
        fun k j hDuplicate => .inl (setCall_duplicate (by simp) hDuplicate)
    · next hRefused =>
      -- The call stops delivering, but no copy was dropped for it.
      obtain rfl := Option.some.inj hStep
      intro k j hDuplicate
      have hOld := setCall_duplicate (s := s) (by simp) hDuplicate
      have hOther : j ≠ i := by
        rintro rfl
        refine ((hRefuses hCall).resolve_left hRefused) k ?_ hOld
        by_contra hFresh
        rw [(hSound.fits k).fresh (not_lt.mp hFresh)] at hOld
        cases hOld
      simpa [Delivers, SignalingRuntime.setCall, SignalingRuntime.dropToken, hOther] using h k j hOld
  · next outcome hCall =>
    obtain rfl := Option.some.inj hStep
    have hNot : ¬ s.Delivers i := by simp [Delivers, hCall]
    exact h.step (fun j hj => Delivers.setCall (s := s) hj fun hDelivers => absurd hDelivers hNot)
      fun k j hDuplicate => .inl (setCall_duplicate (s := s) (by simp) hDuplicate)
  · next hCall =>
    obtain rfl := Option.some.inj hStep
    have hNot : ¬ s.Delivers i := by simp [Delivers, hCall]
    exact h.step (fun j hj => hj.setCall fun hDelivers => absurd hDelivers hNot)
      fun k j hDuplicate => .inl (setCall_duplicate (by simp) hDuplicate)
  · simp at hStep

/-- A duplicate keeps its original while no send is refused that a copy relies on. -/
theorem Fulfilled.move {label : IngressMove} (h : s.Fulfilled) (hSound : s.Sound)
    (hRefuses : RefusesUnseen s label) (hMove : s.move label = some t) : t.Fulfilled := by
  have hTokens : ∀ t : SignalingRuntime, t.call = s.call → t.Fulfilled := by
    intro t hCalls i j hDuplicate
    rw [hCalls] at hDuplicate
    unfold Delivers
    rw [hCalls]
    exact h i j hDuplicate
  cases label with
  | deliver arrival =>
    obtain rfl := Option.some.inj hMove
    have hIdle := (hSound.fits s.issued).fresh le_rfl
    have hCalls : (s.deliver arrival).call = (s.setCall s.issued arrival.admitted).call := by
      unfold SignalingRuntime.deliver
      dsimp only
      split <;> rfl
    have hState : ∀ j, arrival.admitted ≠ .duplicate j := by
      rcases admitted_cases arrival with ⟨key, hState, -⟩ | hState | ⟨outcome, -, hState⟩ <;>
        simp [hState]
    refine h.step (fun j hj => ?_) fun k j hDuplicate => ?_
    · have hSet : (s.setCall s.issued arrival.admitted).Delivers j :=
        hj.setCall fun hDelivers => by simp [Delivers, hIdle] at hDelivers
      unfold Delivers at hSet ⊢
      rwa [hCalls]
    · rw [hCalls] at hDuplicate
      exact .inl (setCall_duplicate hState hDuplicate)
  | advance i answer => exact h.advance hSound (hRefuses i answer rfl) hMove
  | cloneToken i =>
    obtain ⟨-, hSome⟩ := Option.ite_none_right_eq_some.mp hMove
    obtain rfl := Option.some.inj hSome
    exact hTokens _ rfl
  | dropToken i =>
    obtain ⟨-, hSome⟩ := Option.ite_none_right_eq_some.mp hMove
    obtain rfl := Option.some.inj hSome
    exact hTokens _ rfl
  | forgetToken i =>
    obtain ⟨-, hSome⟩ := Option.ite_none_right_eq_some.mp hMove
    obtain rfl := Option.some.inj hSome
    unfold SignalingRuntime.forgetToken
    split
    · exact hTokens _ rfl
    · exact hTokens _ rfl

end SignalingRuntime

/-- **A duplicate of what is delivered.** While no send is refused that a copy was already
dropped for, a call returns `Duplicate` only for a call with the same message that was
accepted, or whose next step is. -/
theorem duplicate_of_delivered (s : SignalingRuntime)
    (hRun : Runs SignalingRuntime.move RefusesUnseen SignalingRuntime.new s) (i j : Nat)
    (hDuplicate : s.call i = .duplicate j) :
    s.message j = s.message i ∧ (s.call j = .done .accepted ∨ s.call j = .sending ∧
      ∀ answer t, RefusesUnseen s (.advance j answer) → s.move (.advance j answer) = some t →
        t.call j = .done .accepted) := by
  have hBoth : s.Sound ∧ s.Fulfilled := by
    refine Runs.invariant (I := fun s => s.Sound ∧ s.Fulfilled) (fun _ _ _ h hRefuses hMove =>
      ⟨h.1.move hMove, h.2.move h.1 hRefuses hMove⟩) ⟨new_sound, ?_⟩ hRun
    exact fun i j hCall => by cases hCall
  refine ⟨((hBoth.1.fits i).duplicate j hDuplicate).2.2, ?_⟩
  rcases hBoth.2 i j hDuplicate with hSending | hDone
  · refine .inr ⟨hSending, fun answer t hRefuses hMove => ?_⟩
    have hKnown : i < s.issued := by
      by_contra hFresh
      rw [(hBoth.1.fits i).fresh (not_lt.mp hFresh)] at hDuplicate
      cases hDuplicate
    obtain rfl := (hRefuses j answer rfl hSending).resolve_right fun hNone =>
      hNone i hKnown hDuplicate
    have hStep : s.advance j .accepted = some t := hMove
    simp only [SignalingRuntime.advance, hSending] at hStep
    obtain rfl := Option.some.inj hStep
    simp [SignalingRuntime.setCall]
  · exact .inl hDone

/-- A first copy is refused before the second one takes the lock; of two more the second
meets the key of the first before that has sent. -/
def sampleRaceMoves : List IngressMove :=
  [.deliver sampleCopy, .advance 0 .accepted, .advance 0 .pressure, .deliver sampleCopy,
    .deliver sampleCopy, .advance 1 .accepted, .advance 2 .accepted, .advance 0 .accepted]

def sampleRace : SignalingRuntime :=
  (play SignalingRuntime.move RefusesUnseen .new sampleRaceMoves).getD .new

theorem duplicate_of_delivered_racing :
    sampleRace.call 0 = .done .refused ∧ sampleRace.call 2 = .duplicate 1 ∧
      sampleRace.message 1 = sampleRace.message 2 :=
  ⟨by decide +kernel, by decide +kernel, (duplicate_of_delivered sampleRace
    (Runs.play_getD sampleRaceMoves _ (by decide +kernel)) 2 1 (by decide +kernel)).1⟩

/-- A second copy is dropped for the key of a first one, whose send is then refused: both are
gone, one of them as a duplicate. -/
def sampleLost : SignalingRuntime :=
  (play SignalingRuntime.move (fun _ _ => True) .new
    [.deliver sampleCopy, .deliver sampleCopy, .advance 0 .accepted, .advance 1 .accepted,
      .advance 0 .pressure, .advance 0 .pressure]).getD .new

theorem duplicate_of_undelivered :
    Runs SignalingRuntime.move (fun _ _ => True) SignalingRuntime.new sampleLost ∧
    sampleLost.call 1 = .duplicate 0 ∧ sampleLost.call 0 = .done .refused ∧
    sampleLost.issued = 2 ∧ sampleLost.seen = [] :=
  ⟨Runs.play_getD _ _ (by decide +kernel), by decide +kernel, by decide +kernel,
    by decide +kernel, by decide +kernel⟩

end MyOwnMesh.Signaling
